import CodeFacts.Proofs.Builder.Replies

/-!
What stands open in a builder, along the calls it handles. A call in its place brings no name out of
its place and no refusal for want of balance. A container that is entered is the innermost scope, and
closing it leaves what stood open before.
-/

namespace CodeFacts

/-! ### Runs of calls -/

namespace Handler

variable {η : Type} [Handler η] {state : η} {call : Call}

theorem handleAll_of_refused {fault : Fault} (rest : List Call)
    (refused : (handle call state).1.outcome = .error fault) :
    (handleAll state (call :: rest)).1 = some fault := by
  simp only [handleAll, refused]

theorem handleAll_of_accepted (rest : List Call)
    (accepted : (handle call state).1.isAccepted = true) :
    (handleAll state (call :: rest)).1 = (handleAll (handle call state).2 rest).1 ∧
      (handleAll state (call :: rest)).2.2 = (handleAll (handle call state).2 rest).2.2 := by
  simp only [handleAll, Reply.isAccepted_eq_true_iff.mp accepted, and_self]

theorem accepted_of_handleAll {rest : List Call}
    (passed : (handleAll state (call :: rest)).1 = none) :
    (handle call state).1.isAccepted = true := by
  by_contra refused
  obtain ⟨fault, outcome⟩ := Reply.isAccepted_eq_false_iff.mp (Bool.eq_false_of_not_eq_true refused)
  cases (handleAll_of_refused rest outcome).symm.trans passed

/-- Of calls in a row that pass, those before and those after some point pass. -/
theorem handleAll_append_of_passed {first second : List Call}
    (passed : (handleAll state (first ++ second)).1 = none) :
    (handleAll state first).1 = none ∧
      (handleAll (handleAll state first).2.2 second).1 = none ∧
      (handleAll state (first ++ second)).2.2 =
        (handleAll (handleAll state first).2.2 second).2.2 := by
  have split := handleAll_append first second state
  generalize handleAll state first = run at split ⊢
  obtain ⟨fault | fault, notices, next⟩ := run
  · rw [split] at passed ⊢
    exact ⟨rfl, passed, rfl⟩
  · rw [split] at passed
    cases passed

theorem after_of_handleAll {calls : List Call} (passed : (handleAll state calls).1 = none) :
    (handleAll state calls).2.2 = after state calls := by
  induction calls generalizing state with
  | nil => rfl
  | cons call rest ih =>
      obtain ⟨goes, reaches⟩ := handleAll_of_accepted rest (accepted_of_handleAll passed)
      rw [reaches, ih (goes.symm.trans passed)]
      rfl

end Handler

theorem Call.opens_of_opening {call : Call} {kind : EntityKind} {name : Value}
    (opening : call.opening? = some (kind, name)) : ∃ writes, call.opens? = some (kind, writes) := by
  cases call <;> cases opening <;> exact ⟨_, rfl⟩

theorem Call.placedName_of_isNote {call : Call} (note : call.isNote = true) :
    call.placedName? = none := by
  cases call <;> cases note <;> rfl

namespace Builder

variable {σ : Type} [TripleStore σ] {builder next : Builder σ}

/-- What stands open, and whether a run is on. -/
def standing (builder : Builder σ) : Phase × List Scope × Option Value × Nat :=
  (builder.phase, builder.scopes, builder.unit, builder.unitDepth)

/-- Whether some calls, handled up to the first that is refused, bring no name out of its place and
no refusal for want of balance, and leave a builder of which something holds if none is refused. -/
structure Passes (builder : Builder σ) (calls : List Call) (reached : Builder σ → Prop) : Prop where
  quiet : ∀ declared expected,
    .packageDiscrepancy declared expected ∉ (Handler.handleAll builder calls).2.1
  balanced : ∀ fault ∈ (Handler.handleAll builder calls).1, fault.Balanced
  reaches : (Handler.handleAll builder calls).1 = none →
    reached (Handler.handleAll builder calls).2.2

variable {reached later : Builder σ → Prop} {calls : List Call} {call : Call}

theorem passes_nil (holds : reached builder) : builder.Passes [] reached :=
  ⟨fun _ _ => List.not_mem_nil, nofun, fun _ => holds⟩

theorem Passes.append {more : List Call} (first : builder.Passes calls reached)
    (second : ∀ next, reached next → Passes next more later) :
    builder.Passes (calls ++ more) later := by
  obtain ⟨quiet, balanced, reaches⟩ := first
  have split := Handler.handleAll_append calls more builder
  generalize Handler.handleAll builder calls = run at quiet balanced reaches split
  obtain ⟨fault, notices, next⟩ := run
  cases fault with
  | some fault =>
      exact ⟨by rw [split]; exact quiet, by rw [split]; exact balanced, by rw [split]; exact nofun⟩
  | none =>
      obtain ⟨further_quiet, further_balanced, further⟩ := second next (reaches rfl)
      refine ⟨fun declared expected said => ?_, ?_, ?_⟩
      · rw [split] at said
        rcases List.mem_append.mp said with early | late
        · exact quiet declared expected early
        · exact further_quiet declared expected late
      · rw [split]
        exact further_balanced
      · rw [split]
        exact further

theorem Passes.mono (passes : builder.Passes calls reached)
    (wider : ∀ next, reached next → later next) : builder.Passes calls later :=
  ⟨passes.quiet, passes.balanced, fun accepted => wider _ (passes.reaches accepted)⟩

theorem passes_call
    (quiet : ∀ declared expected, .packageDiscrepancy declared expected ∉ builder.sayable call)
    (balanced : Steps.Only Fault.Balanced (builder.handle call).1.outcome)
    (reaches : (builder.handle call).1.isAccepted = true → reached (builder.handle call).2) :
    builder.Passes [call] reached := by
  have silent (declared expected : String) :
      .packageDiscrepancy declared expected ∉ (builder.handle call).1.notices := by
    intro said
    rcases builder.handle_saysOnly call _ said with ⟨name, same⟩ | listed
    · cases same
    · exact quiet declared expected listed
  unfold Reply.isAccepted at reaches
  cases outcome : (builder.handle call).1.outcome with
  | error fault =>
      have run : Handler.handleAll builder [call] =
          (some fault, (builder.handle call).1.notices, (builder.handle call).2) := by
        have refused : (Handler.handle call builder).1.outcome = .error fault := outcome
        simp only [Handler.handleAll, refused]
        rfl
      refine ⟨?_, ?_, ?_⟩
      · rw [run]
        exact silent
      · rw [run]
        rintro _ ⟨rfl⟩
        exact balanced fault outcome
      · rw [run]
        rintro ⟨⟩
  | ok _ =>
      rw [outcome] at reaches
      have run : Handler.handleAll builder [call] =
          (none, (builder.handle call).1.notices ++ [], (builder.handle call).2) := by
        have accepted : (Handler.handle call builder).1.outcome = .ok () := outcome
        simp only [Handler.handleAll, accepted]
        rfl
      refine ⟨?_, ?_, ?_⟩
      · rw [run]
        simpa using silent
      · rw [run]
        rintro _ ⟨⟩
      · rw [run]
        exact fun _ => reaches rfl

/-! ### Calls in their place -/

/-- Whether the innermost scope is that of an owner; the empty name is that of no scope. -/
def At (builder : Builder σ) (owner : String) : Prop :=
  match builder.scopes with
  | [] => owner = ""
  | scope :: _ => scope.name = owner ∧ owner ≠ ""

/-- Whether the unit that is open was begun no deeper than the builder is now. -/
def Deep (builder : Builder σ) : Prop :=
  builder.unit.isSome = true → builder.unitDepth ≤ builder.depth

omit [TripleStore σ] in
theorem At.same {owner : String} (placed : builder.At owner)
    (standing : next.standing = builder.standing) : next.At owner := by
  simp only [Builder.standing, Prod.mk.injEq] at standing
  unfold At
  rw [standing.2.1]
  exact placed

omit [TripleStore σ] in
theorem Deep.same (deep : builder.Deep) (standing : next.standing = builder.standing) :
    next.Deep := by
  simp only [Builder.standing, Prod.mk.injEq] at standing
  unfold Deep depth
  rw [standing.2.1, standing.2.2.1, standing.2.2.2]
  exact deep

theorem Deep.handle (deep : builder.Deep) (call : Call) : (builder.handle call).2.Deep := by
  have outcome := outcome_handle builder call
  generalize builder.handle call = result at outcome
  cases outcome with
  | refuses | declares | notes => exact deep
  | begins => exact nofun
  | ends => exact deep
  | beginsUnit => exact fun _ => Nat.le_refl _
  | endsUnit => exact nofun
  | opens => exact fun some_unit => (deep some_unit).trans (Nat.le_succ _)
  | closes kind scope outer told running open_scope same inside =>
      intro some_unit
      have deeper := inside some_unit
      unfold depth at deeper
      rw [open_scope, List.length_cons] at deeper
      exact Nat.lt_succ_iff.mp deeper

theorem Deep.after (calls : List Call) {builder : Builder σ} (deep : builder.Deep) :
    (Handler.after builder calls).Deep := by
  induction calls generalizing builder with
  | nil => exact deep
  | cons call rest ih => exact ih (deep.handle call)

omit [TripleStore σ] in
theorem discrepancies_undotted {name : String} (undotted : '.' ∉ name.toList) :
    builder.discrepancies name = [] := by
  have outer : Dotted.outer name = "" := by
    rw [Dotted.outer, Text.cutLast_eq_none_iff.mpr undotted]
  simp [discrepancies, outer]

omit [TripleStore σ] in
theorem At.discrepancies {owner name : String} (placed : builder.At owner)
    (undotted : '.' ∉ name.toList) : builder.discrepancies (Dotted.within owner name) = [] := by
  unfold Builder.discrepancies scopeName
  rw [Dotted.outer_within undotted]
  unfold At at placed
  cases open_scope : builder.scopes with
  | nil =>
      rw [open_scope] at placed
      exact if_pos (.inl placed)
  | cons scope outer =>
      rw [open_scope] at placed
      exact if_pos (.inr placed.1.symm)

theorem standing_of_unmarked (unmarked : call.mark? = none) :
    (builder.handle call).2.standing = builder.standing := by
  have outcome := outcome_handle builder call
  generalize builder.handle call = result at outcome
  cases outcome with
  | refuses | declares | notes => rfl
  | begins _ _ _ _ told | ends _ _ told | beginsUnit _ told | endsUnit _ told =>
      subst told
      cases unmarked
  | opens _ _ _ _ _ _ _ _ told => cases unmarked.symm.trans (Call.mark_of_opens told)
  | closes _ _ _ told => cases unmarked.symm.trans (Call.mark_of_closes told)

/-- A call that neither opens nor closes anything and brings no dotted name passes anywhere. -/
theorem passes_simple (unmarked : call.mark? = none)
    (undotted : ∀ name, call.placedName? = some (.text name) → '.' ∉ name.toList) :
    builder.Passes [call] fun next => next.standing = builder.standing := by
  have sort : (call.declares?).isSome ∨ call.isNote = true := by
    cases call <;> first | exact .inl rfl | exact .inr rfl | cases unmarked
  refine passes_call ?_ (builder.handle_balanced call (.inr sort)) fun _ =>
    standing_of_unmarked unmarked
  intro declared expected said
  unfold sayable at said
  split at said
  · simp at said
  · cases named : call.placedName? with
    | none =>
        rw [named] at said
        cases said
    | some name =>
        rw [named] at said
        cases name with
        | text name => simp [placed, discrepancies_undotted (undotted name named)] at said
        | _ => cases said

theorem passes_all_simple (unmarked : ∀ call ∈ calls, call.mark? = none)
    (undotted : ∀ name, .text name ∈ calls.filterMap Call.placedName? → '.' ∉ name.toList) :
    builder.Passes calls fun next => next.standing = builder.standing := by
  induction calls generalizing builder with
  | nil => exact passes_nil rfl
  | cons call rest ih =>
      obtain ⟨this, others⟩ := List.forall_mem_cons.mp unmarked
      have named (name : String) (placed : call.placedName? = some (.text name)) :
          '.' ∉ name.toList :=
        undotted name (List.mem_filterMap.mpr ⟨call, List.mem_cons_self, placed⟩)
      refine (passes_simple this named).append fun next same => ?_
      rw [← same]
      refine ih others fun name listed => undotted name ?_
      obtain ⟨other, later, placed⟩ := List.mem_filterMap.mp listed
      exact List.mem_filterMap.mpr ⟨other, List.mem_cons_of_mem call later, placed⟩

theorem passes_notes (notes : ∀ call ∈ calls, call.isNote = true) :
    builder.Passes calls fun next => next.standing = builder.standing := by
  refine passes_all_simple (fun call listed => Call.mark_of_isNote (notes call listed)) ?_
  intro name listed
  obtain ⟨call, noted, placed⟩ := List.mem_filterMap.mp listed
  cases (Call.placedName_of_isNote (notes call noted)).symm.trans placed

/-- Calls that neither open nor close anything leave what stands open. -/
theorem standing_of_handleAll {builder : Builder σ} (unmarked : ∀ call ∈ calls, call.mark? = none)
    (passed : (Handler.handleAll builder calls).1 = none) :
    (Handler.handleAll builder calls).2.2.standing = builder.standing := by
  induction calls generalizing builder with
  | nil => rfl
  | cons call rest ih =>
      obtain ⟨this, others⟩ := List.forall_mem_cons.mp unmarked
      obtain ⟨goes, reaches⟩ :=
        Handler.handleAll_of_accepted rest (Handler.accepted_of_handleAll passed)
      rw [reaches, ih others (goes.symm.trans passed)]
      exact standing_of_unmarked this

/-! ### Containers -/

/-- A container that is accepted stands open, in what stood open before. -/
theorem standing_of_opened {kind : EntityKind} {writes : Declared}
    (told : call.opens? = some (kind, writes))
    (accepted : (builder.handle call).1.isAccepted = true) :
    builder.phase = .parsing ∧ ∃ scope, scope.kind = kind ∧ (builder.handle call).2.standing =
      (.parsing, scope :: builder.scopes, builder.unit, builder.unitDepth) := by
  have mark := Call.mark_of_opens told
  have outcome := outcome_handle builder call
  generalize builder.handle call = result at outcome accepted
  cases outcome with
  | refuses => cases accepted
  | begins _ _ _ _ other | ends _ _ other | beginsUnit _ other | endsUnit _ other =>
      subst other
      cases mark
  | opens _ _ segments name _ path _ _ again running =>
      cases again.symm.trans told
      refine ⟨running, ⟨kind, path, segments.length, name⟩, rfl, ?_⟩
      simp only [standing, running]
  | closes _ _ _ other => cases (Call.mark_of_closes other).symm.trans mark
  | declares _ _ _ _ _ _ _ _ _ other => cases (Call.mark_of_declares other).symm.trans mark
  | notes _ _ other => cases (Call.mark_of_isNote other).symm.trans mark

/-- What is closed was the innermost container, opened inside of the unit. -/
theorem closed_of_accepted {kind : EntityKind} (told : call.closes? = some kind)
    (accepted : (builder.handle call).1.isAccepted = true) :
    builder.phase = .parsing ∧ ∃ scope outer, builder.scopes = scope :: outer ∧ scope.kind = kind ∧
      (builder.unit.isSome = true → builder.unitDepth < builder.depth) := by
  have mark := Call.mark_of_closes told
  have outcome := outcome_handle builder call
  generalize builder.handle call = result at outcome accepted
  cases outcome with
  | refuses => cases accepted
  | begins _ _ _ _ other | ends _ _ other | beginsUnit _ other | endsUnit _ other =>
      subst other
      cases mark
  | opens _ _ _ _ _ _ _ _ other => cases (Call.mark_of_opens other).symm.trans mark
  | closes _ scope outer again running open_scope same inside =>
      cases again.symm.trans told
      exact ⟨running, scope, outer, open_scope, same, inside⟩
  | declares _ _ _ _ _ _ _ _ _ other => cases (Call.mark_of_declares other).symm.trans mark
  | notes _ _ other => cases (Call.mark_of_isNote other).symm.trans mark

/-- Whether a builder stands in a container of a kind and a dotted name, opened where another one
stands. -/
def Entered (builder : Builder σ) (kind : EntityKind) (name : String) (next : Builder σ) : Prop :=
  builder.phase = .parsing ∧ ∃ scope, scope.kind = kind ∧ scope.name = name ∧
    next.standing = (.parsing, scope :: builder.scopes, builder.unit, builder.unitDepth)

section Entered

omit [TripleStore σ]

variable {kind : EntityKind} {name : String} {inside : Builder σ}

theorem Entered.same (entered : builder.Entered kind name inside)
    (standing : next.standing = inside.standing) : builder.Entered kind name next := by
  obtain ⟨running, scope, of_kind, called, stands⟩ := entered
  exact ⟨running, scope, of_kind, called, standing.trans stands⟩

theorem Entered.at (entered : builder.Entered kind name inside) (filled : name ≠ "") :
    inside.At name := by
  obtain ⟨_, scope, _, called, stands⟩ := entered
  simp only [Builder.standing, Prod.mk.injEq] at stands
  unfold At
  rw [stands.2.1]
  exact ⟨called, filled⟩

theorem Entered.deep (entered : builder.Entered kind name inside) (deep : builder.Deep) :
    inside.Deep := by
  obtain ⟨_, scope, _, _, stands⟩ := entered
  simp only [Builder.standing, Prod.mk.injEq] at stands
  unfold Deep depth
  rw [stands.2.1, stands.2.2.1, stands.2.2.2]
  exact fun some_unit => (deep some_unit).trans (Nat.le_succ _)

end Entered

theorem openScope_entered {notices : List Notice} {kind : EntityKind} {segments : List String}
    {name : String} {writes : Identifier → List Write} (running : builder.phase = .parsing)
    (accepted : (builder.openScope notices kind segments name writes).1.isAccepted = true) :
    builder.Entered kind name (builder.openScope notices kind segments name writes).2 := by
  unfold openScope at *
  generalize pushAll kind builder.path segments = pushed at *
  obtain ⟨path, _ | fault⟩ := pushed
  · dsimp only at *
    unfold write at *
    generalize builder.model.writeAll (writes path) = written at *
    obtain ⟨model, fault | unknown⟩ := written
    · cases accepted
    · refine ⟨running, ⟨kind, path, segments.length, name⟩, rfl, rfl, ?_⟩
      simp only [standing, running]
  · cases accepted

omit [TripleStore σ] in
theorem At.scopedName {owner name : String} (placed : builder.At owner) :
    builder.scopedName name = Dotted.within owner name := by
  unfold At at placed
  unfold Builder.scopedName Dotted.within
  cases open_scope : builder.scopes with
  | nil =>
      rw [open_scope] at placed
      exact (if_pos placed).symm
  | cons scope outer =>
      rw [open_scope] at placed
      obtain ⟨rfl, filled⟩ := placed
      exact (if_neg filled).symm

theorem openType_entered {kind : EntityKind} {what owner name : String} {writes : Declared}
    (placed : builder.At owner) (undotted : '.' ∉ name.toList)
    (accepted : (builder.openType kind what (.text (Dotted.within owner name))
      writes).1.isAccepted = true) :
    Dotted.within owner name ≠ "" ∧
      builder.Entered kind (Dotted.within owner name)
        (builder.openType kind what (.text (Dotted.within owner name)) writes).2 := by
  unfold openType at *
  cases running : builder.phase with
  | idle =>
      rw [running] at accepted
      cases accepted
  | parsing =>
      rw [running] at accepted
      have named : builder.simpleName (.text (Dotted.within owner name)) =
          if Dotted.within owner name = "" then .error (.refused .emptyName)
          else .ok (name, builder.discrepancies (Dotted.within owner name)) := by
        simp [simpleName, nameText, Dotted.simple_within undotted, bind, Except.bind, pure,
          Except.pure]
      by_cases empty : Dotted.within owner name = ""
      · rw [if_pos empty] at named
        rw [named] at accepted
        cases accepted
      · rw [if_neg empty] at named
        rw [named] at accepted ⊢
        dsimp only at accepted ⊢
        rw [placed.scopedName] at accepted ⊢
        exact ⟨empty, openScope_entered running accepted⟩

/-- A call that opens a type in its owner enters it. -/
theorem passes_opening {kind : EntityKind} {owner name : String} (placed : builder.At owner)
    (undotted : '.' ∉ name.toList) (type : kind ≠ .package)
    (opens : call.opening? = some (kind, .text (Dotted.within owner name))) :
    builder.Passes [call] fun next =>
      Dotted.within owner name ≠ "" ∧ builder.Entered kind (Dotted.within owner name) next := by
  have quiet (declared expected : String) :
      .packageDiscrepancy declared expected ∉
        builder.discrepancies (Dotted.within owner name) := by
    rw [placed.discrepancies undotted]
    exact List.not_mem_nil
  cases call <;> cases opens
  case startPackage => exact absurd rfl type
  case startClass | startInterface | startEnumeration =>
    exact passes_call quiet (builder.handle_balanced _ (.inl rfl)) fun accepted =>
      openType_entered placed undotted accepted

omit [TripleStore σ] in
theorem packageName_same {name text : String} {segments : List String}
    (named : builder.packageName (.text name) = .ok (text, segments)) : text = name := by
  unfold packageName at named
  split at named
  · cases named
  · split at named
    · cases named
    · simp only [Steps.bind_ok_iff, Steps.pure_ok_iff] at named
      obtain ⟨_, ⟨rfl⟩, _, _, pair⟩ := named
      exact (Prod.mk.inj pair).1.symm

theorem startPackage_entered {name : String}
    (accepted : (builder.startPackage (.text name)).1.isAccepted = true) :
    builder.Entered .package name (builder.startPackage (.text name)).2 := by
  unfold startPackage at *
  cases running : builder.phase with
  | idle =>
      rw [running] at accepted
      cases accepted
  | parsing =>
      rw [running] at accepted
      cases named : builder.packageName (.text name) with
      | error fault =>
          rw [named] at accepted
          cases accepted
      | ok parts =>
          obtain ⟨text, segments⟩ := parts
          rw [named] at accepted
          rw [packageName_same named] at accepted ⊢
          exact openScope_entered running accepted

theorem passes_startPackage {name : String} :
    builder.Passes [.startPackage (.text name)] (builder.Entered .package name) :=
  passes_call (fun _ _ => List.not_mem_nil) (builder.handle_balanced _ (.inl rfl))
    startPackage_entered

theorem handle_closing {kind : EntityKind} (closes : call.closes? = some kind) :
    builder.handle call = builder.closeScope kind := by
  cases call <;> cases closes <;> rfl

omit [TripleStore σ] in
/-- The innermost container is closed where it is of the kind and inside of the unit. -/
theorem closeScope_inside {kind : EntityKind} {scope : Scope} {outer : List Scope}
    (running : builder.phase = .parsing) (open_scope : builder.scopes = scope :: outer)
    (same : scope.kind = kind)
    (inside : builder.unit.isSome = true → builder.unitDepth < builder.depth) :
    builder.closeScope kind =
      (.accepted [],
        { builder with path := builder.path.ancestor scope.pushed, scopes := outer }) := by
  unfold closeScope
  rw [running, open_scope]
  dsimp only
  rw [if_neg (fun other => other same)]
  split
  · rfl
  · rename_i begun some_unit
    rw [if_neg]
    exact Nat.not_le.mpr (inside (by rw [some_unit]; rfl))

/-- A call that closes the container entered last passes, and leaves what stood open before. -/
theorem passes_closing {kind : EntityKind} {name : String} {inside : Builder σ}
    (deep : builder.Deep) (entered : builder.Entered kind name inside)
    (closes : call.closes? = some kind) :
    inside.Passes [call] fun next => next.standing = builder.standing := by
  obtain ⟨run_on, scope, same, -, standing⟩ := entered
  simp only [Builder.standing, Prod.mk.injEq] at standing
  obtain ⟨running, open_scope, unit, level⟩ := standing
  have deeper (some_unit : inside.unit.isSome = true) : inside.unitDepth < inside.depth := by
    have before := deep (unit ▸ some_unit)
    simp only [depth, open_scope, List.length_cons, level] at before ⊢
    omega
  have closed := closeScope_inside running open_scope same deeper
  refine passes_call ?_ ?_ fun _ => ?_
  · intro declared expected said
    cases call <;> cases closes <;> cases said
  · rw [handle_closing closes, closed]
    exact Steps.only_ok ()
  · rw [handle_closing closes, closed]
    simp only [Builder.standing, running, run_on, unit, level]

/-- A container that is opened and closed by calls that pass leaves what stood open, if what is in
it does. -/
theorem standing_of_container {kind : EntityKind} {name : Value} {opening closing : Call}
    (opens : opening.opening? = some (kind, name)) (closes : closing.closes? = some kind)
    (inside : ∀ builder : Builder σ, (Handler.handleAll builder calls).1 = none →
      (Handler.handleAll builder calls).2.2.standing = builder.standing)
    (passed : (Handler.handleAll builder (opening :: calls ++ [closing])).1 = none) :
    (Handler.handleAll builder (opening :: calls ++ [closing])).2.2.standing =
      builder.standing := by
  obtain ⟨first, last, reached⟩ := Handler.handleAll_append_of_passed passed
  have opened := Handler.accepted_of_handleAll first
  obtain ⟨goes, reaches⟩ := Handler.handleAll_of_accepted calls opened
  obtain ⟨writes, told⟩ := Call.opens_of_opening opens
  obtain ⟨running, scope, _, stands⟩ := standing_of_opened told opened
  have kept := (inside _ (goes.symm.trans first)).trans stands
  have closed := Handler.accepted_of_handleAll last
  rw [reached, (Handler.handleAll_of_accepted [] closed).2]
  rw [reaches] at closed ⊢
  generalize (Handler.handleAll (Handler.handle opening builder).2 calls).2.2 = inner at *
  obtain ⟨still, _, outer, open_scope, same, deeper⟩ := closed_of_accepted closes closed
  simp only [Builder.standing, Prod.mk.injEq, open_scope, List.cons.injEq] at kept
  show (inner.handle closing).2.standing = builder.standing
  rw [handle_closing closes, closeScope_inside still open_scope same deeper]
  simp only [Builder.standing, still, running, kept.2.1.2, kept.2.2.1, kept.2.2.2]

end Builder

end CodeFacts
