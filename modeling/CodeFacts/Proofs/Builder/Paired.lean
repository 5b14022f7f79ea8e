import CodeFacts.Proofs.Builder.Accept
import CodeFacts.Proofs.Builder.Standing
import Mathlib.Data.List.Forall2

/-!
Two tellings side by side. Where one builder accepts its calls, another one that stands in the same
kinds of containers accepts calls of the same kinds, whatever they name, up to the first that names
nothing.
-/

namespace CodeFacts

/-- Whether a call gives an empty name to what it declares. -/
def Call.Nameless (call : Call) : Prop := call.placedName? = some (.text "")

/-! ### What is accepted -/

/-- What a type adds fits the profile where its call is of the kinds the profile speaks of. -/
theorem Call.opens_fit {call : Call} {kind : EntityKind} {writes : Declared}
    (told : call.opens? = some (kind, writes)) (type : kind ≠ .package)
    (kinds : call.wellKinded = true) {holder : EntityKind}
    (listed : holder ∈ EntityKind.package :: EntityKind.types) {container id : Identifier}
    (around : Carries container.text holder) (carries : Carries id.text kind) :
    ∀ first ∈ writes container id, first.Fits := by
  cases call <;> cases told
  case startPackage => exact absurd rfl type
  case startClass =>
    simp only [Call.wellKinded, Bool.and_eq_true] at kinds
    exact Declaration.classWrites_fit kinds.1.1.1 _ listed around carries kinds.1.2 kinds.2
  case startInterface =>
    simp only [Call.wellKinded, Bool.and_eq_true] at kinds
    exact Declaration.interfaceWrites_fit kinds.1.1 _ listed around carries kinds.2
  case startEnumeration =>
    simp only [Call.wellKinded, Bool.and_eq_true] at kinds
    exact Declaration.enumerationWrites_fit kinds.1.1.1 _ listed around carries kinds.1.2 kinds.2

/-- The kinds of container that members of a kind are declared in. -/
def EntityKind.holders : EntityKind → List EntityKind
  | .constructor => Builder.constructible
  | _ => EntityKind.types

/-- What a member adds fits the profile where its call is of the kinds the profile speaks of. -/
theorem Call.declares_fit {call : Call} {kind : EntityKind} {writes : Declared}
    (told : call.declares? = some (kind, writes)) (kinds : call.wellKinded = true)
    {holder : EntityKind} (listed : holder ∈ kind.holders) {container id : Identifier}
    (around : Carries container.text holder)
    (strongest : id.strongestQualifier = .ok kind.key) :
    ∀ first ∈ writes container id, first.Fits := by
  cases call <;> cases told
  case «attribute» =>
    simp only [Call.wellKinded, Bool.and_eq_true] at kinds
    exact Declaration.attributeWrites_fit kinds.1.1.1 _ listed around
      (Identifier.carries strongest) kinds.1.2 kinds.2
  case constructor =>
    simp only [Call.wellKinded, Bool.and_eq_true] at kinds
    exact Declaration.executableWrites_fit kinds.1.1.1.1 _ kinds.1.1.1.2 (by decide)
      (Ontology.holds_constructor listed) around strongest kinds.1.1.2 kinds.1.2 rfl kinds.2
  case method =>
    simp only [Call.wellKinded, Bool.and_eq_true] at kinds
    obtain ⟨⟨⟨⟨⟨⟨word, _⟩, whole⟩, given⟩, plain⟩, returned⟩, thrown⟩ := kinds
    exact Declaration.executableWrites_fit word _ whole (by decide)
      (Ontology.holds_member listed (by decide)) around strongest given plain returned thrown

namespace Builder

variable {σ : Type} [TripleStore σ] {builder : Builder σ} {call : Call}

theorem handle_type {kind : EntityKind} {writes : Declared}
    (told : call.opens? = some (kind, writes)) (type : kind ≠ .package) :
    ∃ what name, call.placedName? = some name ∧
      builder.handle call = builder.openType kind what name writes := by
  cases call <;> cases told
  case startPackage => exact absurd rfl type
  all_goals exact ⟨_, _, rfl, rfl⟩

/-- How a member is declared: under the name it is given, or under its place among overloads. -/
theorem handle_member {kind : EntityKind} {writes : Declared}
    (told : call.declares? = some (kind, writes)) :
    ∃ what named, builder.handle call = builder.declare kind what kind.holders named writes ∧
      ((∃ overload, call.placedName? = none ∧ named = .ok (Declaration.overloadName overload, []) ∧
          (call.wellKinded = true → overload.isWhole = true)) ∨
        ∃ name, call.placedName? = some name ∧ named = builder.simpleName name) := by
  cases call <;> cases told
  case constructor =>
    refine ⟨_, _, rfl, .inl ⟨_, rfl, rfl, fun kinds => ?_⟩⟩
    simp only [Call.wellKinded, Bool.and_eq_true] at kinds
    exact kinds.1.1.1.2
  all_goals exact ⟨_, _, rfl, .inr ⟨_, rfl, rfl⟩⟩

omit [TripleStore σ] in
theorem simpleName_of_unmarked {name : Value} (unmarked : name.isUnmarked = true)
    (filled : name ≠ .text "") : (builder.simpleName name).isOk = true := by
  cases name with
  | text name =>
      have some_name : name ≠ "" := fun empty => filled (congrArg Value.text empty)
      show (if name = "" then _ else _ : Except Fault (String × List Notice)).isOk = true
      rw [if_neg some_name]
      rfl
  | _ => cases unmarked

theorem unmarked_of_placed {name : Value} (kinds : call.wellKinded = true)
    (placed : call.placedName? = some name) : name.isUnmarked = true := by
  cases call <;> cases placed <;> simp only [Call.wellKinded, Bool.and_eq_true] at kinds
  case startClass => exact kinds.1.1.2
  case startInterface => exact kinds.1.2
  case startEnumeration => exact kinds.1.1.2
  case «attribute» => exact kinds.1.1.2
  case method => exact kinds.1.1.1.1.1.2

theorem type_accepted (guards : builder.Guards) (running : builder.phase = .parsing)
    {kind : EntityKind} {writes : Declared} (told : call.opens? = some (kind, writes))
    (type : kind ≠ .package) (kinds : call.wellKinded = true) (named : ¬call.Nameless) :
    (builder.handle call).1.isAccepted = true := by
  obtain ⟨what, name, placed, handled⟩ := @handle_type _ _ builder call _ _ told type
  have unmarked := unmarked_of_placed kinds placed
  have filled : name ≠ .text "" := fun empty => named (placed.trans (congrArg some empty))
  rw [handled]
  refine openType_accepted guards running unmarked (simpleName_of_unmarked unmarked filled) ?_
  exact fun holder listed container id => Call.opens_fit told type kinds listed

theorem member_accepted (guards : builder.Guards) (running : builder.phase = .parsing)
    {kind : EntityKind} {writes : Declared} (told : call.declares? = some (kind, writes))
    (stands : builder.scopes.head?.any (fun scope => decide (scope.kind ∈ kind.holders)) = true)
    (kinds : call.wellKinded = true) (named : ¬call.Nameless) :
    (builder.handle call).1.isAccepted = true := by
  obtain ⟨what, segment, handled, of_name⟩ := @handle_member _ _ builder call _ _ told
  have fits (holder : EntityKind) (listed : holder ∈ kind.holders) (container id : Identifier)
      (around : Carries container.text holder)
      (strongest : id.strongestQualifier = .ok kind.key) :=
    Call.declares_fit told kinds listed around strongest
  rw [handled]
  rcases of_name with ⟨overload, _, rfl, whole⟩ | ⟨name, placed, rfl⟩
  · obtain ⟨number, rfl⟩ := Value.eq_int (whole kinds)
    exact declare_accepted guards.rules guards.kinded running stands rfl
      (Declaration.overloadName_plain number) fits
  · have unmarked := unmarked_of_placed kinds placed
    have filled : name ≠ .text "" := fun empty => named (placed.trans (congrArg some empty))
    obtain ⟨simple, notices, found, plain⟩ :=
      simpleName_unmarked unmarked (simpleName_of_unmarked unmarked filled)
    exact declare_accepted guards.rules guards.kinded running stands found plain fits

/-! ### What is refused -/

theorem type_refused (running : builder.phase = .parsing) {kind : EntityKind} {writes : Declared}
    (told : call.opens? = some (kind, writes)) (type : kind ≠ .package) (nameless : call.Nameless) :
    (builder.handle call).1.outcome = .error (.refused .emptyName) := by
  obtain ⟨what, name, placed, handled⟩ := @handle_type _ _ builder call _ _ told type
  obtain rfl : name = .text "" := Option.some.inj (placed.symm.trans nameless)
  rw [handled, openType, running]
  rfl

theorem member_refused (running : builder.phase = .parsing) {kind : EntityKind}
    {writes : Declared} (told : call.declares? = some (kind, writes))
    (stands : builder.scopes.head?.any (fun scope => decide (scope.kind ∈ kind.holders)) = true)
    (nameless : call.Nameless) :
    (builder.handle call).1.outcome = .error (.refused .emptyName) := by
  obtain ⟨what, segment, handled, of_name⟩ := @handle_member _ _ builder call _ _ told
  rcases of_name with ⟨_, unnamed, _⟩ | ⟨name, placed, rfl⟩
  · cases unnamed.symm.trans nameless
  obtain rfl : name = .text "" := Option.some.inj (placed.symm.trans nameless)
  rw [handled, declare, running]
  cases open_scope : builder.scopes with
  | nil =>
      rw [open_scope] at stands
      cases stands
  | cons scope outer =>
      rw [open_scope] at stands
      have inside : scope.kind ∈ kind.holders := of_decide_eq_true stands
      dsimp only
      rw [if_neg (not_not.mpr inside)]
      rfl

/-- A member that is accepted stands in a container of a kind that holds it. -/
theorem stands_of_accepted {kind : EntityKind} {writes : Declared}
    (told : call.declares? = some (kind, writes))
    (accepted : (builder.handle call).1.isAccepted = true) :
    builder.phase = .parsing ∧
      builder.scopes.head?.any (fun scope => decide (scope.kind ∈ kind.holders)) = true := by
  obtain ⟨what, segment, handled, _⟩ := @handle_member _ _ builder call _ _ told
  rw [handled, declare] at accepted
  cases running : builder.phase with
  | idle =>
      rw [running] at accepted
      cases accepted
  | parsing =>
      rw [running] at accepted
      cases open_scope : builder.scopes with
      | nil =>
          rw [open_scope] at accepted
          cases accepted
      | cons scope outer =>
          rw [open_scope] at accepted
          dsimp only at accepted
          by_cases inside : scope.kind ∈ kind.holders
          · exact ⟨rfl, decide_eq_true inside⟩
          · rw [if_pos inside] at accepted
            cases accepted

/-- A package that is accepted has a name that can stand where it is given. -/
theorem named_of_accepted {name : Value}
    (accepted : (builder.startPackage name).1.isAccepted = true) :
    ∃ parts, builder.packageName name = .ok parts := by
  unfold startPackage at accepted
  cases running : builder.phase with
  | idle =>
      rw [running] at accepted
      cases accepted
  | parsing =>
      rw [running] at accepted
      cases named : builder.packageName name with
      | error fault =>
          rw [named] at accepted
          cases accepted
      | ok parts => exact ⟨parts, rfl⟩

end Builder

/-! ### Two builders -/

/-- Whether two containers are of the same kind and, if they are packages, of the same name. -/
def Scope.Matches (one other : Scope) : Prop :=
  other.kind = one.kind ∧ (one.kind = .package → other.name = one.name)

/-- Whether two builders stand in containers that match, in the same phase and the same unit. -/
structure Paired {σ : Type} (one other : Builder σ) : Prop where
  phase : other.phase = one.phase
  unit : other.unit = one.unit
  level : other.unitDepth = one.unitDepth
  scopes : List.Forall₂ Scope.Matches one.scopes other.scopes

namespace Paired

variable {σ : Type} {one other next later : Builder σ}

theorem of_standing (same : other.standing = one.standing) : Paired one other := by
  simp only [Builder.standing, Prod.mk.injEq] at same
  obtain ⟨phase, scopes, unit, level⟩ := same
  refine ⟨phase, unit, level, ?_⟩
  rw [scopes]
  exact List.forall₂_same.mpr fun _ _ => ⟨rfl, fun _ => rfl⟩

theorem same (paired : Paired one other) (first : next.standing = one.standing)
    (second : later.standing = other.standing) : Paired next later := by
  simp only [Builder.standing, Prod.mk.injEq] at first second
  obtain ⟨phase, scopes, unit, level⟩ := first
  obtain ⟨later_phase, later_scopes, later_unit, later_level⟩ := second
  refine ⟨?_, ?_, ?_, ?_⟩
  · rw [phase, later_phase, paired.phase]
  · rw [unit, later_unit, paired.unit]
  · rw [level, later_level, paired.level]
  · rw [scopes, later_scopes]
    exact paired.scopes

theorem enter (paired : Paired one other) {scope entered : Scope} (same : scope.Matches entered)
    (first : next.standing = (.parsing, scope :: one.scopes, one.unit, one.unitDepth))
    (second : later.standing = (.parsing, entered :: other.scopes, other.unit, other.unitDepth)) :
    Paired next later := by
  simp only [Builder.standing, Prod.mk.injEq] at first second
  obtain ⟨phase, scopes, unit, level⟩ := first
  obtain ⟨later_phase, later_scopes, later_unit, later_level⟩ := second
  refine ⟨?_, ?_, ?_, ?_⟩
  · rw [phase, later_phase]
  · rw [unit, later_unit, paired.unit]
  · rw [level, later_level, paired.level]
  · rw [scopes, later_scopes]
    exact .cons same paired.scopes

theorem depth (paired : Paired one other) : other.depth = one.depth :=
  paired.scopes.length_eq.symm

theorem head (paired : Paired one other) (kinds : List EntityKind) :
    other.scopes.head?.any (fun scope => decide (scope.kind ∈ kinds)) =
      one.scopes.head?.any fun scope => decide (scope.kind ∈ kinds) := by
  have scopes := paired.scopes
  generalize one.scopes = first, other.scopes = second at scopes
  cases scopes with
  | nil => rfl
  | cons same =>
      simp only [List.head?_cons, Option.any_some]
      rw [same.1]

/-- A package is named alike in containers that match. -/
theorem packageName (paired : Paired one other) {name : Value} {parts : String × List String}
    (named : one.packageName name = .ok parts) : other.packageName name = .ok parts := by
  have scopes := paired.scopes
  unfold Builder.packageName Builder.otherScope? Builder.segmentsInside at *
  generalize one.scopes = first, other.scopes = second at scopes named
  cases scopes with
  | nil => exact named
  | @cons scope entered _ _ same =>
      obtain ⟨kind, called⟩ := same
      by_cases package : scope.kind = .package
      · simpa [Option.filter_some, kind, package, called package] using named
      · simp only [List.head?_cons, Option.filter_some, decide_eq_true package, if_true] at named
        split at named <;> cases named

end Paired

/-- Whether two calls tell the same sort of thing: the same package, a type, a member or an end of
the same kind, or the same documentation. The second one has fields of the kinds the profile speaks
of. -/
inductive Call.Pairs : Call → Call → Prop
  | package {name : String} (unmarked : Dotted.Unmarked name) :
      Pairs (.startPackage (.text name)) (.startPackage (.text name))
  | opens {call other : Call} {kind : EntityKind} {writes others : Declared}
      (told : call.opens? = some (kind, writes)) (again : other.opens? = some (kind, others))
      (type : kind ≠ .package) (kinds : other.wellKinded = true) : Pairs call other
  | declares {call other : Call} {kind : EntityKind} {writes others : Declared}
      (told : call.declares? = some (kind, writes)) (again : other.declares? = some (kind, others))
      (kinds : other.wellKinded = true) : Pairs call other
  | closes {call other : Call} {kind : EntityKind} (told : call.closes? = some kind)
      (again : other.closes? = some kind) : Pairs call other
  | entry (entry : DocEntry) : Pairs (.parsedEntry entry) (.parsedEntry entry)
  | classDoc (entry : DocEntry) (path other : Value) :
      Pairs (.classDoc entry path) (.classDoc entry other)
  | methodDoc (entry : DocEntry) (path other signature : Value) (types : List String) :
      Pairs (.methodDoc entry path signature) (.methodDoc entry other (Value.ofTexts types))

namespace Call.Pairs

variable {σ : Type} [TripleStore σ] {one other : Builder σ} {call again : Call}

/-- Where one builder accepts a call, the other one accepts the call paired with it unless that one
gives an empty name. -/
theorem step (pairs : call.Pairs again) (paired : Paired one other) (guards : other.Guards)
    (accepted : (one.handle call).1.isAccepted = true) :
    (again.Nameless ∧ (other.handle again).1.outcome = .error (.refused .emptyName)) ∨
      (¬again.Nameless ∧ (other.handle again).1.isAccepted = true ∧
        Paired (one.handle call).2 (other.handle again).2) := by
  have noted {call again : Call} (unmarked : call.mark? = none) (unmarked_again : again.mark? = none) :
      Paired (one.handle call).2 (other.handle again).2 :=
    paired.same (Builder.standing_of_unmarked unmarked) (Builder.standing_of_unmarked unmarked_again)
  cases pairs with
  | @package name unmarked =>
      obtain ⟨running, scope, kind, called, stands⟩ := Builder.startPackage_entered accepted
      have named : (other.packageName (.text name)).isOk = true := by
        obtain ⟨parts, named⟩ := Builder.named_of_accepted accepted
        rw [paired.packageName named]
        rfl
      have accepted_again : (other.startPackage (.text name)).1.isAccepted = true :=
        Builder.startPackage_accepted guards (paired.phase.trans running) (decide_eq_true unmarked)
          named
      obtain ⟨_, entered, other_kind, other_called, other_stands⟩ :=
        Builder.startPackage_entered accepted_again
      refine .inr ⟨nofun, accepted_again, paired.enter ⟨?_, fun _ => ?_⟩ stands other_stands⟩
      · rw [kind, other_kind]
      · rw [called, other_called]
  | @opens _ _ kind _ _ told told_again type kinds =>
      obtain ⟨running, scope, same, stands⟩ := Builder.standing_of_opened told accepted
      have running_again := paired.phase.trans running
      -- The builders stand alike, so that only the name can be what is refused.
      by_cases nameless : again.Nameless
      · exact .inl ⟨nameless, Builder.type_refused running_again told_again type nameless⟩
      have accepted_again := Builder.type_accepted guards running_again told_again type kinds nameless
      obtain ⟨_, entered, other_same, other_stands⟩ :=
        Builder.standing_of_opened told_again accepted_again
      refine .inr ⟨nameless, accepted_again, paired.enter ⟨?_, fun package => ?_⟩ stands other_stands⟩
      · rw [same, other_same]
      · exact absurd (same.symm.trans package) type
  | @declares _ _ kind _ _ told told_again kinds =>
      obtain ⟨running, stands⟩ := Builder.stands_of_accepted told accepted
      have running_again := paired.phase.trans running
      have stands_again := (paired.head kind.holders).trans stands
      by_cases nameless : again.Nameless
      · exact .inl ⟨nameless,
          Builder.member_refused running_again told_again stands_again nameless⟩
      · exact .inr ⟨nameless,
          Builder.member_accepted guards running_again told_again stands_again kinds nameless,
          noted (Call.mark_of_declares told) (Call.mark_of_declares told_again)⟩
  | @closes _ _ kind told told_again =>
      obtain ⟨running, scope, outer, open_scope, same, inside⟩ :=
        Builder.closed_of_accepted told accepted
      have closed := Builder.closeScope_inside running open_scope same inside
      have scopes := paired.scopes
      rw [open_scope] at scopes
      -- What is innermost in the one builder is matched by what is innermost in the other.
      cases found : other.scopes with
      | nil =>
          rw [found] at scopes
          cases scopes
      | cons entered others =>
      rw [found] at scopes
      obtain ⟨matching, outside⟩ := List.forall₂_cons.mp scopes
      have closed_again := @Builder.closeScope_inside _ other kind entered others
        (paired.phase.trans running) found (matching.1.trans same) fun some_unit => by
          rw [paired.level, paired.depth]
          exact inside (paired.unit ▸ some_unit)
      refine .inr ⟨?_, ?_, ?_⟩
      · intro nameless
        cases again <;> cases told_again <;> cases nameless
      · rw [Builder.handle_closing told_again, closed_again]
        rfl
      · rw [Builder.handle_closing told, Builder.handle_closing told_again, closed, closed_again]
        exact ⟨paired.phase, paired.unit, paired.level, outside⟩
  | entry => exact .inr ⟨nofun, rfl, noted rfl rfl⟩
  | classDoc => exact .inr ⟨nofun, rfl, noted rfl rfl⟩
  | methodDoc entry path other_path signature types =>
      refine .inr ⟨nofun, ?_, noted rfl rfl⟩
      have texts : ((Value.ofTexts types).items?).any (·.all Value.isText) = true := by
        simp [Value.ofTexts, Value.items?, Value.isText]
      show (other.noteMethodDoc (Value.ofTexts types)).1.isAccepted = true
      rw [Builder.noteMethodDoc, if_pos texts]
      rfl

end Call.Pairs

/-! ### Runs -/

variable {σ : Type} [TripleStore σ]

theorem Builder.Guards.handle {builder : Builder σ} (guards : builder.Guards) (call : Call) :
    (builder.handle call).2.Guards :=
  ⟨(builder.handle_ontology call).trans guards.rules, guards.kinded.handle call⟩

/-- Where one builder passes some calls, the other one passes the calls paired with them up to the
first that gives an empty name. The induction is over the calls; the builders stay paired. -/
theorem pairs_run {calls others : List Call} (pairs : List.Forall₂ Call.Pairs calls others)
    {one other : Builder σ} (paired : Paired one other) (guards : other.Guards)
    (passed : (Handler.handleAll one calls).1 = none) :
    ((∃ again ∈ others, again.Nameless) ∧
        (Handler.handleAll other others).1 = some (.refused .emptyName)) ∨
      ((∀ again ∈ others, ¬again.Nameless) ∧ (Handler.handleAll other others).1 = none ∧
        Paired (Handler.handleAll one calls).2.2 (Handler.handleAll other others).2.2) := by
  induction pairs generalizing one other with
  | nil => exact .inr ⟨nofun, rfl, paired⟩
  | @cons call again calls others here _ ih =>
      have accepted : (one.handle call).1.isAccepted = true :=
        Handler.accepted_of_handleAll passed
      obtain ⟨goes, reaches⟩ := Handler.handleAll_of_accepted calls accepted
      rcases here.step paired guards accepted with ⟨nameless, refused⟩ | ⟨named, accepted_again, next⟩
      · exact .inl ⟨⟨again, List.mem_cons_self, nameless⟩,
          Handler.handleAll_of_refused others refused⟩
      obtain ⟨goes_again, reaches_again⟩ := Handler.handleAll_of_accepted others accepted_again
      rw [reaches, goes_again, reaches_again]
      rcases ih next (guards.handle again) (goes.symm.trans passed) with
        ⟨⟨later, listed, nameless⟩, refused⟩ | ⟨all_named, passes, ends⟩
      · exact .inl ⟨⟨later, List.mem_cons_of_mem again listed, nameless⟩, refused⟩
      · exact .inr ⟨List.forall_mem_cons.mpr ⟨named, all_named⟩, passes, ends⟩

end CodeFacts
