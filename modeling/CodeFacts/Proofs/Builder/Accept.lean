import CodeFacts.Proofs.Builder.Fits
import CodeFacts.Proofs.Builder.Outcome

/-!
Declarations under the rules of the profile. In any state that calls can reach, a declaration whose
fields are of the kinds the profile speaks of is accepted wherever the builder lets it stand.
-/

namespace CodeFacts

def Value.isUnmarked : Value → Bool
  | .text name => decide (Dotted.Unmarked name)
  | _ => false

/-- Whether a call is a declaration with fields of the kinds the profile speaks of: names without
marks, one type for each parameter, and references to what can be extended, implemented or
thrown. -/
def Call.wellKinded : Call → Bool
  | .startPackage name => name.isUnmarked
  | .startClass visibility name _ extended implemented =>
      Visibility.isWordOrMissing visibility && name.isUnmarked &&
        extended.all (·.names .classType) && implemented.all (·.names .interface)
  | .startInterface name extended visibility _ =>
      Visibility.isWordOrMissing visibility && name.isUnmarked &&
        extended.all (·.names .interface)
  | .startEnumeration visibility name elements _ implemented =>
      Visibility.isWordOrMissing visibility && name.isUnmarked && elements.holdsTexts &&
        implemented.all (·.names .interface)
  | .attribute visibility name type _ value =>
      Visibility.isWordOrMissing visibility && name.isUnmarked && type.isPlain &&
        value.isTextOrMissing
  | .constructor visibility overload parameters types _ exceptions =>
      Visibility.isWordOrMissing visibility && overload.isWhole &&
        Declaration.namesEach parameters types && types.all (·.isPlain) &&
        exceptions.all (·.names .classType)
  | .method visibility name parameters types result _ exceptions overload =>
      Visibility.isWordOrMissing visibility && name.isUnmarked && overload.isWhole &&
        Declaration.namesEach parameters types && types.all (·.isPlain) &&
        result.all (·.isPlain) && exceptions.all (·.names .classType)
  | _ => false

theorem Call.kind_of_opens {call : Call} {kind : EntityKind} {writes : Declared}
    (told : call.opens? = some (kind, writes)) :
    kind ∈ EntityKind.package :: EntityKind.types := by
  cases call <;> cases told <;> decide

namespace Builder

variable {σ : Type} [TripleStore σ] {builder : Builder σ}

def Kinded (builder : Builder σ) : Prop :=
  ∀ scope ∈ builder.scopes, scope.kind ∈ EntityKind.package :: EntityKind.types ∧
    scope.identifier.strongestQualifier = .ok scope.kind.key

omit [TripleStore σ] in
theorem kinded_start (model : Model σ) (date : String) : (start model date).Kinded := nofun

theorem Kinded.handle (kinded : builder.Kinded) (call : Call) :
    (builder.handle call).2.Kinded := by
  have outcome := outcome_handle builder call
  generalize builder.handle call = result at outcome
  cases outcome with
  | refuses | ends | beginsUnit | endsUnit | declares | notes => exact kinded
  | begins => exact nofun
  | opens kind writes segments name notices path model unknown told _ some_segment _ pushed =>
      intro scope member
      rcases List.mem_cons.mp member with rfl | outer
      · exact ⟨Call.kind_of_opens told, pushAll_strongest segments pushed some_segment⟩
      · exact kinded scope outer
  | closes kind scope outer _ _ open_scope =>
      intro other member
      exact kinded other (mem_scopes_of_outer open_scope member)

theorem Kinded.after (calls : List Call) {builder : Builder σ} (kinded : builder.Kinded) :
    (Handler.after builder calls).Kinded := by
  induction calls generalizing builder with
  | nil => exact kinded
  | cons call rest ih => exact ih (kinded.handle call)

theorem handle_ontology (builder : Builder σ) (call : Call) :
    (builder.handle call).2.model.ontology = builder.model.ontology := by
  have outcome := outcome_handle builder call
  have kept {writes : List Write} {model : Model σ} {unknown : List String}
      (written : builder.model.writeAll writes = (model, .ok unknown)) :
      model.ontology = builder.model.ontology := by
    have rules := builder.model.writeAll_ontology writes
    rw [written] at rules
    exact rules
  generalize builder.handle call = result at outcome
  cases outcome with
  | refuses _ _ _ _ rules => exact rules
  | begins | beginsUnit | endsUnit | closes | notes => rfl
  | ends _ _ _ _ _ _ written => exact kept written
  | opens _ _ _ _ _ _ _ _ _ _ _ _ _ written => exact kept written
  | declares _ _ _ _ _ _ _ _ _ _ _ _ _ written => exact kept written

theorem after_ontology (builder : Builder σ) (calls : List Call) :
    (Handler.after builder calls).model.ontology = builder.model.ontology := by
  induction calls generalizing builder with
  | nil => rfl
  | cons call rest ih => exact (ih _).trans (handle_ontology builder call)

structure Guards (builder : Builder σ) : Prop where
  rules : builder.model.ontology = .java
  kinded : builder.Kinded

omit [TripleStore σ] in
theorem guards_start {ontology : Ontology} (rules : ontology = .java) (symbols : SymbolTable)
    (store : σ) (date : String) : (start ⟨ontology, symbols, store⟩ date).Guards :=
  ⟨rules, kinded_start _ date⟩

theorem Guards.after (calls : List Call) {builder : Builder σ} (guards : builder.Guards) :
    (Handler.after builder calls).Guards := by
  induction calls generalizing builder with
  | nil => exact guards
  | cons call rest ih =>
      exact ih ⟨(handle_ontology builder call).trans guards.rules, guards.kinded.handle call⟩

omit [TripleStore σ] in
theorem Kinded.container (kinded : builder.Kinded) :
    ∃ holder ∈ EntityKind.package :: EntityKind.types,
      Carries builder.container.text holder := by
  unfold Builder.container
  cases open_scope : builder.scopes with
  | nil => exact ⟨.package, List.mem_cons_self, Identifier.carries rfl⟩
  | cons scope outer =>
      have member := mem_scopes open_scope
      obtain ⟨listed, strongest⟩ := kinded scope member
      exact ⟨scope.kind, listed, Identifier.carries strongest⟩

omit [TripleStore σ] in
/-- What a package is opened in is a package. -/
theorem Kinded.package (kinded : builder.Kinded) {name : Value} {text : String}
    {segments : List String} (named : builder.packageName name = .ok (text, segments)) :
    Carries builder.container.text .package := by
  unfold Builder.container
  cases open_scope : builder.scopes with
  | nil => exact Identifier.carries rfl
  | cons scope outer =>
      have member := mem_scopes open_scope
      by_cases package : scope.kind = .package
      · rw [← package]
        exact Identifier.carries (kinded scope member).2
      · have other : builder.otherScope? = some scope := by
          rw [otherScope?, open_scope, List.head?_cons, Option.filter_some]
          exact if_pos (decide_eq_true package)
        unfold packageName at named
        rw [other] at named
        split at named <;> cases named

/-! Declarations that fit are accepted. -/

theorem write_accepted (rules : builder.model.ontology = .java) {notices : List Notice}
    {writes : List Write} {after : Builder σ → Builder σ} (fits : ∀ first ∈ writes, first.Fits) :
    (builder.write notices writes after).1.isAccepted = true := by
  obtain ⟨unknown, accepted⟩ := Model.writeAll_fits rules fits
  unfold write
  generalize builder.model.writeAll writes = written at accepted
  obtain ⟨model, outcome⟩ := written
  obtain rfl : outcome = .ok unknown := accepted
  rfl

theorem openScope_accepted (rules : builder.model.ontology = .java) {notices : List Notice}
    {kind : EntityKind} {segments : List String} {name : String}
    {writes : Identifier → List Write} (some_segment : segments ≠ [])
    (plain : segments.all Builder.plain = true)
    (fits : ∀ id, Carries id.text kind → ∀ first ∈ writes id, first.Fits) :
    (builder.openScope notices kind segments name writes).1.isAccepted = true := by
  obtain ⟨more, fault, pushed, _, complete⟩ := pushAll_eq kind segments builder.path
  obtain rfl := complete.mpr plain
  have strongest := pushAll_strongest segments pushed some_segment
  unfold openScope
  rw [pushed]
  exact write_accepted rules (fits _ (Identifier.carries strongest))

theorem declare_accepted (rules : builder.model.ontology = .java) (kinded : builder.Kinded)
    (running : builder.phase = .parsing) {kind : EntityKind} {what : String}
    {kinds : List EntityKind} {named : Except Fault (String × List Notice)} {declared : Declared}
    (stands : builder.scopes.head?.any (fun scope => decide (scope.kind ∈ kinds)) = true)
    {simple : String} {notices : List Notice} (name : named = .ok (simple, notices))
    (plain : reservedMark? simple = none)
    (fits : ∀ holder ∈ kinds, ∀ container id, Carries container.text holder →
      id.strongestQualifier = .ok kind.key → ∀ first ∈ declared container id, first.Fits) :
    (builder.declare kind what kinds named declared).1.isAccepted = true := by
  unfold declare
  cases open_scope : builder.scopes with
  | nil =>
      rw [open_scope] at stands
      cases stands
  | cons scope outer =>
      rw [open_scope] at stands
      have inside : scope.kind ∈ kinds := of_decide_eq_true stands
      have member := mem_scopes open_scope
      have around := Identifier.carries (kinded scope member).2
      obtain ⟨id, child, strongest⟩ := scope.identifier.child_plain kind plain
      rw [running, name]
      dsimp only
      rw [if_neg (not_not.mpr inside), child]
      exact write_accepted rules (fits scope.kind inside scope.identifier id around strongest)

/-! A named declaration, with what its name is made of. -/

omit [TripleStore σ] in
theorem simpleName_unmarked {name : Value} (unmarked : name.isUnmarked = true)
    (named : (builder.simpleName name).isOk = true) :
    ∃ simple notices, builder.simpleName name = .ok (simple, notices) ∧
      reservedMark? simple = none := by
  cases name with
  | text name =>
      have unmarked : Dotted.Unmarked name := of_decide_eq_true unmarked
      by_cases empty : name = ""
      · subst empty
        cases named
      · refine ⟨Dotted.simple name, builder.discrepancies name, ?_, unmarked.simple_plain⟩
        show (if name = "" then _ else _) = _
        rw [if_neg empty]
        rfl
  | _ => cases unmarked

theorem openType_accepted (guards : builder.Guards) (running : builder.phase = .parsing)
    {kind : EntityKind} {what : String} {name : Value} {declared : Declared}
    (unmarked : name.isUnmarked = true) (named : (builder.simpleName name).isOk = true)
    (fits : ∀ holder ∈ EntityKind.package :: EntityKind.types, ∀ container id,
      Carries container.text holder → Carries id.text kind →
        ∀ first ∈ declared container id, first.Fits) :
    (builder.openType kind what name declared).1.isAccepted = true := by
  obtain ⟨simple, notices, found, plain⟩ := simpleName_unmarked unmarked named
  obtain ⟨holder, listed, around⟩ := guards.kinded.container
  unfold openType
  rw [running, found]
  refine openScope_accepted guards.rules (List.cons_ne_nil _ _) ?_ ?_
  · simp [Builder.plain, plain]
  · exact fun id carries => fits holder listed builder.container id around carries

theorem startPackage_accepted (guards : builder.Guards) (running : builder.phase = .parsing)
    {name : Value} (unmarked : name.isUnmarked = true)
    (named : (builder.packageName name).isOk = true) :
    (builder.startPackage name).1.isAccepted = true := by
  unfold startPackage
  rw [running]
  cases found : builder.packageName name with
  | error fault =>
      rw [found] at named
      cases named
  | ok parts =>
      obtain ⟨text, segments⟩ := parts
      obtain ⟨given, rfl⟩ := packageName_text found
      have plain := segments_unmarked (of_decide_eq_true unmarked) found
      have around := guards.kinded.package found
      refine openScope_accepted guards.rules (segments_ne_nil found).1 plain ?_
      exact fun id carries => Declaration.packageWrites_fit around carries

end Builder

end CodeFacts
