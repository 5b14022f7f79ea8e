import CodeFacts.Proofs.Builder.Mirror
import CodeFacts.Proofs.Builder.Writes

/-!
What a call can come to, said once. A call is refused, or it does the one thing it is for: it begins
or ends a run or a unit, opens or closes a container, declares a member, or notes something.
-/

namespace CodeFacts

/-- The additions of a declaration, once its container and its identifier are known. -/
abbrev Declared := (container id : Identifier) → List Write

namespace Call

/-- The kind of container a call opens, with its additions. -/
def opens? : Call → Option (EntityKind × Declared)
  | .startPackage _ => some (.package, Declaration.packageWrites)
  | .startClass visibility _ modifiers extended implemented =>
      some (.classType, Declaration.classWrites visibility modifiers extended implemented)
  | .startInterface _ extended visibility modifiers =>
      some (.interface, Declaration.interfaceWrites visibility modifiers extended)
  | .startEnumeration visibility _ elements modifiers implemented =>
      some (.enumeration,
        Declaration.enumerationWrites visibility modifiers elements implemented)
  | _ => none

/-- The kind of container a call opens, with the name given for it. -/
def opening? : Call → Option (EntityKind × Value)
  | .startPackage name => some (.package, name)
  | .startClass _ name _ _ _ => some (.classType, name)
  | .startInterface name _ _ _ => some (.interface, name)
  | .startEnumeration _ name _ _ _ => some (.enumeration, name)
  | _ => none

def closes? : Call → Option EntityKind
  | .endPackage => some .package
  | .endClass => some .classType
  | .endInterface => some .interface
  | .endEnumeration => some .enumeration
  | _ => none

def declares? : Call → Option (EntityKind × Declared)
  | .attribute visibility _ type modifiers value =>
      some (.attribute, Declaration.attributeWrites visibility modifiers type value)
  | .constructor visibility overload parameters types modifiers exceptions =>
      some (.constructor, Declaration.executableWrites .constructor visibility modifiers overload
        parameters types none exceptions)
  | .method visibility _ parameters types result modifiers exceptions overload =>
      some (.method, Declaration.executableWrites .method visibility modifiers overload parameters
        types result exceptions)
  | _ => none

/-- The kind of member a call declares, with its simple name. -/
def declaring? : Call → Option (EntityKind × String)
  | .attribute _ (.text name) _ _ _ => some (.attribute, Dotted.simple name)
  | .constructor _ overload _ _ _ _ => some (.constructor, Declaration.overloadName overload)
  | .method _ (.text name) _ _ _ _ _ _ => some (.method, Dotted.simple name)
  | _ => none

def isNote : Call → Bool
  | .parseError _ _ | .parsedEntry _ | .classDoc _ _ | .methodDoc _ _ _ => true
  | _ => false

end Call

namespace Builder

variable {σ : Type} [TripleStore σ]

/-- What a call can come to: its reply, and the builder after it. -/
inductive Outcome (builder : Builder σ) (call : Call) : Reply × Builder σ → Prop
  | refuses (fault : Fault) (notices : List Notice) (path : Identifier) (model : Model σ)
      (rules : model.ontology = builder.model.ontology) :
      Outcome builder call (.refused fault notices, { builder with path, model })
  | begins (library location : Value) (name place : String)
      (told : call = .startParsing library location) (idle : builder.phase = .idle)
      (new : builder.newLibrary library location = .ok (name, place)) :
      Outcome builder call
        (.accepted [],
          { builder with
            phase := .parsing
            library := some name
            location := some place
            unit := none
            unresolved := []
            errors := []
            path := { builder.path with fragments := [] }
            scopes := [] })
  | ends (model : Model σ) (unknown : List String) (told : call = .endParsing)
      (running : builder.phase = .parsing) (no_unit : builder.unit = none)
      (no_scope : builder.scopes = [])
      (written : builder.model.writeAll
        (Declaration.libraryWrites (builder.library.getD "") (builder.location.getD "")
          builder.date) = (model, .ok unknown)) :
      Outcome builder call
        (.accepted (unknown.map .unresolvedType),
          { builder with
            model
            unresolved := unknown.foldl note builder.unresolved
            phase := .idle })
  | beginsUnit (name : Value) (told : call = .startUnit name)
      (running : builder.phase = .parsing) (no_unit : builder.unit = none) :
      Outcome builder call
        (.accepted [], { builder with unit := unitName? name, unitDepth := builder.depth })
  | endsUnit (unit : Value) (told : call = .endUnit) (running : builder.phase = .parsing)
      (open_unit : builder.unit = some unit) (level : builder.depth = builder.unitDepth) :
      Outcome builder call (.accepted [], { builder with unit := none })
  | opens (kind : EntityKind) (writes : Declared) (segments : List String) (name : String)
      (notices : List Notice) (path : Identifier) (model : Model σ) (unknown : List String)
      (told : call.opens? = some (kind, writes)) (running : builder.phase = .parsing)
      (some_segment : segments ≠ []) (named : name = builder.nameOf segments)
      (pushed : pushAll kind builder.path segments = (path, none))
      (written : builder.model.writeAll (writes builder.container path) = (model, .ok unknown))
      (single : kind ≠ .package → ∃ segment, segments = [segment])
      (nested : kind = .package → builder.otherScope? = none)
      (given : ∃ text, call.opening? = some (kind, .text text) ∧
        ∀ segment ∈ segments, segment ∈ Dotted.segments text)
      (silent : ∀ name, Notice.unresolvedType name ∉ notices) :
      Outcome builder call
        (.accepted (notices ++ unknown.map .unresolvedType),
          { builder with
            model
            unresolved := unknown.foldl note builder.unresolved
            path
            scopes := ⟨kind, path, segments.length, name⟩ :: builder.scopes })
  | closes (kind : EntityKind) (scope : Scope) (outer : List Scope)
      (told : call.closes? = some kind) (running : builder.phase = .parsing)
      (open_scope : builder.scopes = scope :: outer) (same : scope.kind = kind)
      (inside : builder.unit.isSome = true → builder.unitDepth < builder.depth) :
      Outcome builder call
        (.accepted [],
          { builder with path := builder.path.ancestor scope.pushed, scopes := outer })
  | declares (kind : EntityKind) (writes : Declared) (scope : Scope) (outer : List Scope)
      (name : String) (id : Identifier) (notices : List Notice) (model : Model σ)
      (unknown : List String) (told : call.declares? = some (kind, writes))
      (running : builder.phase = .parsing) (open_scope : builder.scopes = scope :: outer)
      (child : scope.identifier.child name kind.key = .ok id)
      (written : builder.model.writeAll (writes scope.identifier id) = (model, .ok unknown))
      (given : call.declaring? = some (kind, name))
      (silent : ∀ name, Notice.unresolvedType name ∉ notices) :
      Outcome builder call
        (.accepted (notices ++ unknown.map .unresolvedType),
          { builder with model, unresolved := unknown.foldl note builder.unresolved })
  | notes (notices : List Notice) (errors : List String) (told : call.isNote = true)
      (silent : ∀ name, Notice.unresolvedType name ∉ notices) :
      Outcome builder call (.accepted notices, { builder with errors })

variable {builder : Builder σ} {call : Call}

omit [TripleStore σ] in
theorem mem_scopes {scope : Scope} {outer : List Scope}
    (open_scope : builder.scopes = scope :: outer) : scope ∈ builder.scopes := by
  rw [open_scope]
  exact List.mem_cons_self

omit [TripleStore σ] in
theorem mem_scopes_of_outer {scope other : Scope} {outer : List Scope}
    (open_scope : builder.scopes = scope :: outer) (member : other ∈ outer) :
    other ∈ builder.scopes := by
  rw [open_scope]
  exact List.mem_cons_of_mem scope member

omit [TripleStore σ] in
theorem simpleName_ok {name : Value} {simple : String} {notices : List Notice}
    (named : builder.simpleName name = .ok (simple, notices)) :
    ∃ text, name = .text text ∧ simple = Dotted.simple text := by
  simp only [simpleName, Steps.bind_ok_iff] at named
  obtain ⟨text, given, named⟩ := named
  by_cases empty : text = ""
  · rw [if_pos empty] at named
    cases named
  · rw [if_neg empty] at named
    cases named
    refine ⟨text, ?_, rfl⟩
    cases name with
    | text => exact congrArg Value.text (Except.ok.inj given)
    | _ =>
        -- What is no text stands for the empty name or for none.
        simp only [nameText] at given
        split at given
        · exact absurd (Except.ok.inj given).symm empty
        · cases given

omit [TripleStore σ] in
theorem packageName_ok {name : Value} {text : String} {segments : List String}
    (named : builder.packageName name = .ok (text, segments)) :
    builder.otherScope? = none ∧ ∃ given, name = .text given ∧
      ∀ segment ∈ segments, segment ∈ Dotted.segments given := by
  obtain ⟨given, rfl⟩ := packageName_text named
  unfold packageName at named
  split at named
  · cases named
  · split at named
    · cases named
    · rename_i none_other
      simp only [Steps.bind_ok_iff, Steps.pure_ok_iff, segmentsInside] at named
      obtain ⟨_, same, inner, found, pair⟩ := named
      cases same
      cases pair
      refine ⟨none_other, _, rfl, ?_⟩
      split at found
      · cases found
        exact fun _ member => member
      · split at found
        · rename_i rest inside
          cases found
          intro segment member
          rw [Dotted.eq_of_inside? inside, Dotted.segments_within]
          exact List.mem_append_right _ member
        · cases found

theorem outcome_refuse (fault : Fault) (notices : List Notice) :
    builder.Outcome call (builder.refuse fault notices) :=
  .refuses fault notices builder.path builder.model rfl

theorem outcome_openScope {notices : List Notice} {kind : EntityKind} {segments : List String}
    {name : String} {writes : Declared} (told : call.opens? = some (kind, writes))
    (running : builder.phase = .parsing) (some_segment : segments ≠ [])
    (named : name = builder.nameOf segments)
    (single : kind ≠ .package → ∃ segment, segments = [segment])
    (nested : kind = .package → builder.otherScope? = none)
    (given : ∃ text, call.opening? = some (kind, .text text) ∧
      ∀ segment ∈ segments, segment ∈ Dotted.segments text)
    (silent : ∀ name, Notice.unresolvedType name ∉ notices) :
    builder.Outcome call
      (builder.openScope notices kind segments name (writes builder.container)) := by
  unfold openScope
  cases pushed : pushAll kind builder.path segments with
  | mk path outcome =>
      cases outcome with
      | some fault => exact .refuses fault notices path builder.model rfl
      | none =>
          dsimp only
          unfold write
          have rules := builder.model.writeAll_ontology (writes builder.container path)
          cases written : builder.model.writeAll (writes builder.container path) with
          | mk model outcome =>
              rw [written] at rules
              cases outcome with
              | error fault => exact .refuses fault notices builder.path model rules
              | ok unknown =>
                  exact .opens kind writes segments name notices path model unknown told running
                    some_segment named pushed written single nested given silent

theorem outcome_openType {kind : EntityKind} {what : String} {name : Value} {writes : Declared}
    (told : call.opens? = some (kind, writes)) (given : call.opening? = some (kind, name))
    (type : kind ≠ .package) : builder.Outcome call (builder.openType kind what name writes) := by
  unfold openType
  cases running : builder.phase with
  | idle => exact outcome_refuse _ _
  | parsing =>
      cases found : builder.simpleName name with
      | error fault => exact outcome_refuse _ _
      | ok pair =>
          obtain ⟨simple, notices⟩ := pair
          obtain ⟨text, rfl, rfl⟩ := simpleName_ok found
          refine outcome_openScope told running (List.cons_ne_nil _ _)
            (builder.scopedName_eq_nameOf _) (fun _ => ⟨_, rfl⟩)
            (fun package => absurd package type) ⟨text, given, ?_⟩ (simpleName_silent found)
          intro segment member
          rw [List.mem_singleton.mp member]
          exact Dotted.simple_mem_segments text

theorem outcome_closeScope {kind : EntityKind} (told : call.closes? = some kind) :
    builder.Outcome call (builder.closeScope kind) := by
  unfold closeScope
  split
  · exact outcome_refuse _ _
  · exact outcome_refuse _ _
  · rename_i scope outer running open_scope
    dsimp only
    by_cases other : scope.kind ≠ kind
    · rw [if_pos other]
      exact outcome_refuse _ _
    · rw [if_neg other]
      have same : scope.kind = kind := not_not.mp other
      split
      · rename_i no_unit
        have inside : builder.unit.isSome = true → builder.unitDepth < builder.depth := by
          simp [no_unit]
        exact .closes kind scope outer told running open_scope same inside
      · by_cases outside : builder.depth ≤ builder.unitDepth
        · rw [if_pos outside]
          exact outcome_refuse _ _
        · rw [if_neg outside]
          exact .closes kind scope outer told running open_scope same fun _ => by omega

theorem outcome_declare {kind : EntityKind} {what : String} {kinds : List EntityKind}
    {named : Except Fault (String × List Notice)} {writes : Declared}
    (told : call.declares? = some (kind, writes))
    (given : ∀ name notices, named = .ok (name, notices) →
      call.declaring? = some (kind, name) ∧ ∀ name, Notice.unresolvedType name ∉ notices) :
    builder.Outcome call (builder.declare kind what kinds named writes) := by
  unfold declare
  cases running : builder.phase with
  | idle => exact outcome_refuse _ _
  | parsing =>
      cases open_scope : builder.scopes with
      | nil => exact outcome_refuse _ _
      | cons scope outer =>
          dsimp only
          by_cases outside : scope.kind ∉ kinds
          · rw [if_pos outside]
            exact outcome_refuse _ _
          · rw [if_neg outside]
            cases named with
            | error fault => exact outcome_refuse _ _
            | ok found =>
                obtain ⟨name, notices⟩ := found
                obtain ⟨given, silent⟩ := given name notices rfl
                dsimp only
                cases child : scope.identifier.child name kind.key with
                | error fault => exact outcome_refuse _ _
                | ok id =>
                    dsimp only
                    unfold write
                    have rules := builder.model.writeAll_ontology (writes scope.identifier id)
                    cases written : builder.model.writeAll (writes scope.identifier id) with
                    | mk model outcome =>
                        rw [written] at rules
                        cases outcome with
                        | error fault => exact .refuses fault notices builder.path model rules
                        | ok unknown =>
                            exact .declares kind writes scope outer name id notices model unknown
                              told running open_scope child written given silent

theorem outcome_startPackage (name : Value) :
    builder.Outcome (.startPackage name) (builder.startPackage name) := by
  unfold startPackage
  cases running : builder.phase with
  | idle => exact outcome_refuse _ _
  | parsing =>
      cases named : builder.packageName name with
      | error fault => exact outcome_refuse _ _
      | ok found =>
          obtain ⟨text, segments⟩ := found
          obtain ⟨some_segment, same⟩ := segments_ne_nil named
          obtain ⟨nested, given, rfl, within⟩ := packageName_ok named
          exact outcome_openScope rfl running some_segment same (fun other => absurd rfl other)
            (fun _ => nested) ⟨given, rfl, within⟩ fun _ => List.not_mem_nil

theorem outcome_endParsing : builder.Outcome .endParsing builder.endParsing := by
  unfold endParsing
  cases running : builder.phase with
  | idle => exact outcome_refuse _ _
  | parsing =>
      cases no_unit : builder.unit with
      | some unit => exact outcome_refuse _ _
      | none =>
          cases no_scope : builder.scopes with
          | cons scope outer => exact outcome_refuse _ _
          | nil =>
              dsimp only
              unfold write
              have rules := builder.model.writeAll_ontology
                (Declaration.libraryWrites (builder.library.getD "")
                  (builder.location.getD "") builder.date)
              cases written : builder.model.writeAll
                  (Declaration.libraryWrites (builder.library.getD "")
                    (builder.location.getD "") builder.date) with
              | mk model outcome =>
                  rw [written] at rules
                  cases outcome with
                  | error fault => exact .refuses fault [] builder.path model rules
                  | ok unknown =>
                      exact .ends model unknown rfl running no_unit no_scope written

theorem outcome_handle (builder : Builder σ) (call : Call) :
    builder.Outcome call (builder.handle call) := by
  cases call with
  | startParsing library location =>
      simp only [handle, startParsing]
      cases idle : builder.phase with
      | parsing => exact outcome_refuse _ _
      | idle =>
          cases new : builder.newLibrary library location with
          | error fault => exact outcome_refuse _ _
          | ok named => exact .begins library location named.1 named.2 rfl idle new
  | endParsing => exact outcome_endParsing
  | startUnit name =>
      simp only [handle, startUnit]
      split
      · exact outcome_refuse _ _
      · exact outcome_refuse _ _
      · rename_i running no_unit
        exact .beginsUnit name rfl running no_unit
  | endUnit =>
      simp only [handle, endUnit]
      split
      · exact outcome_refuse _ _
      · exact outcome_refuse _ _
      · rename_i unit running open_unit
        by_cases level : builder.depth = builder.unitDepth
        · rw [if_neg (not_not.mpr level)]
          exact .endsUnit unit rfl running open_unit level
        · rw [if_pos level]
          exact outcome_refuse _ _
  | startPackage name => exact outcome_startPackage name
  | endPackage => exact outcome_closeScope rfl
  | startClass => exact outcome_openType rfl rfl (by decide)
  | endClass => exact outcome_closeScope rfl
  | startInterface => exact outcome_openType rfl rfl (by decide)
  | endInterface => exact outcome_closeScope rfl
  | startEnumeration => exact outcome_openType rfl rfl (by decide)
  | endEnumeration => exact outcome_closeScope rfl
  | «attribute» =>
      refine outcome_declare rfl fun _ _ named => ⟨?_, simpleName_silent named⟩
      obtain ⟨text, rfl, rfl⟩ := simpleName_ok named
      rfl
  | constructor visibility overload =>
      show builder.Outcome _ (builder.declare .constructor "constructor" constructible
        (.ok (Declaration.overloadName overload, [])) _)
      refine outcome_declare rfl fun _ _ named => ?_
      cases named
      exact ⟨rfl, fun _ => List.not_mem_nil⟩
  | method =>
      refine outcome_declare rfl fun _ _ named => ⟨?_, simpleName_silent named⟩
      obtain ⟨text, rfl, rfl⟩ := simpleName_ok named
      rfl
  | parseError => exact .notes _ _ rfl fun _ => by simp
  | parsedEntry => exact .notes _ _ rfl fun _ => List.not_mem_nil
  | classDoc => exact .notes _ _ rfl fun _ => List.not_mem_nil
  | methodDoc entry path signature =>
      simp only [handle, noteMethodDoc]
      by_cases texts : (signature.items?).any (·.all Value.isText) = true
      · rw [if_pos texts]
        exact .notes _ _ rfl fun _ => List.not_mem_nil
      · rw [if_neg texts]
        exact outcome_refuse _ _

theorem date_handle (builder : Builder σ) (call : Call) :
    (builder.handle call).2.date = builder.date := by
  have outcome := outcome_handle builder call
  generalize builder.handle call = result at outcome
  cases outcome <;> rfl

theorem date_after (calls : List Call) (builder : Builder σ) :
    (Handler.after builder calls).date = builder.date := by
  induction calls generalizing builder with
  | nil => rfl
  | cons call rest ih => exact (ih (builder.handle call).2).trans (date_handle builder call)

end Builder

end CodeFacts
