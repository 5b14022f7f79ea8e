import CodeFacts.Proofs.Builder.Brackets
import CodeFacts.Proofs.Grammar

/-!
What a builder can reply. A declaration is never refused for a lack of balance, and what it tells is
that names are unknown or that its own name does not fit where it stands.
-/

namespace CodeFacts

/-- Whether a fault is none of a lack of balance. -/
def Fault.Balanced (fault : Fault) : Prop := ∀ cause, fault ≠ .scope cause

theorem Fault.balanced_of_addition {fault : Fault} (found : Ontology.OfAddition fault) :
    fault.Balanced := by
  rintro cause rfl
  exact found

/-! ### Why additions are refused -/

namespace Identifier

theorem OfPath.balanced {whole : String} {fault : Fault} (found : OfPath whole fault) :
    fault.Balanced := by
  rcases found with rfl | ⟨problems, rfl⟩
  · rintro _ ⟨⟩
  · rintro _ ⟨⟩

theorem make_only (name qualifier : String) :
    Steps.Only Fault.Balanced (Fragment.make name qualifier) :=
  (make_ofPath "" name qualifier).mono fun _ found => found.balanced

theorem child_only (id : Identifier) (name qualifier : String) :
    Steps.Only Fault.Balanced (id.child name qualifier) :=
  (make_only name qualifier).map _

theorem childOfValues_only (id : Identifier) (name qualifier : Value) :
    Steps.Only Fault.Balanced (id.childOfValues name qualifier) := by
  unfold childOfValues Fragment.ofValues
  refine Steps.Only.map ?_ _
  split
  · exact make_only _ _
  · exact Steps.only_error (by rintro _ ⟨⟩)

theorem ofTypeName_only (name qualifier : String) :
    Steps.Only Fault.Balanced (ofTypeName name qualifier) := by
  unfold ofTypeName packagesOf
  refine Steps.Only.bind ?_ fun _ => (make_only _ _).bind fun _ => Steps.only_ok _
  dsimp only
  split
  · exact Steps.only_ok _
  · exact Steps.only_mapM _ fun segment => make_only segment _

theorem read_only (text : String) : Steps.Only Fault.Balanced (read text) :=
  (read_ofPath text).mono fun _ found => found.balanced

end Identifier

theorem TypeRef.text_only (type : TypeRef) : Steps.Only Fault.Balanced type.text := by
  induction type with
  | primitive name => exact Steps.only_ok _
  | named kind name enclosing =>
      cases enclosing with
      | none => exact (Identifier.ofTypeName_only _ _).bind fun _ => Steps.only_ok _
      | some enclosing =>
          refine (Identifier.read_only enclosing).bind fun outer => ?_
          exact (outer.child_only _ _).bind fun _ => Steps.only_ok _
  | array element dimensions ih => exact ih.bind fun _ => Steps.only_ok _

namespace Model

variable {σ : Type} [TripleStore σ] (model : Model σ)

omit [TripleStore σ] in
theorem candidate_only (enclosing : Option Identifier) (name : String) (kind : EntityKind) :
    Steps.Only Fault.Balanced (candidate enclosing name kind) := by
  cases enclosing with
  | some outer => exact outer.child_only _ _
  | none => exact Identifier.ofTypeName_only _ _

theorem declaredAs_only (enclosing : Option Identifier) (name : String)
    (kinds : List EntityKind) :
    Steps.Only Fault.Balanced (model.declaredAs enclosing name kinds) := by
  induction kinds with
  | nil => exact Steps.only_ok _
  | cons kind rest ih =>
      refine (candidate_only enclosing name kind).bind fun id => ?_
      split
      · exact Steps.only_ok _
      · exact ih

theorem declaredBySegments_only (segments : List String) :
    Steps.Only Fault.Balanced (model.declaredBySegments segments) := by
  induction segments with
  | nil => exact Steps.only_ok _
  | cons simple outer ih =>
      rw [declaredBySegments]
      split
      all_goals
        refine Steps.Only.bind ?_ fun enclosing =>
          (model.declaredAs_only enclosing _ _).bind fun found => ?_
      case isTrue.refine_1 => exact Steps.only_ok _
      case isFalse.refine_1 => exact ih
      all_goals
        cases found with
        | some id => exact Steps.only_ok _
        | none =>
            dsimp only
            split
            · exact (candidate_only _ _ _).map _
            · exact Steps.only_ok _

theorem bind_only (type : TypeRef) : Steps.Only Fault.Balanced (model.bind type) := by
  induction type with
  | primitive name => exact Steps.only_ok _
  | named kind name enclosing =>
      cases enclosing with
      | some enclosing => exact Steps.only_ok _
      | none =>
          refine Steps.Only.bind ?_ fun _ => Steps.only_ok _
          unfold enclosingType
          dsimp only
          split
          · exact Steps.only_ok _
          · exact model.declaredBySegments_only _
  | array element dimensions ih => exact ih.bind fun _ => Steps.only_ok _

theorem resolve_only (type : TypeRef) : Steps.Only Fault.Balanced (model.resolve type) := by
  refine (model.bind_only type).bind fun bound => ?_
  refine Steps.Only.bind ?_ fun _ => bound.text_only.bind fun _ => Steps.only_ok _
  unfold isResolved
  split
  · exact Steps.only_ok _
  · split
    · exact Steps.only_ok _
    · exact (model.declaredBySegments_only _).bind fun _ => Steps.only_ok _

end Model

namespace Draft

variable {σ : Type} [TripleStore σ] (draft : Draft σ)

theorem addElements_only (subject : String) (predicate : Predicate) (values : List Value) :
    Steps.Only Ontology.OfAddition (draft.addElements subject predicate values) := by
  have stored := (Store.edit_only draft.model.store
    (.addCollection (.text subject) (.text predicate.uri) (.list values))).mono
      fun _ => Ontology.ofAddition_of_terms
  have guarded : Steps.Only Ontology.OfAddition
      (draft.model.ontology.addCollection draft.model.store (.text subject) (.text predicate.uri)
        (.list values)) := by
    refine Steps.Only.bind ?_ fun _ => stored
    exact Ontology.judged_only draft.model.ontology subject predicate.uri (.list values)
      fun subject predicate =>
        draft.model.ontology.validateCollection subject predicate values.length
  exact guarded.bind fun _ => Steps.only_ok _

/-- An addition is refused for want of balance only if that is what it is there to refuse. -/
theorem write_only {first : Write}
    (refuses : ∀ fault, first = .refuse fault → fault.Balanced) :
    Steps.Only Fault.Balanced (draft.write first) := by
  have additions {next : Except Fault (Draft σ)} (only : Steps.Only Ontology.OfAddition next) :
      Steps.Only Fault.Balanced next := only.mono fun _ => Fault.balanced_of_addition
  have resolved (type : TypeRef) : Steps.Only Fault.Balanced (draft.resolve type) :=
    (draft.model.resolve_only type).bind fun _ => Steps.only_ok _
  cases first with
  | resource subject predicate object => exact additions (draft.addResource_only _ _ _)
  | literal subject predicate value => exact additions (draft.addLiteral_only _ _ _)
  | elements subject predicate values => exact additions (draft.addElements_only _ _ _)
  | resourceType subject predicate type =>
      exact (resolved type).bind fun next => additions (next.2.addResource_only _ _ _)
  | literalType subject predicate type =>
      exact (resolved type).bind fun next => additions (next.2.addLiteral_only _ _ _)
  | refuse fault => exact Steps.only_error (refuses fault rfl)

end Draft

namespace Declaration

/-- Whether some additions refuse nothing for want of balance. -/
def Balanced (writes : List Write) : Prop := ∀ fault, .refuse fault ∈ writes → fault.Balanced

theorem balanced_append {first second : List Write} (one : Balanced first)
    (other : Balanced second) : Balanced (first ++ second) := by
  intro fault listed
  rcases List.mem_append.mp listed with member | member
  · exact one fault member
  · exact other fault member

theorem balanced_of_none {writes : List Write} (none : ∀ fault, .refuse fault ∉ writes) :
    Balanced writes :=
  fun fault listed => absurd listed (none fault)

theorem balanced_refuse {fault : Fault} (balanced : fault.Balanced) :
    Balanced [.refuse fault] := by
  intro other listed
  cases List.mem_singleton.mp listed
  exact balanced

theorem references_balanced (subject : String) (predicate : Predicate) (types : List TypeRef) :
    Balanced (types.map (.resourceType subject predicate)) :=
  balanced_of_none fun _ => by simp

theorem headWrites_balanced (id : String) (kind : EntityKind) (visibility : Value)
    (modifiers : List Nat) : Balanced (headWrites id kind visibility modifiers) := by
  refine balanced_append (balanced_of_none fun _ => by simp [kindWrites]) ?_
  unfold visibilityWrites
  split
  · exact balanced_of_none fun _ => List.not_mem_nil
  · cases given : Visibility.ofValue visibility with
    | ok word => exact balanced_of_none fun _ => by simp
    | error fault =>
        refine balanced_refuse ?_
        unfold Visibility.ofValue at given
        split at given
        · cases given
        · cases given
          rintro _ ⟨⟩

theorem containment_balanced (container : Identifier) (kind : EntityKind) (id : String) :
    Balanced [containment container kind id] :=
  balanced_of_none fun _ => by simp [containment]

theorem parameterWrites_balanced (signature : Identifier) (place : Nat) (name : Value)
    (type : TypeRef) : Balanced (parameterWrites signature place name type) := by
  unfold parameterWrites
  have only := signature.childOfValues_only name (.text EntityKind.parameter.key)
  cases given : signature.childOfValues name (.text EntityKind.parameter.key) with
  | error fault => exact balanced_refuse (only fault given)
  | ok id => exact balanced_of_none fun _ => by simp [kindWrites, containment]

theorem parametersWrites_balanced (signature : Identifier) (index : Nat) (names : List Value)
    (types : List TypeRef) : Balanced (parametersWrites signature index names types) := by
  intro fault listed
  obtain ⟨name, _, type, _, place, _, written⟩ := of_mem_parametersWrites listed
  exact parameterWrites_balanced signature place name type fault written

theorem executableWrites_balanced (kind : EntityKind) (visibility : Value) (modifiers : List Nat)
    (overload parameters : Value) (types : List TypeRef) (result : Option TypeRef)
    (exceptions : List TypeRef) (container id : Identifier) :
    Balanced (executableWrites kind visibility modifiers overload parameters types result
      exceptions container id) := by
  refine balanced_append (balanced_append (headWrites_balanced _ _ _ _) ?_)
    (containment_balanced _ _ _)
  have only := id.child_only (overloadName overload) EntityKind.signature.key
  cases given : id.child (overloadName overload) EntityKind.signature.key with
  | error fault => exact balanced_refuse (only fault given)
  | ok signature =>
      dsimp only
      unfold signatureWrites
      split
      · exact balanced_refuse (by rintro _ ⟨⟩)
      · split
        · exact balanced_refuse (by rintro _ ⟨⟩)
        · refine balanced_append (balanced_append (balanced_append (balanced_append ?_ ?_) ?_) ?_)
            (containment_balanced _ _ _)
          · exact balanced_of_none fun _ => by simp [kindWrites]
          · exact parametersWrites_balanced _ _ _ _
          · exact balanced_of_none fun _ => by simp
          · exact references_balanced _ _ _

end Declaration

theorem Call.opens_balanced {call : Call} {kind : EntityKind} {writes : Declared}
    (told : call.opens? = some (kind, writes)) (container id : Identifier) :
    Declaration.Balanced (writes container id) := by
  have head := Declaration.headWrites_balanced
  have held := Declaration.containment_balanced container
  have references := Declaration.references_balanced
  cases call <;> cases told
  case startPackage =>
    exact Declaration.balanced_of_none fun _ => by
      simp [Declaration.packageWrites, Declaration.kindWrites, Declaration.containment]
  case startClass =>
    exact Declaration.balanced_append (Declaration.balanced_append (Declaration.balanced_append
      (head _ _ _ _) (references _ _ _)) (references _ _ _)) (held _ _)
  case startInterface =>
    exact Declaration.balanced_append (Declaration.balanced_append (head _ _ _ _)
      (references _ _ _)) (held _ _)
  case startEnumeration visibility name elements modifiers implemented =>
    refine Declaration.balanced_append (Declaration.balanced_append (Declaration.balanced_append
      (head _ _ _ _) (references _ _ _)) ?_) (held _ _)
    split
    · exact Declaration.balanced_of_none fun _ => by simp
    · exact Declaration.balanced_refuse (by rintro _ ⟨⟩)

theorem Call.declares_balanced {call : Call} {kind : EntityKind} {writes : Declared}
    (told : call.declares? = some (kind, writes)) (container id : Identifier) :
    Declaration.Balanced (writes container id) := by
  cases call <;> cases told
  case «attribute» visibility name type modifiers value =>
    refine Declaration.balanced_append (Declaration.balanced_append (Declaration.balanced_append
      (Declaration.headWrites_balanced _ _ _ _) ?_) ?_) (Declaration.containment_balanced _ _ _)
    · exact Declaration.balanced_of_none fun _ => by simp
    · split
      · exact Declaration.balanced_of_none fun _ => List.not_mem_nil
      · exact Declaration.balanced_of_none fun _ => by simp
  case constructor => exact Declaration.executableWrites_balanced _ _ _ _ _ _ _ _ _ _
  case method => exact Declaration.executableWrites_balanced _ _ _ _ _ _ _ _ _ _

namespace Builder

variable {σ : Type} [TripleStore σ] (builder : Builder σ)

theorem write_balanced {notices : List Notice} {writes : List Write}
    {after : Builder σ → Builder σ} (balanced : Declaration.Balanced writes) :
    Steps.Only Fault.Balanced (builder.write notices writes after).1.outcome :=
  write_only fun _ listed draft => draft.write_only fun fault refused =>
    balanced fault (refused ▸ listed)

theorem child_balanced {id : Identifier} {name qualifier : String} {fault : Fault}
    (refused : id.child name qualifier = .error fault) : fault.Balanced :=
  id.child_only name qualifier fault refused

theorem openScope_balanced {notices : List Notice} {kind : EntityKind} {segments : List String}
    {name : String} {writes : Identifier → List Write}
    (balanced : ∀ id, Declaration.Balanced (writes id)) :
    Steps.Only Fault.Balanced
      (builder.openScope notices kind segments name writes).1.outcome := by
  have pushed (path : Identifier) : ∀ fault ∈ (pushAll kind path segments).2,
      Fault.Balanced fault := by
    induction segments generalizing path with
    | nil => rintro _ ⟨⟩
    | cons segment rest ih =>
        unfold pushAll
        cases child : path.child segment kind.key with
        | ok next => exact ih next
        | error fault =>
            rintro _ ⟨rfl⟩
            exact child_balanced child
  unfold openScope
  have only := pushed builder.path
  generalize pushAll kind builder.path segments = reached at only
  obtain ⟨path, _ | fault⟩ := reached
  · exact builder.write_balanced (balanced path)
  · exact Steps.only_error (only fault rfl)

omit [TripleStore σ] in
theorem nameText_only (name : Value) : Steps.Only Fault.Balanced (nameText name) := by
  unfold nameText
  split
  · exact Steps.only_ok _
  · split
    · exact Steps.only_ok _
    · exact Steps.only_error (by rintro _ ⟨⟩)

omit [TripleStore σ] in
theorem simpleName_only (name : Value) :
    Steps.Only Fault.Balanced (builder.simpleName name) := by
  refine (nameText_only name).bind fun text => ?_
  split
  · exact Steps.only_error (by rintro _ ⟨⟩)
  · exact Steps.only_ok _

theorem openType_balanced {kind : EntityKind} {what : String} {name : Value} {writes : Declared}
    (balanced : ∀ container id, Declaration.Balanced (writes container id)) :
    Steps.Only Fault.Balanced (builder.openType kind what name writes).1.outcome := by
  unfold openType
  split
  · exact Steps.only_error (by rintro _ ⟨⟩)
  · have only := builder.simpleName_only name
    cases named : builder.simpleName name with
    | error fault => exact Steps.only_error (only fault named)
    | ok parts => exact builder.openScope_balanced (balanced builder.container)

theorem startPackage_balanced (name : Value) :
    Steps.Only Fault.Balanced (builder.startPackage name).1.outcome := by
  have only : Steps.Only Fault.Balanced (builder.packageName name) := by
    unfold packageName
    split
    · exact Steps.only_error (by rintro _ ⟨⟩)
    · split
      · exact Steps.only_error (by rintro _ ⟨⟩)
      · refine (nameText_only name).bind fun text => ?_
        refine Steps.Only.bind ?_ fun _ => Steps.only_ok _
        unfold segmentsInside
        split
        · exact Steps.only_ok _
        · split
          · exact Steps.only_ok _
          · exact Steps.only_error (by rintro _ ⟨⟩)
  unfold startPackage
  split
  · exact Steps.only_error (by rintro _ ⟨⟩)
  · cases named : builder.packageName name with
    | error fault => exact Steps.only_error (only fault named)
    | ok parts =>
        have told : (Call.startPackage name).opens? = some (.package, Declaration.packageWrites) :=
          rfl
        exact builder.openScope_balanced (Call.opens_balanced told builder.container)

theorem declare_balanced {kind : EntityKind} {what : String} {kinds : List EntityKind}
    {named : Except Fault (String × List Notice)} {writes : Declared}
    (only : Steps.Only Fault.Balanced named)
    (balanced : ∀ container id, Declaration.Balanced (writes container id)) :
    Steps.Only Fault.Balanced (builder.declare kind what kinds named writes).1.outcome := by
  unfold declare
  split
  · exact Steps.only_error (by rintro _ ⟨⟩)
  · exact Steps.only_error (by rintro _ ⟨⟩)
  · split
    · exact Steps.only_error (by rintro _ ⟨⟩)
    · cases named with
      | error fault => exact Steps.only_error (only fault rfl)
      | ok found =>
          dsimp only
          split
          · rename_i fault child
            exact Steps.only_error (child_balanced child)
          · exact builder.write_balanced (balanced _ _)

/-- Only what closes something, and what begins or ends a unit or a run, can be refused for want of
balance. -/
theorem handle_balanced (call : Call)
    (declares : (call.opens?).isSome ∨ (call.declares?).isSome ∨ call.isNote = true) :
    Steps.Only Fault.Balanced (builder.handle call).1.outcome := by
  have opened (kind : EntityKind) (writes : Declared) (told : call.opens? = some (kind, writes)) :
      ∀ container id, Declaration.Balanced (writes container id) := Call.opens_balanced told
  have declared (kind : EntityKind) (writes : Declared)
      (told : call.declares? = some (kind, writes)) :
      ∀ container id, Declaration.Balanced (writes container id) := Call.declares_balanced told
  cases call with
  | startPackage name => exact builder.startPackage_balanced name
  | startClass | startInterface | startEnumeration =>
      exact builder.openType_balanced (opened _ _ rfl)
  | «attribute» | method =>
      exact builder.declare_balanced (builder.simpleName_only _) (declared _ _ rfl)
  | constructor => exact builder.declare_balanced (Steps.only_ok _) (declared _ _ rfl)
  | parseError | parsedEntry | classDoc => exact Steps.only_ok _
  | methodDoc =>
      simp only [handle, noteMethodDoc]
      split
      · exact Steps.only_ok _
      · exact Steps.only_error (by rintro _ ⟨⟩)
  | _ => simp [Call.opens?, Call.declares?, Call.isNote] at declares

end Builder

/-! ### What replies say -/

/-- The name given in a call that is checked against where the call stands. -/
def Call.placedName? : Call → Option Value
  | .startClass _ name _ _ _ | .startInterface name _ _ _ | .startEnumeration _ name _ _ _
  | .attribute _ name _ _ _ | .method _ name _ _ _ _ _ _ => some name
  | _ => none

namespace Builder

variable {σ : Type} [TripleStore σ] (builder : Builder σ)

/-- What a reply says if it is no parse error: of a name that it is unknown, or something listed. -/
def SaysOnly (listed : List Notice) (reply : Reply) : Prop :=
  ∀ notice ∈ reply.notices, (∃ name, notice = .unresolvedType name) ∨ notice ∈ listed

omit [TripleStore σ] in
theorem saysOnly_nothing (listed : List Notice) {reply : Reply} (nothing : reply.notices = []) :
    SaysOnly listed reply := by
  intro notice said
  rw [nothing] at said
  cases said

theorem write_saysOnly (notices : List Notice) (writes : List Write)
    (after : Builder σ → Builder σ) :
    SaysOnly notices (builder.write notices writes after).1 := by
  unfold write
  cases builder.model.writeAll writes with
  | mk model outcome =>
      cases outcome with
      | error fault => exact fun notice said => .inr said
      | ok unknown =>
          intro notice said
          rcases List.mem_append.mp said with listed | told
          · exact .inr listed
          · obtain ⟨name, _, rfl⟩ := List.mem_map.mp told
            exact .inl ⟨name, rfl⟩

theorem openScope_saysOnly (notices : List Notice) (kind : EntityKind) (segments : List String)
    (name : String) (writes : Identifier → List Write) :
    SaysOnly notices (builder.openScope notices kind segments name writes).1 := by
  unfold openScope
  split
  · exact fun notice said => .inr said
  · exact builder.write_saysOnly _ _ _

omit [TripleStore σ] in
theorem simpleName_notices {name : Value} {simple : String} {notices : List Notice}
    (named : builder.simpleName name = .ok (simple, notices)) :
    ∃ text, name = .text text ∧ notices = builder.discrepancies text := by
  obtain ⟨text, rfl, _⟩ := simpleName_ok named
  refine ⟨text, rfl, ?_⟩
  simp only [simpleName, nameText, Steps.bind_ok_iff] at named
  obtain ⟨_, ⟨rfl⟩, named⟩ := named
  split at named
  · cases named
  · exact (Prod.mk.inj (Except.ok.inj named)).2.symm

/-- What a builder can say of a name given for something in its innermost scope. -/
def placed (builder : Builder σ) : Value → List Notice
  | .text name => builder.discrepancies name
  | _ => []

/-- What can be said in reply to a call besides unknown names. -/
def sayable (builder : Builder σ) : Call → List Notice
  | .parseError location description => [.parseError location description]
  | call => (call.placedName?).elim [] builder.placed

theorem openType_saysOnly (kind : EntityKind) (what : String) (name : Value) (writes : Declared) :
    SaysOnly (builder.placed name) (builder.openType kind what name writes).1 := by
  unfold openType
  split
  · exact saysOnly_nothing _ rfl
  · split
    · exact saysOnly_nothing _ rfl
    · rename_i simple notices named
      obtain ⟨text, rfl, rfl⟩ := builder.simpleName_notices named
      exact builder.openScope_saysOnly _ _ _ _ _

theorem declare_saysOnly (kind : EntityKind) (what : String) (kinds : List EntityKind)
    {named : Except Fault (String × List Notice)} {listed : List Notice} (writes : Declared)
    (given : ∀ simple notices, named = .ok (simple, notices) → notices = listed) :
    SaysOnly listed (builder.declare kind what kinds named writes).1 := by
  unfold declare
  split
  · exact saysOnly_nothing _ rfl
  · exact saysOnly_nothing _ rfl
  · split
    · exact saysOnly_nothing _ rfl
    · split
      · exact saysOnly_nothing _ rfl
      · cases given _ _ rfl
        split
        · exact fun notice said => .inr said
        · exact builder.write_saysOnly _ _ _

omit [TripleStore σ] in
theorem placed_of_named {name : Value} {simple : String} {notices : List Notice}
    (named : builder.simpleName name = .ok (simple, notices)) : notices = builder.placed name := by
  obtain ⟨text, rfl, same⟩ := builder.simpleName_notices named
  exact same

omit [TripleStore σ] in
theorem closeScope_silent (kind : EntityKind) : (builder.closeScope kind).1.notices = [] := by
  unfold closeScope
  split
  · rfl
  · rfl
  · dsimp only
    split
    · rfl
    · split
      · rfl
      · split <;> rfl

/-- A reply to a call says that names are unknown, that the name given does not fit where it is
given, or the parse error it is told. -/
theorem handle_saysOnly (call : Call) :
    SaysOnly (builder.sayable call) (builder.handle call).1 := by
  cases call with
  | startParsing library location =>
      simp only [handle, startParsing]
      split
      · exact saysOnly_nothing _ rfl
      · split <;> exact saysOnly_nothing _ rfl
  | endParsing =>
      simp only [handle, endParsing]
      split
      · exact saysOnly_nothing _ rfl
      · exact saysOnly_nothing _ rfl
      · exact saysOnly_nothing _ rfl
      · exact builder.write_saysOnly _ _ _
  | startUnit name =>
      simp only [handle, startUnit]
      split <;> exact saysOnly_nothing _ rfl
  | endUnit =>
      simp only [handle, endUnit]
      split
      · exact saysOnly_nothing _ rfl
      · exact saysOnly_nothing _ rfl
      · split <;> exact saysOnly_nothing _ rfl
  | startPackage name =>
      simp only [handle, startPackage]
      split
      · exact saysOnly_nothing _ rfl
      · split
        · exact saysOnly_nothing _ rfl
        · exact builder.openScope_saysOnly _ _ _ _ _
  | endPackage | endClass | endInterface | endEnumeration =>
      exact saysOnly_nothing _ (builder.closeScope_silent _)
  | startClass | startInterface | startEnumeration => exact builder.openType_saysOnly _ _ _ _
  | «attribute» | method =>
      exact builder.declare_saysOnly _ _ _ _ fun _ _ => builder.placed_of_named
  | constructor =>
      refine builder.declare_saysOnly _ _ _ _ fun _ _ named => ?_
      cases named
      rfl
  | parseError => exact fun notice said => .inr said
  | parsedEntry | classDoc => exact saysOnly_nothing _ rfl
  | methodDoc =>
      simp only [handle, noteMethodDoc]
      split <;> exact saysOnly_nothing _ rfl

end Builder

end CodeFacts
