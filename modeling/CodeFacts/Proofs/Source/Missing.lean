import CodeFacts.Proofs.Builder.Wider
import CodeFacts.Proofs.Source.Retold
import CodeFacts.Proofs.Source.Unit

/-!
Names that are missing. A unit that passes still passes when names of its declarations are lost, and
leaves the builder where it was, unless a name that is told is empty then: that of a field, of a
method, or of a type that stands in no package and in no other type.
-/

namespace CodeFacts

/-- The place and the description of a parse error that is noticed. -/
def Notice.parseError? : Notice → Option (Value × Value)
  | .parseError location description => some (location, description)
  | _ => none

namespace Source

/-- Whether a tree is another one in which names of declarations of types, fields and methods are
missing. -/
def Missing (root other : Node) : Prop := Altered .missing .other root other

/-- The places and the descriptions of what is wrong in a tree, one for each node that is missing or
could not be parsed, in the order of the text. -/
def Node.complaints (root : Node) (path : String) : List (Value × Value) :=
  root.preorder.filterMap fun node =>
    node.error?.map fun description =>
      (.text s!"{path}:{node.head.row + 1}:{node.head.column + 1}", .text description)

theorem Node.errors_eq (root : Node) (path : String) :
    root.errors path = (root.complaints path).map fun wrong => .parseError wrong.1 wrong.2 := by
  unfold errors complaints
  rw [List.map_filterMap]
  refine congrArg (List.filterMap · root.preorder) (funext fun node => ?_)
  cases node.error? <;> rfl

/-! ### What is known of names -/

/-- Whether the dotted names of a type and of those in it have no marks in an owner. -/
def CleanTypes (owner : String) (declaration : Option Node × Node) : Prop :=
  ∀ member, readMember declaration = some member →
    ∀ name ∈ typeNames owner member, Dotted.Unmarked name

theorem allTypeNames_unmarked {owner : String} {nodes others : List (Option Node × Node)}
    (each : List.Forall₂ (fun _ other => CleanTypes owner other) nodes others) :
    ∀ name ∈ allTypeNames owner (others.filterMap readMember), Dotted.Unmarked name := by
  induction each with
  | nil => exact nofun
  | @cons _ other _ others here _ ih =>
      cases read : readMember other with
      | none =>
          rw [List.filterMap_cons_none read]
          exact ih
      | some member =>
          rw [List.filterMap_cons_some read, allTypeNames]
          exact List.forall_mem_append.mpr ⟨here member read, ih⟩

/-- Where the types of a tree have names without marks, so have those of a tree that lost some
names. The induction is over the members of types. -/
theorem cleanTypes_of_alike (node : Node) {previous : Option Node} {other : Option Node × Node}
    (alike : Alike .missing (previous, node) other) {owner another : String}
    (clean : Dotted.Unmarked another)
    (declared : ∀ type ∈ node.declaredTypes owner, type.2.isUnmarked = true) :
    CleanTypes another other := by
  induction node using Node.members_induction generalizing previous other owner another with
  | step node ih =>
  intro member found
  have read := alike.read
  rw [found] at read
  generalize reading : readMember (previous, node) = first at read
  generalize again : some member = second at read
  cases read with
  | nothing => cases again
  | field | method | constructor =>
      cases again
      exact nofun
  | @type heading renamed unnamed members =>
      cases again
      rcases readMember_cases previous node with ⟨unread, _⟩ | ⟨_, known, shape⟩
      · cases unread.symm.trans reading
      cases known.symm.trans reading
      cases shape with
      | @type name sort declaration named =>
      rw [Node.declaredTypes_of_named declaration named, List.forall_mem_cons] at declared
      obtain ⟨here, inside⟩ := declared
      have unmarked : Dotted.Unmarked name.text :=
        Dotted.Unmarked.of_within (of_decide_eq_true here)
      have within := (unnamed.unmarked unmarked).within clean
      have each : List.Forall₂ (fun _ other => CleanTypes (Dotted.within another renamed) other)
          node.members other.2.members :=
        forall₂_of_mem members fun member listed other alike =>
          ih member listed alike within fun type told =>
            inside type (List.mem_flatMap.mpr ⟨member, listed, told⟩)
      exact List.forall_mem_cons.mpr ⟨within, allTypeNames_unmarked each⟩

theorem missing_resolver {root other : Node} (missing : Missing root other)
    {symbols : SymbolTable} (clean : ∀ name, symbols.knows name = true → Dotted.Unmarked name)
    (passed : ((Outline.ofRoot root).trace symbols).fault = none)
    (kinds : ∀ call ∈ ((Outline.ofRoot root).trace symbols).calls, call.Kinded) :
    Dotted.Unmarked (packageName root) ∧
      Resolver.Renamed ((Outline.ofRoot root).resolver symbols)
        ((Outline.ofRoot other).resolver symbols) := by
  obtain ⟨blocks, told, calls⟩ := outline_calls passed
  rw [calls] at kinds
  have package : Dotted.Unmarked (packageName root) := by
    by_cases empty : packageName root = ""
    · rw [empty]
      decide +kernel
    · rw [packaged, if_neg empty] at kinds
      exact of_decide_eq_true (kinds _ List.mem_cons_self (.inl rfl))
  have block_kinds : ∀ call ∈ blocks, call.Kinded := by
    intro call listed
    refine kinds call ?_
    unfold packaged
    split
    · exact listed
    · exact List.mem_cons_of_mem _ (List.mem_append_left _ listed)
  -- Each type of the unit is opened by one of its calls, whose kinds speak of the name.
  have declared : ∀ declaration ∈ root.typeDeclarations,
      ∀ type ∈ declaration.2.declaredTypes (packageName root), type.2.isUnmarked = true := by
    intro declaration listed type member
    have opened : type ∈ openings blocks := by
      rw [told.openings]
      exact List.mem_flatMap.mpr ⟨declaration, listed, member⟩
    obtain ⟨call, inside, opens⟩ := List.mem_filterMap.mp opened
    exact unmarked_of_opening opens (block_kinds call inside)
  refine ⟨package, renamed_resolver missing.packageName missing.imports package clean ?_⟩
  have types : (Outline.ofRoot other).types = other.typeDeclarations.filterMap readMember :=
    typesAfter_eq none other.children
  rw [types]
  refine allTypeNames_unmarked (forall₂_of_mem (missing.typeDeclarations Place.other_not_open)
    fun declaration listed again alike => ?_)
  have same : (Outline.ofRoot other).package = packageName root := missing.packageName
  rw [same]
  exact cleanTypes_of_alike declaration.2 alike package (declared declaration listed)

theorem followed_outline {root other : Node} (missing : Missing root other)
    {symbols : SymbolTable} (clean : ∀ name, symbols.knows name = true → Dotted.Unmarked name) :
    ((Outline.ofRoot root).trace symbols).Followed ((Outline.ofRoot other).trace symbols) := by
  intro passed kinds
  obtain ⟨package, renamed⟩ := missing_resolver missing clean passed kinds
  have each := (missing.typeDeclarations Place.other_not_open).imp fun _ _ alike => alike.told
  have members := fun owner => @followed_members _ _ owner (packageName root) _ _ each renamed
    package false [] [] 0 0
  revert passed kinds
  show Trace.Followed _ _
  rw [outline_trace, outline_trace, missing.packageName]
  split
  · exact members _
  · refine ((Trace.followed_ofCalls ?_).append fun _ _ => members _).append fun _ _ =>
      Trace.followed_ofCalls ?_
    · exact .cons (.package package) .nil
    · exact .cons (.closes rfl rfl) .nil

/-! ### Notices -/

variable {σ : Type} [TripleStore σ]

/-- Parse errors are noticed one after the other, and what stands open stays. -/
theorem run_errors (root : Node) (path : String) (builder : Builder σ) :
    ∃ next, (Trace.ofCalls (root.errors path)).run builder =
        (none, (root.complaints path).map fun wrong => .parseError wrong.1 wrong.2, next) ∧
      next.standing = builder.standing ∧ (builder.Guards → next.Guards) := by
  have run (calls : List Call) : (Trace.ofCalls calls).run builder =
      Handler.handleAll builder calls := by
    simp only [Trace.run, Trace.ofCalls, Option.or_none]
  rw [run, root.errors_eq]
  generalize root.complaints path = wrongs
  clear run
  induction wrongs generalizing builder with
  | nil => exact ⟨builder, rfl, rfl, id⟩
  | cons wrong rest ih =>
      let call := Call.parseError wrong.1 wrong.2
      obtain ⟨next, later, same, guarded⟩ := ih (builder.handle call).2
      refine ⟨next, ?_, same, fun guards => guarded (guards.handle call)⟩
      have accepted : (Handler.handle call builder).1.outcome = .ok () := rfl
      have here : Handler.handle call builder = builder.handle call := rfl
      rw [List.map_cons, Handler.handleAll]
      dsimp only
      rw [accepted]
      dsimp only
      rw [here, later]
      rfl

theorem silent_handle {call : Call} (other : ∀ location description,
    call ≠ .parseError location description) (builder : Builder σ) :
    (builder.handle call).1.notices.filterMap Notice.parseError? = [] := by
  refine List.filterMap_eq_nil_iff.mpr fun notice said => ?_
  rcases builder.handle_saysOnly call notice said with ⟨name, rfl⟩ | listed
  · rfl
  have placed (name : Value) (listed : notice ∈ builder.placed name) :
      notice.parseError? = none := by
    unfold Builder.placed Builder.discrepancies at listed
    split at listed
    · dsimp only at listed
      split at listed
      · cases listed
      · rw [List.mem_singleton.mp listed]
        rfl
    · cases listed
  unfold Builder.sayable at listed
  split at listed
  · exact absurd rfl (other _ _)
  · cases named : call.placedName? with
    | none =>
        rw [named] at listed
        cases listed
    | some name =>
        rw [named] at listed
        exact placed name listed

theorem silent_handleAll {calls : List Call} (others : ∀ call ∈ calls, ∀ location description,
    call ≠ .parseError location description) (builder : Builder σ) :
    (Handler.handleAll builder calls).2.1.filterMap Notice.parseError? = [] := by
  induction calls generalizing builder with
  | nil => rfl
  | cons call rest ih =>
      obtain ⟨this, later⟩ := List.forall_mem_cons.mp others
      have silent : (Handler.handle call builder).1.notices.filterMap Notice.parseError? = [] :=
        silent_handle this builder
      unfold Handler.handleAll
      dsimp only
      cases (Handler.handle call builder).1.outcome with
      | error fault => exact silent
      | ok _ =>
          dsimp only
          rw [List.filterMap_append, silent, ih later]
          rfl

theorem no_errors_of_pairs {calls others : List Call}
    (pairs : List.Forall₂ Call.Pairs calls others) :
    ∀ call ∈ others, ∀ location description, call ≠ .parseError location description := by
  induction pairs with
  | nil => exact nofun
  | cons here _ ih =>
      refine List.forall_mem_cons.mpr ⟨?_, ih⟩
      rintro location description rfl
      cases here with
      | opens _ again | declares _ again | closes _ again => cases again

/-! ### Units -/

theorem nameless_iff {package : String} {nodes : List (Option Node × Node)} {blocks : List Call}
    (told : Blocks package nodes blocks) :
    (∃ call ∈ packaged package blocks, call.Nameless) ↔
      "" ∈ nodes.flatMap fun node => node.2.givenNames package := by
  have inside : (∃ call ∈ packaged package blocks, call.Nameless) ↔
      .text "" ∈ blocks.filterMap Call.placedName? := by
    have first : (Call.startPackage (.text package)).placedName? = none := rfl
    have last : Call.endPackage.placedName? = none := rfl
    rw [List.mem_filterMap]
    unfold packaged
    split
    · rfl
    · simp [Call.Nameless, first, last]
  rw [inside, told.names, List.mem_map]
  exact ⟨fun ⟨_, listed, same⟩ => Value.text.inj same ▸ listed, fun listed => ⟨_, listed, rfl⟩⟩

theorem packaged_restores {package : String} {nodes : List (Option Node × Node)}
    {blocks : List Call} (told : Blocks package nodes blocks) {builder : Builder σ}
    (passed : (Handler.handleAll builder (packaged package blocks)).1 = none) :
    (Handler.handleAll builder (packaged package blocks)).2.2.standing = builder.standing := by
  by_cases empty : package = ""
  · simp only [packaged, if_pos empty] at passed ⊢
    exact told.restores passed
  · simp only [packaged, if_neg empty] at passed ⊢
    exact Builder.standing_of_container rfl rfl (fun _ passed => told.restores passed) passed

theorem endUnit_of_standing {builder next : Builder σ} (same : next.standing = builder.standing) :
    (next.handle .endUnit).1 = (builder.handle .endUnit).1 := by
  simp only [Builder.standing, Prod.mk.injEq] at same
  obtain ⟨phase, scopes, unit, level⟩ := same
  show next.endUnit.1 = builder.endUnit.1
  unfold Builder.endUnit Builder.depth
  rw [phase, scopes, unit, level]
  cases builder.phase with
  | idle => rfl
  | parsing =>
      cases builder.unit with
      | none => rfl
      | some name =>
          dsimp only
          split <;> rfl

theorem passed_of_run {η : Type} [Handler η] {trace : Trace} {state : η}
    (passed : (trace.run state).1 = none) :
    trace.fault = none ∧ (Handler.handleAll state trace.calls).1 = none := by
  obtain ⟨refused, whole⟩ := Option.or_eq_none_iff.mp passed
  exact ⟨whole, refused⟩

theorem run_of_read {η : Type} [Handler η] {trace : Trace} (read : trace.fault = none)
    (state : η) : trace.run state = Handler.handleAll state trace.calls := by
  simp only [Trace.run, read, Option.or_none]

/-- A unit is told as its parse errors, all of which are noticed, and then its outline. -/
theorem run_unit (symbols : SymbolTable) (path : String) (root : Node) (builder : Builder σ) :
    ∃ next, next.standing = builder.standing ∧ (builder.Guards → next.Guards) ∧
      let outline := ((Outline.ofRoot root).trace symbols).run next
      (unitTrace symbols path root).run builder =
        (outline.1, (root.complaints path).map (fun wrong => .parseError wrong.1 wrong.2) ++
          outline.2.1, outline.2.2) := by
  obtain ⟨next, errors, same, guarded⟩ := run_errors root path builder
  refine ⟨next, same, guarded, ?_⟩
  rw [unitTrace, Trace.run_append, errors]

/-- The names that the types of a unit and those in them are told with. -/
def Node.toldNames (root : Node) : List String :=
  root.typeDeclarations.flatMap fun declaration => declaration.2.givenNames (packageName root)

/-- A unit that lost some names where the unit as it was passes. -/
theorem run_of_missing {symbols : SymbolTable} {path : String} {root other : Node}
    (missing : Missing root other)
    (clean : ∀ name, symbols.knows name = true → Dotted.Unmarked name)
    (kinds : ∀ call ∈ (unitTrace symbols path root).calls, call.Kinded) {builder : Builder σ}
    (guards : builder.Guards) (passed : ((unitTrace symbols path root).run builder).1 = none) :
    let run := (unitTrace symbols path other).run builder
    run.2.1.filterMap Notice.parseError? = other.complaints path ∧
      run.1 = (if "" ∈ other.toldNames then some (.refused .emptyName) else none) ∧
      ("" ∉ other.toldNames → run.2.2.standing = builder.standing) := by
  intro run
  obtain ⟨first, same, _, run_root⟩ := run_unit symbols path root builder
  obtain ⟨second, same_again, guarded, run_other⟩ := run_unit symbols path other builder
  have paired : Paired first second := .of_standing (same_again.trans same.symm)
  rw [run_root] at passed
  obtain ⟨read, accepted⟩ := passed_of_run passed
  have outline_kinds : ∀ call ∈ ((Outline.ofRoot root).trace symbols).calls, call.Kinded :=
    fun call listed => kinds call (List.mem_append_right _ listed)
  -- The unit is read again call by call in pairs, so only an empty name can make a difference.
  obtain ⟨read_again, pairs⟩ := followed_outline missing clean read outline_kinds
  obtain ⟨blocks, told, calls_again⟩ := outline_calls read_again
  have run_eq : run = _ := run_other
  rw [run_of_read read_again] at run_eq
  have silent := silent_handleAll (no_errors_of_pairs pairs) second
  refine ⟨?_, ?_⟩
  · rw [run_eq, List.filterMap_append, silent, List.append_nil, List.filterMap_map]
    exact List.filterMap_some
  have named := nameless_iff told
  rw [← calls_again] at named
  rw [run_eq]
  rcases pairs_run pairs paired (guarded guards) accepted with
    ⟨nameless, refused⟩ | ⟨all_named, passes, _⟩
  · have empty : "" ∈ other.toldNames := named.mp nameless
    exact ⟨by rw [if_pos empty]; exact refused, fun filled => absurd empty filled⟩
  · have filled : "" ∉ other.toldNames := fun empty =>
      (named.mpr empty).elim fun call found => all_named call found.1 found.2
    rw [calls_again] at passes
    have restored := (packaged_restores told passes).trans same_again
    rw [← calls_again] at restored passes
    exact ⟨by rw [if_neg filled]; exact passes, fun _ => restored⟩

/-- Let a unit pass where a unit is open that could be ended, its declarations being of the kinds the
profile speaks of. If names of its declarations are lost, every parse error is noticed, in the order
of the text. If a name that is told is empty then, the unit is refused for that; otherwise it passes,
and the unit that is open can still be ended. -/
theorem missing_run (known symbols : SymbolTable) (store : σ) (date : String) (calls : List Call)
    (path : String) {root other : Node} (missing : Missing root other)
    (clean : ∀ name, symbols.knows name = true → Dotted.Unmarked name)
    (kinds : ∀ call ∈ (unitTrace symbols path root).calls, call.Kinded) :
    let builder := Handler.after (Builder.start ⟨.java, known, store⟩ date) calls
    let run := (unitTrace symbols path other).run builder
    (builder.handle .endUnit).1.isAccepted = true →
      ((unitTrace symbols path root).run builder).1 = none →
        run.2.1.filterMap Notice.parseError? = other.complaints path ∧
        run.1 = (if "" ∈ other.toldNames then some (.refused .emptyName) else none) ∧
        ("" ∉ other.toldNames → run.2.2.standing = builder.standing ∧
          (run.2.2.handle .endUnit).1.isAccepted = true) := by
  intro builder run ready passed
  have guards : builder.Guards := (Builder.guards_start rfl known store date).after calls
  obtain ⟨noticed, ends, restored⟩ := run_of_missing missing clean kinds guards passed
  refine ⟨noticed, ends, fun filled => ⟨restored filled, ?_⟩⟩
  rw [endUnit_of_standing (restored filled)]
  exact ready

/-! A class with a field, in a package. -/

def identifier (text : String) : Node := .atStart "identifier" text (some "name") []

def lostIdentifier : Node := .mk (identifier "").head.lost []

def classOfField (type field : Node) : Node :=
  .atStart "program" "" none
    [.atStart "package_declaration" "package p;" none [.atStart "identifier" "p" none []],
      .atStart "class_declaration" "" none
        [type, .atStart "class_body" "" (some "body")
          [.atStart "field_declaration" "" none
            [.atStart "integral_type" "int" (some "type") [],
              .atStart "variable_declarator" "" (some "declarator") [field]]]]]

/-- A name that is lost where it is read. -/
theorem altered_lost {outer : Place} {text : String}
    (place : outer.inside (identifier text).head = .name) :
    Altered .missing (outer.inside (identifier text).head) (identifier text) lostIdentifier := by
  rw [place]
  exact .loses rfl List.mem_cons_self

theorem missing_class : Missing (classOfField (identifier "A") (identifier "x"))
    (classOfField lostIdentifier (identifier "x")) :=
  .keeps <| .cons (altered_self _ _ _) <| .cons
    (.keeps <| .cons (altered_lost (by decide +kernel)) <| alteredAll_self _ _ _) .nil

theorem missing_field : Missing (classOfField (identifier "A") (identifier "x"))
    (classOfField (identifier "A") lostIdentifier) :=
  .keeps <| .cons (altered_self _ _ _) <| .cons
    (.keeps <| .cons (altered_self _ _ _) <| .cons
      (.keeps <| .cons (.keeps <| .cons (altered_self _ _ _) <| .cons
        (.keeps <| .cons (altered_lost (by decide +kernel)) .nil) .nil) .nil) .nil) .nil

theorem toldNames_classOfField {type field : Node} (typed : type.head.field = some "name")
    (named : field.head.field = some "name") :
    (classOfField type field).toldNames = ["p." ++ type.text, field.text] := by
  let kind := Node.atStart "integral_type" "int" (some "type") []
  let declarator := Node.atStart "variable_declarator" "" (some "declarator") [field]
  let member := Node.atStart "field_declaration" "" none [kind, declarator]
  let body := Node.atStart "class_body" "" (some "body") [member]
  let declaration := Node.atStart "class_declaration" "" none [type, body]
  let package := Node.atStart "package_declaration" "package p;" none
    [.atStart "identifier" "p" none []]
  have types : (classOfField type field).typeDeclarations = [(some package, declaration)] := rfl
  have found : declaration.field? "name" = some type :=
    List.find?_cons_of_pos (by rw [typed]; rfl)
  have bodied : declaration.field? "body" = some body :=
    List.find?_cons_of_neg (by rw [typed]; decide)
  have members : declaration.members = [(none, member)] := by
    rw [Node.members, bodied]
    rfl
  have declared : declarator.field? "name" = some field :=
    List.find?_cons_of_pos (by rw [named]; rfl)
  have names : member.memberNames = [field] :=
    (List.filterMap_cons_some declared : [declarator].filterMap (·.field? "name") = [field])
  rw [Node.toldNames, types, List.flatMap_singleton,
    @Node.givenNames_of_named _ _ _ .classType rfl found, members, List.flatMap_singleton,
    Node.givenNames_of_other rfl, names]
  rfl

/-- Rules for packages, classes and their fields, all of them rules of the profile. -/
def fieldRules : List Relation :=
  [EntityKind.package, .classType, .attribute].map (fun kind =>
    ⟨kind.pattern, Predicate.subClassOf.uri, .resource kind.uri⟩) ++
  [Ontology.linkRule .package (.contains .package) .package,
    Ontology.linkRule .package (.contains .classType) .classType,
    Ontology.linkRule .classType (.contains .attribute) .attribute,
    Ontology.noteRule .classType .hasModifiers, Ontology.noteRule .classType .hasVisibility,
    Ontology.noteRule .attribute .hasModifiers, Ontology.noteRule .attribute .hasVisibility,
    Ontology.noteRule .attribute .attributeType]

def unitOpened : List Call :=
  [.startParsing (.text "lib") (.text "/lib"), .startUnit (.text "A.java")]

theorem classOfField_passes :
    let root := classOfField (identifier "A") (identifier "x")
    let builder := Handler.after (Builder.start ⟨.java, .empty, PlainStore.empty⟩ "2024-01-01")
      unitOpened
    (∀ call ∈ (unitTrace .empty "A.java" root).calls, call.Kinded) ∧
      (builder.handle .endUnit).1.isAccepted = true ∧
      ((unitTrace .empty "A.java" root).run builder).1 = none := by
  intro root builder
  let trace := unitTrace .empty "A.java" root
  let few : Builder PlainStore := .start ⟨.ofRelations fieldRules, .empty, .empty⟩ "2024-01-01"
  have read : trace.fault = none := Option.isNone_iff_eq_none.mp (by decide +kernel)
  have few_pass : (Handler.handleAll few (unitOpened ++ trace.calls)).1 = none :=
    Option.isNone_iff_eq_none.mp (by decide +kernel)
  have passed := Builder.handleAll_under _ (Ontology.within_java (by decide +kernel)) few_pass
  obtain ⟨begun, accepted, _⟩ := Handler.handleAll_append_of_passed passed
  rw [Handler.after_of_handleAll begun] at accepted
  refine ⟨by decide +kernel, by decide +kernel, ?_⟩
  rw [run_of_read read]
  exact accepted

theorem lostClass_passes :
    let root := classOfField (identifier "A") (identifier "x")
    let other := classOfField lostIdentifier (identifier "x")
    let builder := Handler.after (Builder.start ⟨.java, .empty, PlainStore.empty⟩ "2024-01-01")
      unitOpened
    let run := (unitTrace .empty "A.java" other).run builder
    Missing root other ∧ (∀ name, SymbolTable.empty.knows name = true → Dotted.Unmarked name) ∧
      (∀ call ∈ (unitTrace .empty "A.java" root).calls, call.Kinded) ∧
      (builder.handle .endUnit).1.isAccepted = true ∧
      ((unitTrace .empty "A.java" root).run builder).1 = none ∧
      (run.2.1.filterMap Notice.parseError?).length = 1 ∧
      run.1 = none ∧ (run.2.2.handle .endUnit).1.isAccepted = true := by
  have clean : ∀ name, SymbolTable.empty.knows name = true → Dotted.Unmarked name := nofun
  obtain ⟨kinds, ready, passed⟩ := classOfField_passes
  obtain ⟨noticed, ends, stands⟩ := missing_run .empty .empty PlainStore.empty "2024-01-01"
    unitOpened "A.java" missing_class clean kinds ready passed
  have filled : "" ∉ (classOfField lostIdentifier (identifier "x")).toldNames := by
    rw [toldNames_classOfField rfl rfl]
    decide +kernel
  refine ⟨missing_class, clean, kinds, ready, passed, ?_, ends.trans (if_neg filled),
    (stands filled).2⟩
  rw [noticed]
  decide +kernel

/-- A field without a name is refused, and the unit with it. -/
theorem lostField_refused :
    let root := classOfField (identifier "A") (identifier "x")
    let other := classOfField (identifier "A") lostIdentifier
    let builder := Handler.after (Builder.start ⟨.java, .empty, PlainStore.empty⟩ "2024-01-01")
      unitOpened
    Missing root other ∧ (builder.handle .endUnit).1.isAccepted = true ∧
      ((unitTrace .empty "A.java" root).run builder).1 = none ∧
      ((unitTrace .empty "A.java" other).run builder).1 = some (.refused .emptyName) := by
  have clean : ∀ name, SymbolTable.empty.knows name = true → Dotted.Unmarked name := nofun
  obtain ⟨kinds, ready, passed⟩ := classOfField_passes
  have guards := (Builder.guards_start rfl .empty PlainStore.empty "2024-01-01").after unitOpened
  obtain ⟨_, ends, _⟩ := run_of_missing missing_field clean kinds guards passed
  have empty : "" ∈ (classOfField (identifier "A") lostIdentifier).toldNames := by
    rw [toldNames_classOfField rfl rfl]
    decide +kernel
  exact ⟨missing_field, ready, passed, ends.trans (if_pos empty)⟩

end Source

end CodeFacts
