import CodeFacts.Proofs.Builder.Bodies
import CodeFacts.Proofs.Source.Unit

/-!
Numbers of overloads. In the body of a declaration constructors are numbered from zero on and
methods of one name in rising order, whatever is told in between, so no two get one signature.
-/

namespace CodeFacts.Source

open Call

/-- A body after so many constructors, and methods of some names, told or not. -/
structure Counted (names : List String) (count : Nat) (body : List Call) : Prop where
  constructors :
    body.filterMap constructorNumber? = (List.range count).map fun number => .int number
  methods : ∀ name, ∃ numbers : List Nat,
    body.filterMap (methodNumber? name) = numbers.map (fun number => .int number) ∧
      numbers.Pairwise (· < ·) ∧ ∀ number ∈ numbers, number < names.count name

theorem counted_nil : Counted [] 0 [] where
  constructors := rfl
  methods _ := ⟨[], rfl, .nil, nofun⟩

section

variable {names : List String} {count : Nat} {body : List Call}

theorem Counted.numbered (counted : Counted names count body) : Numbered body where
  constructors := ⟨count, counted.constructors⟩
  methods name := by
    obtain ⟨numbers, listed, rising, _⟩ := counted.methods name
    exact ⟨numbers, listed, rising⟩

theorem Counted.other (counted : Counted names count body) {call : Call}
    (no_constructor : call.constructorNumber? = none)
    (no_method : ∀ name, call.methodNumber? name = none) :
    Counted names count (body ++ [call]) where
  constructors := by simp [no_constructor, counted.constructors]
  methods name := by simpa [no_method] using counted.methods name

theorem Counted.constructor (counted : Counted names count body) (visibility parameters : Value)
    (types exceptions : List TypeRef) (modifiers : List Nat) :
    Counted names (count + 1)
      (body ++ [.constructor visibility (.int count) parameters types modifiers exceptions]) where
  constructors := by simp [constructorNumber?, counted.constructors, List.range_succ]
  methods name := by
    have silent : (Call.constructor visibility (.int count) parameters types modifiers
        exceptions).methodNumber? name = none := rfl
    simpa [silent] using counted.methods name

/-- One more method that is not told leaves out a number. -/
theorem Counted.skip (counted : Counted names count body) (name : String) :
    Counted (name :: names) count body where
  constructors := counted.constructors
  methods other := by
    obtain ⟨numbers, listed, rising, below⟩ := counted.methods other
    refine ⟨numbers, listed, rising, fun number member => ?_⟩
    exact (below number member).trans_le (List.count_le_count_cons)

theorem Counted.method (counted : Counted names count body) (name : String)
    (visibility parameters : Value) (types exceptions : List TypeRef) (result : Option TypeRef)
    (modifiers : List Nat) :
    Counted (name :: names) count
      (body ++ [.method visibility (.text name) parameters types result modifiers exceptions
        (.int (names.count name))]) where
  constructors := by simp [constructorNumber?, counted.constructors]
  methods other := by
    obtain ⟨numbers, listed, rising, below⟩ := counted.methods other
    by_cases same : name = other
    · subst same
      refine ⟨numbers ++ [names.count name], by simp [methodNumber?, listed], ?_, ?_⟩
      · rw [List.pairwise_append]
        refine ⟨rising, List.pairwise_singleton _ _, fun number member last only => ?_⟩
        rw [List.mem_singleton.mp only]
        exact below number member
      · intro number member
        rw [List.count_cons_self]
        rcases List.mem_append.mp member with old | new
        · have bound := below number old
          omega
        · rw [List.mem_singleton.mp new]
          omega
    · refine ⟨numbers, by simp [methodNumber?, same, listed], rising, fun number member => ?_⟩
      rw [List.count_cons_of_ne same]
      exact below number member

/-! ### Traces -/

/-- Whether a trace that is told among some bodies numbers what it tells throughout, and leaves the
bodies as it should if it does not stop early. -/
structure Numbers (trace : Trace) (before after : List (List Call) → Prop) : Prop where
  throughout : ∀ bodies, before bodies → ∀ start, start <+: trace.calls →
    ∀ body ∈ start.foldl (place id) bodies, Numbered body
  leaves : ∀ bodies, before bodies → trace.fault = none →
    after (trace.calls.foldl (place id) bodies)

/-- The innermost body is counted, around it stand others that are numbered. -/
structure Standing (outer : List (List Call)) (names : List String) (count : Nat)
    (bodies : List (List Call)) : Prop where
  innermost : ∃ body, bodies = body :: outer ∧ Counted names count body
  around : ∀ body ∈ outer, Numbered body

variable {before middle after : List (List Call) → Prop} {first second trace : Trace}
  {outer bodies : List (List Call)}

theorem Standing.numbered (standing : Standing outer names count bodies) :
    ∀ body ∈ bodies, Numbered body := by
  obtain ⟨⟨body, rfl, counted⟩, around⟩ := standing
  exact List.forall_mem_cons.mpr ⟨counted.numbered, around⟩

theorem Numbers.append (one : Numbers first before middle) (other : Numbers second middle after) :
    Numbers (first ++ second) before after := by
  obtain ⟨calls, fault⟩ := first
  cases fault with
  | some fault => exact ⟨one.throughout, fun _ _ whole => nomatch whole⟩
  | none =>
      have reached (bodies : List (List Call)) (given : before bodies) :
          middle (calls.foldl (place id) bodies) := one.leaves bodies given rfl
      constructor
      · intro bodies given start within
        obtain ⟨rest, whole⟩ := within
        rcases List.append_eq_append_iff.mp whole with ⟨left, early, _⟩ | ⟨more, rfl, late⟩
        · exact one.throughout bodies given start ⟨left, early.symm⟩
        · rw [List.foldl_append]
          exact other.throughout _ (reached bodies given) more ⟨rest, late.symm⟩
      · intro bodies given whole
        show after ((calls ++ second.calls).foldl (place id) bodies)
        rw [List.foldl_append]
        exact other.leaves _ (reached bodies given) whole

theorem Numbers.mono {weaker : List (List Call) → Prop} (numbers : Numbers trace before after)
    (kept : ∀ bodies, after bodies → weaker bodies) : Numbers trace before weaker where
  throughout := numbers.throughout
  leaves bodies given whole := kept _ (numbers.leaves bodies given whole)

theorem numbers_empty (kept : ∀ bodies, Standing outer names count bodies → after bodies) :
    Numbers .empty (Standing outer names count) after where
  throughout bodies standing start within := by
    rw [List.prefix_nil.mp within]
    exact standing.numbered
  leaves bodies standing _ := kept bodies standing

theorem numbers_stop (numbered : ∀ bodies, before bodies → ∀ body ∈ bodies, Numbered body)
    (fault : Fault) : Numbers (.stop fault) before after where
  throughout bodies given start within := by
    rw [List.prefix_nil.mp within]
    exact numbered bodies given
  leaves _ _ whole := nomatch whole

theorem numbers_call {call : Call}
    (numbered : ∀ bodies, before bodies → ∀ body ∈ bodies, Numbered body)
    (placed : ∀ bodies, before bodies → after (place id bodies call))
    (still : ∀ bodies, after bodies → ∀ body ∈ bodies, Numbered body) :
    Numbers (.ofCalls [call]) before after where
  throughout bodies given start within := by
    rcases List.prefix_cons_iff.mp within with rfl | ⟨rest, rfl, ends⟩
    · exact numbered bodies given
    · rw [List.prefix_nil.mp ends]
      exact still _ (placed bodies given)
  leaves bodies given _ := placed bodies given

/-- A call that neither begins nor ends a container comes last in the innermost body. -/
theorem numbers_own {call : Call} {more : List String} {total : Nat}
    (opens : call.opening? = none) (closes : call.closes? = none)
    (counts : ∀ body, Counted names count body → Counted more total (body ++ [call])) :
    Numbers (.ofCalls [call]) (Standing outer names count) (Standing outer more total) := by
  refine numbers_call (fun _ => Standing.numbered) ?_ fun _ => Standing.numbered
  rintro _ ⟨⟨body, rfl, counted⟩, around⟩
  exact ⟨⟨body ++ [call], by simp [place, opens, closes], counts body counted⟩, around⟩

theorem numbers_ofCall {told : Except Fault Call}
    (numbered : ∀ bodies, before bodies → ∀ body ∈ bodies, Numbered body)
    (each : ∀ call, told = .ok call → Numbers (.ofCalls [call]) before after) :
    Numbers (.ofCall told) before after := by
  cases told with
  | error fault => exact numbers_stop numbered fault
  | ok call => exact each call rfl

theorem numbers_join {α : Type} {told : α → Trace} (items : List α)
    (each : ∀ item, Numbers (told item) (Standing outer names count) (Standing outer names count)) :
    Numbers (.join (items.map told)) (Standing outer names count) (Standing outer names count) := by
  induction items with
  | nil => exact numbers_empty fun _ standing => standing
  | cons item rest ih => exact (each item).append ih

theorem numbers_notes {calls : List Call} (notes : ∀ call ∈ calls, call.isNote = true) :
    Numbers (.ofCalls calls) (Standing outer names count) (Standing outer names count) := by
  induction calls with
  | nil => exact numbers_empty fun _ standing => standing
  | cons call rest ih =>
      obtain ⟨note, later⟩ := List.forall_mem_cons.mp notes
      have own : Numbers (.ofCalls [call]) (Standing outer names count)
          (Standing outer names count) := by
        refine numbers_own ?_ ?_ fun body counted => counted.other ?_ fun name => ?_
        all_goals cases call <;> first | rfl | cases note
      exact own.append (ih later)

/-! ### Members -/

variable (resolver : Resolver) (owner : String) (inInterface : Bool)

theorem numbers_field (declaration : FieldDeclaration) :
    Numbers (fieldTrace resolver inInterface declaration) (Standing outer names count)
      (Standing outer names count) := by
  refine numbers_join _ fun declarator =>
    numbers_ofCall (fun _ => Standing.numbered) fun call told => ?_
  obtain ⟨type, _, told⟩ := Steps.bind_ok_iff.mp told
  cases told
  exact numbers_own rfl rfl fun body counted => counted.other rfl fun _ => rfl

theorem numbers_constructor (declaration : ExecutableDeclaration) :
    Numbers (constructorTrace resolver declaration count) (Standing outer names count)
      (Standing outer names (count + 1)) := by
  refine numbers_ofCall (fun _ => Standing.numbered) fun call told => ?_
  simp only [Steps.bind_ok_iff, Steps.pure_ok_iff] at told
  obtain ⟨types, _, exceptions, _, rfl⟩ := told
  exact numbers_own rfl rfl fun body counted => counted.constructor _ _ _ _ _

theorem numbers_methodDoc (declaration : ExecutableDeclaration) (types : List TypeRef) :
    Numbers (methodDocTrace owner declaration types) (Standing outer names count)
      (Standing outer names count) := by
  unfold methodDocTrace
  split
  · exact numbers_empty fun _ standing => standing
  · refine (numbers_notes (by simp [isNote])).append
      (numbers_ofCall (fun _ => Standing.numbered) fun call told => ?_)
    simp only [Steps.bind_ok_iff, Steps.pure_ok_iff] at told
    obtain ⟨signature, _, rfl⟩ := told
    exact numbers_notes (by simp [isNote])

theorem numbers_method (declaration : ExecutableDeclaration) :
    Numbers (methodTrace resolver owner inInterface declaration (names.count declaration.name))
      (Standing outer names count) (Standing outer (declaration.name :: names) count) := by
  unfold methodTrace
  split
  · refine numbers_empty fun bodies standing => ?_
    obtain ⟨⟨body, whole, counted⟩, around⟩ := standing
    exact ⟨⟨body, whole, counted.skip declaration.name⟩, around⟩
  · dsimp only
    split
    · exact numbers_stop (fun _ => Standing.numbered) _
    · refine Numbers.append ?_ (numbers_methodDoc owner declaration _)
      exact numbers_own rfl rfl fun body counted => counted.method _ _ _ _ _ _ _

theorem numbers_typeDoc (name : String) (heading : TypeHeading) :
    Numbers (typeDocTrace name heading) (Standing outer names count)
      (Standing outer names count) := by
  unfold typeDocTrace
  split
  · exact numbers_empty fun _ standing => standing
  · exact numbers_notes (by simp [isNote])

theorem numbers_of_each
    (each : ∀ bodies, before bodies → Numbers trace (fun given => given = bodies) after) :
    Numbers trace before after where
  throughout bodies given := (each bodies given).throughout bodies rfl
  leaves bodies given := (each bodies given).leaves bodies rfl

/-- A container begins with an empty body and ends with the bodies it began with. -/
theorem numbers_container {opening : Except Fault Call} {inner : Trace} {closing : Call}
    (numbered : ∀ body ∈ bodies, Numbered body)
    (opens : ∀ call, opening = .ok call → call.opening?.isSome = true)
    (silent : closing.opening? = none) (closes : closing.closes?.isSome = true)
    (numbers : Numbers inner (Standing bodies [] 0) fun given =>
      ∃ names count, Standing bodies names count given) :
    Numbers (Trace.ofCall opening ++ inner ++ Trace.ofCalls [closing])
      (fun given => given = bodies) (fun given => given = bodies) := by
  have begun : ∀ given, given = bodies → ∀ body ∈ given, Numbered body := by
    rintro _ rfl
    exact numbered
  have opened : Numbers (Trace.ofCall opening) (fun given => given = bodies)
      (Standing bodies [] 0) := by
    refine numbers_ofCall begun fun call told => ?_
    refine numbers_call begun ?_ fun _ => Standing.numbered
    rintro _ rfl
    exact ⟨⟨[], by simp [place, opens call told], counted_nil⟩, numbered⟩
  refine (opened.append numbers).append (numbers_call ?_ ?_ begun)
  · rintro given ⟨names, count, standing⟩
    exact standing.numbered
  · rintro _ ⟨names, count, ⟨body, rfl, _⟩, _⟩
    simp [place, silent, closes]

/-- The methods and constructors counted after a member. -/
def Member.counted (methods : List String) (constructors : Nat) : Member → List String × Nat
  | .method declaration => (declaration.name :: methods, constructors)
  | .constructor _ => (methods, constructors + 1)
  | _ => (methods, constructors)

mutual

theorem numbers_member (resolver : Resolver) (owner : String) (inInterface : Bool)
    (outer : List (List Call)) (methods : List String) (constructors : Nat) : ∀ member : Member,
    Numbers (memberTrace resolver owner inInterface methods constructors member)
      (Standing outer methods constructors)
      (Standing outer (member.counted methods constructors).1
        (member.counted methods constructors).2)
  | .field declaration => numbers_field resolver inInterface declaration
  | .method declaration => numbers_method resolver owner inInterface declaration
  | .constructor declaration => numbers_constructor resolver declaration
  | .type heading members => by
      refine numbers_of_each fun bodies standing => ?_
      rw [memberTrace]
      have opens (call : Call) (told : openCall (resolver.enter heading.typeVariables)
          (Dotted.within owner heading.name) inInterface heading = .ok call) :
          call.opening?.isSome = true := by
        rw [opening_of_openCall told]
        rfl
      rw [Trace.append_assoc (Trace.ofCall _)]
      refine (numbers_container standing.numbered opens ?_ ?_ ?_).mono
        fun given same => same ▸ standing
      · cases heading.sort <;> rfl
      · cases heading.sort <;> rfl
      · exact (numbers_typeDoc _ heading).append (numbers_members _ _ _ bodies [] 0 members)

theorem numbers_members (resolver : Resolver) (owner : String) (inInterface : Bool)
    (outer : List (List Call)) (methods : List String) (constructors : Nat) :
    ∀ members : List Member,
    Numbers (memberTraces resolver owner inInterface methods constructors members)
      (Standing outer methods constructors) fun given =>
        ∃ methods constructors, Standing outer methods constructors given
  | [] => numbers_empty fun _ standing => ⟨methods, constructors, standing⟩
  | member :: rest => by
      have this := numbers_member resolver owner inInterface outer methods constructors member
      have later := fun methods constructors =>
        numbers_members resolver owner inInterface outer methods constructors rest
      cases member <;> exact this.append (later _ _)

end

/-! ### Units -/

theorem numbers_outline (outline : Outline) (symbols : SymbolTable) :
    Numbers (outline.trace symbols) (Standing [] [] 0) fun given =>
      ∃ names count, Standing [] names count given := by
  have types (outer : List (List Call)) := numbers_members (outline.resolver symbols)
    outline.package false outer [] 0 outline.types
  unfold Outline.trace
  by_cases empty : outline.package = ""
  · simp only [if_pos empty]
    exact types []
  · simp only [if_neg empty]
    refine numbers_of_each fun bodies standing => ?_
    have opens : ∀ call, (.ok (.startPackage (.text outline.package)) : Except Fault Call) =
        .ok call → call.opening?.isSome = true := by
      rintro _ ⟨⟩
      rfl
    have closes : Call.endPackage.closes?.isSome = true := rfl
    refine (numbers_container standing.numbered opens rfl closes (types bodies)).mono ?_
    rintro _ rfl
    exact ⟨[], 0, standing⟩

theorem numbers_unit (symbols : SymbolTable) (path : String) (root : Node) :
    Numbers (unitTrace symbols path root) (Standing [] [] 0) fun given =>
      ∃ names count, Standing [] names count given :=
  Numbers.append (numbers_notes (errors_notes root path)) (numbers_outline _ symbols)

end

/-! ### What a unit is told with -/

variable {owner : String}

theorem Member.Told.inner {previous : Option Node} {node : Node} {calls : List Call}
    (told : Member.Told owner previous node calls) (undotted : node.Undotted) :
    ∀ call ∈ calls, call.Inner := by
  intro call listed
  refine ⟨.inr (.inr (told.unmarked call listed)), fun name overload given => ?_⟩
  have named : call.placedName? = some (.text name) := by
    unfold executable? at given
    split at given <;> cases given
    rfl
  exact told.undotted undotted name (List.mem_filterMap.mpr ⟨call, listed, named⟩)

theorem inner_of_opening {call : Call} (opens : call.opening?.isSome = true) : call.Inner where
  place := .inl opens
  undotted name overload given := by cases call <;> first | cases given | cases opens

theorem inner_of_closing {call : Call} (closes : call.closes?.isSome = true) : call.Inner where
  place := .inr (.inl closes)
  undotted name overload given := by cases call <;> first | cases given | cases closes

theorem Blocks.inner {nodes : List (Option Node × Node)} {calls : List Call}
    (blocks : Blocks owner nodes calls) (undotted : ∀ node ∈ nodes, node.2.Undotted) :
    ∀ call ∈ calls, call.Inner := by
  induction blocks with
  | nil => exact nofun
  | member told after ih =>
      obtain ⟨this, others⟩ := List.forall_mem_cons.mp undotted
      exact List.forall_mem_append.mpr ⟨told.inner this, ih others⟩
  | @block owner previous node name rest opening inner later sort declaration named opens inside
      after inner_ih later_ih =>
      obtain ⟨this, others⟩ := List.forall_mem_cons.mp undotted
      have begins : opening.Inner := inner_of_opening (by rw [opens]; rfl)
      have notes : ∀ call ∈ documented previous
          (.classDoc · (.text (Dotted.within owner name.text))), call.Inner := fun call listed =>
        inner_of_isNote (documented_notes previous (fun _ => rfl) call listed)
      have ends : (closeCall sort).Inner := inner_of_closing (by cases sort <;> rfl)
      have within := inner_ih fun _ => this.member
      simp only [List.cons_append, List.forall_mem_cons, List.forall_mem_append]
      exact ⟨begins, ⟨notes, within⟩, ends, later_ih others⟩
  | nothing untold after ih => exact ih (List.forall_mem_cons.mp undotted).2

theorem unit_inner {symbols : SymbolTable} {path : String} {root : Node}
    (read : (unitTrace symbols path root).fault = none) (undotted : root.Undotted) :
    ∀ call ∈ (unitTrace symbols path root).calls, call.Inner := by
  obtain ⟨blocks, told, calls⟩ := unit_calls read
  have names : ∀ declaration ∈ root.typeDeclarations, declaration.2.Undotted := fun _ listed =>
    undotted.child (Node.mem_of_mem_withPrevious (List.mem_filter.mp listed).1)
  have inside := told.inner names
  rw [calls]
  refine List.forall_mem_append.mpr ⟨fun call listed => ?_, ?_⟩
  · exact inner_of_isNote (errors_notes root path call listed)
  · unfold packaged
    split
    · exact inside
    · simp only [List.cons_append, List.forall_mem_cons, List.forall_mem_append]
      exact ⟨inner_of_opening rfl, inside, inner_of_closing rfl, nofun⟩

/-- At every point of a unit the bodies of all open containers are numbered. Where the names have no
dots, a builder that accepts what is told up to there has signatures for all executables of a body,
and no two of them are the same. -/
theorem executables_numbered (symbols : SymbolTable) (path : String) (root : Node) :
    let trace := unitTrace symbols path root
    ∀ start, start <+: trace.calls →
      (∀ body ∈ bodies id start, Numbered body) ∧
      (trace.fault = none → root.Undotted → ∀ (σ : Type) [TripleStore σ] (builder : Builder σ),
        (Handler.handleAll builder start).1 = none →
          ∀ body ∈ bodies Prod.snd (builder.met start),
            (∀ item ∈ body, item.2.signing?.isSome = true →
              ∃ signature, item.1.signature? item.2 = some signature) ∧
            (body.filterMap fun item => item.1.signature? item.2).Nodup) := by
  intro trace start within
  have begun : Standing [] [] 0 [[]] := ⟨⟨[], rfl, counted_nil⟩, nofun⟩
  have numbered : ∀ body ∈ bodies id start, Numbered body :=
    (numbers_unit symbols path root).throughout [[]] begun start within
  refine ⟨numbered, fun read undotted σ _ builder passed => ?_⟩
  have inner := unit_inner read undotted
  exact Builder.signatures_apart passed (fun call told => inner call (within.subset told)) numbered

/-- A class with two methods of one name, and between them one without a type, which is not told. -/
def classOfOverloads : Node :=
  let named := fun text => Node.atStart "identifier" text (some "name") []
  let method := Node.atStart "method_declaration" "" none
    [.atStart "void_type" "void" (some "type") [], named "f"]
  .atStart "program" "" none
    [.atStart "class_declaration" "" none
      [named "A", .atStart "class_body" "" (some "body")
        [method, .atStart "method_declaration" "" none [named "f"], method]]]

def overloadRules : Ontology :=
  .ofRelations
    ([EntityKind.classType, .method, .signature].map (fun kind =>
      ⟨kind.pattern, Predicate.subClassOf.uri, .resource kind.uri⟩) ++
    [.classType, .method].flatMap (fun kind =>
      [Ontology.noteRule kind .hasVisibility, Ontology.noteRule kind .hasModifiers]) ++
    [Ontology.linkRule .package (.contains .classType) .classType,
      Ontology.linkRule .classType (.contains .method) .method,
      Ontology.linkRule .method (.contains .signature) .signature,
      Ontology.noteRule .signature .returnType])

theorem classOfOverloads_numbered :
    let trace := unitTrace .empty "A.java" classOfOverloads
    let builder := Handler.after (Builder.start ⟨overloadRules, .empty, PlainStore.empty⟩
      "2024-01-01") [.startParsing (.text "l") (.text "A.java")]
    let start := trace.calls.take 3
    trace.fault = none ∧ classOfOverloads.Undotted ∧ (Handler.handleAll builder start).1 = none ∧
      (start.filterMap (methodNumber? "f")).map Value.plain = ["0", "2"] ∧
      ∃ body ∈ bodies Prod.snd (builder.met start),
        body.length = 2 ∧ (body.filterMap fun item => item.1.signature? item.2).Nodup := by
  intro trace builder start
  have read : trace.fault = none := Option.isNone_iff_eq_none.mp (by decide +kernel)
  have undotted : classOfOverloads.Undotted := by decide +kernel
  have passed : (Handler.handleAll builder start).1 = none :=
    Option.isNone_iff_eq_none.mp (by decide +kernel)
  have two : 2 ∈ (bodies id start).map List.length := by decide +kernel
  rw [← Builder.map_met builder start, bodies_map, List.map_map] at two
  obtain ⟨body, listed, length⟩ := List.mem_map.mp two
  rw [Function.comp_apply, List.length_map] at length
  obtain ⟨_, signed⟩ := executables_numbered .empty "A.java" classOfOverloads start
    (List.take_prefix 3 trace.calls)
  exact ⟨read, undotted, passed, by decide +kernel, body, listed, length,
    (signed read undotted PlainStore builder passed body listed).2⟩

end CodeFacts.Source
