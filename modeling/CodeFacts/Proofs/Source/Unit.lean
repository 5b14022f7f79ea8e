import CodeFacts.Proofs.Source.Driven
import CodeFacts.Proofs.Source.Stack
import CodeFacts.Proofs.Source.Surroundings

/-!
How a whole unit is told: its parse errors, and inside its package one block for each type it
declares.
-/

namespace CodeFacts.Source

/-- Calls inside a package; the empty name stands for none. -/
def packaged (package : String) (calls : List Call) : List Call :=
  if package = "" then calls else .startPackage (.text package) :: calls ++ [.endPackage]

theorem outline_trace (symbols : SymbolTable) (root : Node) :
    let types := memberTraces ((Outline.ofRoot root).resolver symbols) (packageName root) false [] 0
      (root.typeDeclarations.filterMap readMember)
    (Outline.ofRoot root).trace symbols =
      if packageName root = "" then types
      else Trace.ofCalls [.startPackage (.text (packageName root))] ++ types ++
        Trace.ofCalls [.endPackage] := by
  have types : (Outline.ofRoot root).types = root.typeDeclarations.filterMap readMember :=
    typesAfter_eq none root.children
  rw [← types]
  rfl

variable {known : Surroundings → Resolver → Prop}
  {told : Surroundings → Option Node × Node → List Call → Prop} {symbols : SymbolTable}
  {path : String} {root : Node}

theorem outline_telling (kept : Kept known told)
    (right : known (.ofUnit root) ((Outline.ofRoot root).resolver symbols))
    (read : ((Outline.ofRoot root).trace symbols).fault = none) :
    ∃ blocks, Telling told (.ofUnit root) root.typeDeclarations blocks ∧
      ((Outline.ofRoot root).trace symbols).calls = packaged (packageName root) blocks := by
  rw [outline_trace] at read ⊢
  by_cases empty : packageName root = ""
  · simp only [packaged, if_pos empty] at read ⊢
    exact ⟨_, kept.telling right read, rfl⟩
  · simp only [packaged, if_neg empty] at read ⊢
    obtain ⟨front, _, whole⟩ := Trace.of_append read
    obtain ⟨_, inside, front_calls⟩ := Trace.of_append front
    exact ⟨_, kept.telling right inside, by rw [whole, front_calls]; rfl⟩

theorem outline_calls (read : ((Outline.ofRoot root).trace symbols).fault = none) :
    ∃ blocks, Blocks (packageName root) root.typeDeclarations blocks ∧
      ((Outline.ofRoot root).trace symbols).calls = packaged (packageName root) blocks := by
  obtain ⟨blocks, telling, calls⟩ := outline_telling kept_told trivial read
  exact ⟨blocks, telling.blocks fun _ _ _ told => told, calls⟩

theorem unit_telling (kept : Kept known told)
    (right : known (.ofUnit root) ((Outline.ofRoot root).resolver symbols))
    (read : (unitTrace symbols path root).fault = none) :
    ∃ blocks, Telling told (.ofUnit root) root.typeDeclarations blocks ∧
      (unitTrace symbols path root).calls =
        root.errors path ++ packaged (packageName root) blocks := by
  obtain ⟨_, told, calls⟩ := Trace.of_append read
  obtain ⟨blocks, inside, same⟩ := outline_telling kept right told
  exact ⟨blocks, inside, by rw [← same]; exact calls⟩

theorem unit_calls (read : (unitTrace symbols path root).fault = none) :
    ∃ blocks, Blocks (packageName root) root.typeDeclarations blocks ∧
      (unitTrace symbols path root).calls =
        root.errors path ++ packaged (packageName root) blocks := by
  obtain ⟨blocks, telling, calls⟩ := unit_telling kept_told trivial read
  exact ⟨blocks, telling.blocks fun _ _ _ told => told, calls⟩

/-! ### Builders -/

variable {σ : Type} [TripleStore σ]

theorem errors_notes (root : Node) (path : String) :
    ∀ call ∈ root.errors path, call.isNote = true := by
  intro call listed
  obtain ⟨node, _, described⟩ := List.mem_filterMap.mp listed
  obtain ⟨description, _, rfl⟩ := Option.map_eq_some_iff.mp described
  rfl

theorem passes_errors (path : String) (root : Node) (builder : Builder σ) :
    builder.Passes (root.errors path) fun next => next.standing = builder.standing :=
  Builder.passes_notes (errors_notes root path)

theorem passes_packaged {package : String} {root : Node} {blocks : List Call}
    (told : Blocks package root.typeDeclarations blocks) (undotted : root.Undotted)
    {builder : Builder σ} (apart : package = "" → builder.scopes = []) (deep : builder.Deep) :
    builder.Passes (packaged package blocks) fun next => next.standing = builder.standing := by
  have names : ∀ declaration ∈ root.typeDeclarations, declaration.2.Undotted := fun _ listed =>
    undotted.child (Node.mem_of_mem_withPrevious (List.mem_filter.mp listed).1)
  unfold packaged
  by_cases empty : package = ""
  · rw [if_pos empty]
    refine told.passes names builder ?_ deep
    rw [Builder.At, apart empty]
    exact empty
  · rw [if_neg empty]
    have opened : builder.Passes [.startPackage (.text package)] _ := Builder.passes_startPackage
    have inside := opened.append fun next entered =>
      (told.passes names next (entered.at empty) (entered.deep deep)).mono
        fun _ same => entered.same same
    exact inside.append fun next entered => Builder.passes_closing deep entered rfl

theorem passes_run {builder : Builder σ} {trace : Trace} {reached : Builder σ → Prop}
    (passes : builder.Passes trace.calls reached) (whole : trace.fault = none) :
    (∀ declared expected, .packageDiscrepancy declared expected ∉ (trace.run builder).2.1) ∧
      (∀ cause, (trace.run builder).1 ≠ some (.scope cause)) ∧
      ((trace.run builder).1 = none → reached (trace.run builder).2.2) := by
  obtain ⟨quiet, balanced, reaches⟩ := passes
  have run : trace.run builder = Handler.handleAll builder trace.calls := by
    simp only [Trace.run, whole, Option.or_none]
  rw [run]
  exact ⟨quiet, fun cause refused => balanced _ refused cause rfl, reaches⟩

/-- A unit that can be read is told as its parse errors and, in its package, one block for each type
declaration that is reached through bodies of declarations with names, in the order of the text.
Told with one stack of type variables to any handler, whatever it refuses, the stack ends as it
began. A builder that is told the unit where its package can stand, with no name that has a dot,
finds no name out of its place, refuses nothing for want of balance, and ends where it began. -/
theorem unit_told_in_blocks (symbols : SymbolTable) (path : String) (root : Node)
    (read : (unitTrace symbols path root).fault = none) :
    let package := packageName root
    let outline := Outline.ofRoot root
    (∃ blocks, Blocks package root.typeDeclarations blocks ∧
      (unitTrace symbols path root).calls = root.errors path ++ packaged package blocks ∧
      openings blocks = root.typeDeclarations.flatMap fun declaration =>
        declaration.2.declaredTypes package) ∧
    (∀ (η : Type) [Handler η] (stage : Stage η), stage.resolver = outline.resolver symbols →
      outline.act stage = Act.tell (outline.trace symbols) stage ∧
        (outline.act stage).2.resolver.scopes = stage.resolver.scopes) ∧
    (root.Undotted → ∀ (σ : Type) [TripleStore σ] (model : Model σ) (date : String)
      (calls : List Call),
      let builder := Handler.after (Builder.start model date) calls
      let run := (unitTrace symbols path root).run builder
      (package = "" → builder.scopes = []) →
        (∀ declared expected, .packageDiscrepancy declared expected ∉ run.2.1) ∧
          (∀ cause, run.1 ≠ some (.scope cause)) ∧
          (run.1 = none → run.2.2.standing = builder.standing)) := by
  intro package outline
  obtain ⟨blocks, told, calls⟩ := unit_calls read
  refine ⟨⟨blocks, told, calls, told.openings⟩, ?_, ?_⟩
  · intro η _ stage begun
    have tells := tells_outline outline symbols stage begun
    exact ⟨tells, by rw [tells]; rfl⟩
  · intro undotted σ _ model date before builder run apart
    have fresh : (Builder.start model date).Deep := nofun
    have deep : builder.Deep := fresh.after before
    have passes : builder.Passes (unitTrace symbols path root).calls
        fun next => next.standing = builder.standing := by
      rw [calls]
      refine (passes_errors path root builder).append fun next same => ?_
      rw [← same]
      refine passes_packaged told undotted (fun empty => ?_) (deep.same same)
      have scopes : next.scopes = builder.scopes :=
        congrArg (fun standing => standing.2.1) same
      exact scopes.trans (apart empty)
    exact passes_run passes read

theorem nestedClass_told :
    let name := fun text => Node.atStart "identifier" text (some "name") []
    let inner := Node.atStart "class_declaration" "class B {}" none
      [name "B", .atStart "class_body" "{}" (some "body") []]
    let outer := Node.atStart "class_declaration" "class A { class B {} }" none
      [name "A", .atStart "class_body" "{ class B {} }" (some "body") [inner]]
    let root := Node.atStart "program" "" none
      [.atStart "package_declaration" "package p.q;" none
        [.atStart "scoped_identifier" "p.q" none []],
        .atStart "block_comment" "/** The outer one. */" none [], outer]
    let trace := unitTrace .empty "A.java" root
    let builder := Handler.after (Builder.start ⟨.empty, .empty, PlainStore.empty⟩ "2024-01-01") []
    trace.fault = none ∧ root.Undotted ∧ (packageName root = "" → builder.scopes = []) ∧
      trace.calls.length = 8 ∧
      (∃ blocks, Blocks (packageName root) root.typeDeclarations blocks ∧
        trace.calls = root.errors "A.java" ++ packaged (packageName root) blocks) ∧
      ∀ cause, (trace.run builder).1 ≠ some (.scope cause) := by
  intro name inner outer root trace builder
  have read : trace.fault = none := Option.isNone_iff_eq_none.mp (by decide +kernel)
  have undotted : root.Undotted := by decide +kernel
  have apart : packageName root = "" → builder.scopes = [] := by decide +kernel
  obtain ⟨⟨blocks, told, calls, _⟩, _, driven⟩ := unit_told_in_blocks .empty "A.java" root read
  obtain ⟨_, balanced, _⟩ := driven undotted PlainStore _ "2024-01-01" _ apart
  exact ⟨read, undotted, apart, by decide +kernel, ⟨blocks, told, calls⟩, balanced⟩

/-- A declaration without a name hides the declarations in its body, names or not. -/
theorem namelessClass_hides :
    let name := Node.atStart "identifier" "B" (some "name") []
    let inner := Node.atStart "class_declaration" "class B {}" none
      [name, .atStart "class_body" "{}" (some "body") []]
    let outer := Node.atStart "class_declaration" "class { class B {} }" none
      [.atStart "class_body" "{ class B {} }" (some "body") [inner]]
    let root := Node.atStart "program" "class { class B {} }" none [outer]
    let trace := unitTrace .empty "A.java" root
    root.typeDeclarations = [(none, outer)] ∧ outer.members = [(none, inner)] ∧
      typeSort? inner.type = some .classType ∧ (inner.field? "name").isSome ∧
      trace.fault = none ∧ trace.calls = [] := by
  intro name inner outer root trace
  refine ⟨?_, ?_, by decide +kernel, by decide +kernel, ?_, ?_⟩
  · show List.filter _ [(none, outer)] = _
    exact List.filter_cons_of_pos (by decide +kernel)
  · rw [Node.members]
    rfl
  · exact Option.isNone_iff_eq_none.mp (by decide +kernel)
  · exact List.isEmpty_iff.mp (by decide +kernel)

end CodeFacts.Source
