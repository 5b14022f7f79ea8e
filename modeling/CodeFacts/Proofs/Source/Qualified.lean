import CodeFacts.Proofs.Entries
import CodeFacts.Source.Resolver
import Mathlib.Data.List.Infix

/-!
What written names stand for after any imports, types of the unit and scopes. Of the types that a
simple name may be that of, the first one counts; where there is none the name is taken to be in the
package, and then no place that is looked at has it.
-/

namespace CodeFacts.Source.Resolver

/-- One thing that a resolver is told. -/
inductive Change where
  | importType (name : String)
  | importPackage (name : String)
  | declare (name : String)
  | enter (names : List String)
  | leave

/-- A resolver after a change. Where no scope is open, leaving one changes nothing. -/
def Change.applied (resolver : Resolver) : Change → Resolver
  | .importType name => resolver.importType name
  | .importPackage name => resolver.importPackage name
  | .declare name => resolver.declare name
  | .enter names => resolver.enter names
  | .leave => resolver.leave.toOption.getD resolver

def after (resolver : Resolver) (changes : List Change) : Resolver :=
  changes.foldl Change.applied resolver

def Change.importedType? : Change → Option String
  | .importType name => some name
  | _ => none

def Change.importedPackage? : Change → Option String
  | .importPackage name => some name
  | _ => none

def Change.declaredType? : Change → Option String
  | .declare name => some name
  | _ => none

/-- The type that is imported by itself under a simple name: the last one. -/
def importedAs (changes : List Change) (name : String) : Option String :=
  (changes.filterMap Change.importedType?).reverse.find? (Dotted.simple · == name)

/-- The type of the unit that a simple name is that of: the first one. -/
def declaredAs (changes : List Change) (name : String) : Option String :=
  (changes.filterMap Change.declaredType?).find? (Dotted.simple · == name)

def importedPackages (changes : List Change) : List String :=
  changes.filterMap Change.importedPackage?

variable {resolver : Resolver} {change : Change} {changes rest : List Change} {name : String}

theorem after_cons : resolver.after (change :: rest) = (change.applied resolver).after rest :=
  rfl

theorem applied_leave :
    Change.applied resolver .leave = { resolver with scopes := resolver.scopes.tail } := by
  obtain ⟨_, _, _, _, _, scopes⟩ := resolver
  cases scopes <;> rfl

theorem applied_importPackage (package : String) :
    Change.applied resolver (.importPackage package) =
      { resolver with onDemandImports :=
          if package ∈ resolver.onDemandImports then resolver.onDemandImports
          else resolver.onDemandImports ++ [package] } := by
  by_cases present : package ∈ resolver.onDemandImports <;>
    simp [Change.applied, importPackage, present]

/-! ### What a resolver knows after changes -/

theorem package_after (resolver : Resolver) (changes : List Change) :
    (resolver.after changes).package = resolver.package := by
  induction changes generalizing resolver with
  | nil => rfl
  | cons change rest ih =>
      rw [after_cons, ih]
      cases change with
      | importPackage package => rw [applied_importPackage]
      | leave => rw [applied_leave]
      | _ => rfl

theorem symbols_after (resolver : Resolver) (changes : List Change) :
    (resolver.after changes).symbols = resolver.symbols := by
  induction changes generalizing resolver with
  | nil => rfl
  | cons change rest ih =>
      rw [after_cons, ih]
      cases change with
      | importPackage package => rw [applied_importPackage]
      | leave => rw [applied_leave]
      | _ => rfl

theorem find?_filterMap_cons {α β : Type} (read : α → Option β) (test : β → Bool) (item : α)
    (rest : List α) :
    ((item :: rest).filterMap read).find? test =
      ((read item).filter test).or ((rest.filterMap read).find? test) := by
  rw [List.filterMap_cons]
  cases read item with
  | none => simp
  | some value => cases passes : test value <;> simp [passes, Option.filter_some]

theorem importedAs_cons :
    importedAs (change :: rest) name =
      (importedAs rest name).or (change.importedType?.filter (Dotted.simple · == name)) := by
  unfold importedAs
  rw [List.filterMap_cons]
  cases change.importedType? with
  | none => simp
  | some type => simp [List.find?_append, List.find?_singleton, Option.filter_some]

theorem get?_singleImports (resolver : Resolver) (changes : List Change) (name : String) :
    Entries.get? (resolver.after changes).singleImports name =
      (importedAs changes name).or (Entries.get? resolver.singleImports name) := by
  induction changes generalizing resolver with
  | nil => simp [after, importedAs]
  | cons change rest ih =>
      rw [after_cons, ih, importedAs_cons, Option.or_assoc]
      congr 1
      cases change with
      | importType type =>
          simp only [Change.applied, importType, Change.importedType?, Entries.get?_put]
          by_cases same : Dotted.simple type = name <;> simp [same, Option.filter_some]
      | importPackage package => simp [applied_importPackage, Change.importedType?]
      | leave => simp [applied_leave, Change.importedType?]
      | _ => simp [Change.applied, Resolver.declare, enter, Change.importedType?]

theorem declaredAs_cons :
    declaredAs (change :: rest) name =
      (change.declaredType?.filter (Dotted.simple · == name)).or (declaredAs rest name) :=
  find?_filterMap_cons ..

theorem get?_localTypes (resolver : Resolver) (changes : List Change) (name : String) :
    Entries.get? (resolver.after changes).localTypes name =
      (Entries.get? resolver.localTypes name).or (declaredAs changes name) := by
  induction changes generalizing resolver with
  | nil => simp [after, declaredAs]
  | cons change rest ih =>
      rw [after_cons, ih, declaredAs_cons, ← Option.or_assoc]
      congr 1
      cases change with
      | declare type =>
          simp only [Change.applied, Resolver.declare, Change.declaredType?, Entries.get?_putNew]
          by_cases same : Dotted.simple type = name <;> simp [same, Option.filter_some]
      | importPackage package => simp [applied_importPackage, Change.declaredType?]
      | leave => simp [applied_leave, Change.declaredType?]
      | _ => simp [Change.applied, importType, enter, Change.declaredType?]

/-- A package imported again is looked at where it came first, so repeats cannot be told. -/
theorem find?_onDemandImports (resolver : Resolver) (changes : List Change)
    (test : String → Bool) :
    (resolver.after changes).onDemandImports.find? test =
      (resolver.onDemandImports.find? test).or ((importedPackages changes).find? test) := by
  induction changes generalizing resolver with
  | nil => simp [after, importedPackages]
  | cons change rest ih =>
      unfold importedPackages at *
      rw [after_cons, ih, find?_filterMap_cons, ← Option.or_assoc]
      congr 1
      cases change with
      | importPackage package =>
          simp only [applied_importPackage, Change.importedPackage?, Option.filter_some]
          by_cases present : package ∈ resolver.onDemandImports
          · rw [if_pos present]
            cases found : resolver.onDemandImports.find? test with
            | some first => rfl
            | none =>
                have fails := List.find?_eq_none.mp found package present
                simp [fails]
          · rw [if_neg present, List.find?_append, List.find?_singleton]
      | leave => simp [applied_leave, Change.importedPackage?]
      | _ => simp [Change.applied, importType, Resolver.declare, enter, Change.importedPackage?]

/-! ### Which scopes are open -/

def Change.opens : Change → Bool
  | .enter _ => true
  | _ => false

def Change.closes : Change → Bool
  | .leave => true
  | _ => false

/-- Whether a scope that has some others inside of it stays open along changes: at no time have more
scopes been left than the ones inside of it and those entered since. -/
def Lasts (inside : Nat) (changes : List Change) : Prop :=
  ∀ start, start <+: changes → start.countP Change.closes ≤ start.countP Change.opens + inside

/-- Whether a scope of some type variables is entered along changes and still open at the end. -/
def Opened (changes : List Change) (scope : List String) : Prop :=
  ∃ before since, changes = before ++ .enter scope :: since ∧ Lasts 0 since

variable {inside : Nat} {scope : List String}

theorem lasts_nil : Lasts inside [] := by
  intro start cut
  simp [List.prefix_nil.mp cut]

theorem lasts_cons :
    Lasts inside (change :: rest) ↔ ∀ start, start <+: rest →
      (change :: start).countP Change.closes ≤ (change :: start).countP Change.opens + inside := by
  constructor
  · intro lasts start cut
    exact lasts (change :: start) (List.prefix_cons_inj change |>.mpr cut)
  · intro each start cut
    rcases List.prefix_cons_iff.mp cut with rfl | ⟨later, rfl, behind⟩
    · simp
    · exact each later behind

theorem lasts_enter {names : List String} :
    Lasts inside (.enter names :: rest) ↔ Lasts (inside + 1) rest := by
  rw [lasts_cons]
  refine forall₂_congr fun start _ => ?_
  simp only [List.countP_cons, Change.closes, Change.opens, Bool.false_eq_true, if_false, if_true]
  omega

theorem lasts_leave : Lasts (inside + 1) (.leave :: rest) ↔ Lasts inside rest := by
  rw [lasts_cons]
  refine forall₂_congr fun start _ => ?_
  simp only [List.countP_cons, Change.closes, Change.opens, Bool.false_eq_true, if_false, if_true]
  omega

theorem not_lasts_leave : ¬ Lasts 0 (.leave :: rest) := by
  intro lasts
  have bound := lasts [.leave] (by simp)
  simp [Change.closes, Change.opens] at bound

theorem lasts_other (opens : change.opens = false) (closes : change.closes = false) :
    Lasts inside (change :: rest) ↔ Lasts inside rest := by
  rw [lasts_cons]
  refine forall₂_congr fun start _ => ?_
  simp [opens, closes]

theorem opened_cons :
    Opened (change :: rest) scope ↔ change = .enter scope ∧ Lasts 0 rest ∨ Opened rest scope := by
  constructor
  · rintro ⟨before, since, whole, lasts⟩
    cases before with
    | nil =>
        obtain ⟨rfl, rfl⟩ := List.cons.inj whole
        exact .inl ⟨rfl, lasts⟩
    | cons first before =>
        obtain ⟨rfl, rfl⟩ := List.cons.inj whole
        exact .inr ⟨before, since, rfl, lasts⟩
  · rintro (⟨rfl, lasts⟩ | ⟨before, since, rfl, lasts⟩)
    · exact ⟨[], rest, rfl, lasts⟩
    · exact ⟨change :: before, since, rfl, lasts⟩

/-- After changes the scopes are those that were open before or have been entered, and have not been
left since. -/
theorem mem_scopes_after (resolver : Resolver) (changes : List Change) (scope : List String) :
    scope ∈ (resolver.after changes).scopes ↔
      (∃ inside, resolver.scopes[inside]? = some scope ∧ Lasts inside changes) ∨
        Opened changes scope := by
  induction changes generalizing resolver with
  | nil =>
      have never : ¬ Opened [] scope := by
        rintro ⟨before, since, whole, _⟩
        simp at whole
      simp [after, lasts_nil, never, List.mem_iff_getElem?]
  | cons change rest ih =>
      rw [after_cons, ih, opened_cons, ← or_assoc]
      refine or_congr_left ?_
      -- Entering moves every scope one further in, leaving drops the innermost and moves them back.
      cases change with
      | enter names =>
          simp only [Change.applied, enter, lasts_enter, Change.enter.injEq]
          constructor
          · rintro ⟨inside, found, lasts⟩
            cases inside with
            | zero => exact .inr ⟨by simpa using found, lasts⟩
            | succ inside => exact .inl ⟨inside, by simpa using found, lasts⟩
          · rintro (⟨inside, found, lasts⟩ | ⟨rfl, lasts⟩)
            · exact ⟨inside + 1, by simpa using found, lasts⟩
            · exact ⟨0, by simp, lasts⟩
      | leave =>
          simp only [applied_leave, reduceCtorEq, false_and, or_false, List.getElem?_tail]
          constructor
          · rintro ⟨inside, found, lasts⟩
            exact ⟨inside + 1, found, lasts_leave.mpr lasts⟩
          · rintro ⟨inside, found, lasts⟩
            cases inside with
            | zero => exact absurd lasts not_lasts_leave
            | succ inside => exact ⟨inside, found, lasts_leave.mp lasts⟩
      | importType type =>
          have same {inside : Nat} : Lasts inside (.importType type :: rest) ↔ Lasts inside rest :=
            lasts_other rfl rfl
          simp [Change.applied, importType, same]
      | importPackage package =>
          have same {inside : Nat} :
              Lasts inside (.importPackage package :: rest) ↔ Lasts inside rest :=
            lasts_other rfl rfl
          simp [applied_importPackage, same]
      | declare type =>
          have same {inside : Nat} : Lasts inside (.declare type :: rest) ↔ Lasts inside rest :=
            lasts_other rfl rfl
          simp [Change.applied, Resolver.declare, same]

/-! ### What a name is qualified as -/

/-- The types that a simple name may be that of, the ones that count first before the others: the
imported type, the type of the unit, a known type of the package, a type of the language's own
package and the known types of the packages imported on demand. -/
def candidates (package : String) (symbols : SymbolTable) (changes : List Change) (name : String) :
    List String :=
  (importedAs changes name).toList ++ (declaredAs changes name).toList ++
    [Dotted.within package name].filter symbols.knows ++
    [Dotted.within languagePackage name].filter
      (fun type => name ∈ languageTypes || symbols.knows type) ++
    ((importedPackages changes).map (Dotted.within · name)).filter symbols.knows

/-- Whether a type is one that a simple name has without being known: what type variables in scope
stand for, the imported type, the type of the unit, or a type of the language's own package. -/
inductive Stated (changes : List Change) (name : String) : String → Prop
  | bound {scope : List String} :
      Opened changes scope → name ∈ scope → Stated changes name variableBound
  | imported {type : String} : importedAs changes name = some type → Stated changes name type
  | declared {type : String} : declaredAs changes name = some type → Stated changes name type
  | language : name ∈ languageTypes → Stated changes name (Dotted.within languagePackage name)

variable {package : String} {symbols : SymbolTable} {type : String}

theorem stated_or_known (member : type ∈ candidates package symbols changes name) :
    Stated changes name type ∨ symbols.knows type = true := by
  simp only [candidates, List.mem_append, Option.mem_toList, List.mem_filter,
    List.mem_singleton, Bool.or_eq_true, decide_eq_true_eq] at member
  rcases member with (((imported | declared) | known) | ⟨rfl, language | known⟩) | known
  · exact .inl (.imported imported)
  · exact .inl (.declared declared)
  · exact .inr known.2
  · exact .inl (.language language)
  · exact .inr known
  · exact .inr known.2

theorem unknown_of_no_candidate (none_left : candidates package symbols changes name = []) :
    symbols.knows (Dotted.within package name) = false ∧
      symbols.knows (Dotted.within languagePackage name) = false ∧
      ∀ demanded ∈ importedPackages changes,
        symbols.knows (Dotted.within demanded name) = false := by
  simp only [candidates, List.append_eq_nil_iff, List.filter_eq_nil_iff, List.mem_singleton,
    List.mem_map, forall_eq, Bool.or_eq_true, not_or, Bool.not_eq_true,
    forall_exists_index, and_imp, forall_apply_eq_imp_iff₂] at none_left
  obtain ⟨⟨⟨_, inPackage⟩, _, inLanguage⟩, onDemand⟩ := none_left
  exact ⟨inPackage, inLanguage, onDemand⟩

theorem known?_after (package : String) (symbols : SymbolTable) (changes : List Change)
    (name : String) :
    ((start package symbols).after changes).known? name =
      (candidates package symbols changes name).head? := by
  have imported : Entries.get? ((start package symbols).after changes).singleImports name =
      importedAs changes name := by
    rw [get?_singleImports]
    exact Option.or_none
  have declared : Entries.get? ((start package symbols).after changes).localTypes name =
      declaredAs changes name := by
    rw [get?_localTypes]
    exact Option.none_or
  have demanded (test : String → Bool) :
      ((start package symbols).after changes).onDemandImports.find? test =
        (importedPackages changes).find? test := by
    simp [find?_onDemandImports, start]
  rw [known?, imported, declared, package_after, symbols_after, List.find?_map, demanded]
  simp only [candidates, List.head?_append, List.head?_filter, Option.head?_toList, List.find?_map,
    List.find?_singleton, Bool.or_eq_true, decide_eq_true_eq, start]
  cases importedAs changes name with
  | some type => simp
  | none =>
      cases declaredAs changes name with
      | some type => simp
      | none =>
          by_cases inPackage : symbols.knows (Dotted.within package name) = true
          · simp [inPackage]
          · by_cases inLanguage : name ∈ languageTypes ∨
                symbols.knows (Dotted.within languagePackage name) = true
            · simp [inPackage, inLanguage]
            · simp [inPackage, inLanguage]

theorem isVariable_after (package : String) (symbols : SymbolTable) (changes : List Change)
    (name : String) :
    ((start package symbols).after changes).isVariable name = true ↔
      ∃ scope, Opened changes scope ∧ name ∈ scope := by
  simp [isVariable, mem_scopes_after, start]

theorem not_isVariable_of_dotted
    (undotted : ∀ names, .enter names ∈ changes → ∀ name ∈ names, '.' ∉ name.toList)
    (dotted : '.' ∈ name.toList) :
    ((start package symbols).after changes).isVariable name = false := by
  by_contra known
  rw [Bool.not_eq_false, isVariable_after] at known
  obtain ⟨scope, ⟨before, since, rfl, _⟩, member⟩ := known
  exact undotted scope (by simp) name member dotted

theorem qualify_dotted {first : String} (rest : String) (undotted : '.' ∉ first.toList)
    (free : resolver.isVariable (first ++ "." ++ rest) = false) :
    resolver.qualify (first ++ "." ++ rest) =
      ((resolver.known? first).map (· ++ "." ++ rest)).getD (first ++ "." ++ rest) := by
  have cut : Text.cut '.' (first ++ "." ++ rest).toList = some (first.toList, rest.toList) := by
    have whole : (first ++ "." ++ rest).toList = first.toList ++ '.' :: rest.toList := by simp
    rw [whole, Text.cut_append_mark _ undotted]
  simp only [qualify, free, cut, Bool.false_eq_true, if_false, String.ofList_toList]
  cases resolver.known? first <;> rfl

theorem qualify_simple (undotted : '.' ∉ name.toList) (free : resolver.isVariable name = false) :
    resolver.qualify name = (resolver.known? name).getD (Dotted.within resolver.package name) := by
  simp only [qualify, free, Text.cut_eq_none_iff.mpr undotted, Bool.false_eq_true, if_false]

/-- A dotted name keeps all that is behind its first segment, and that segment is replaced by its
first candidate or, without one, kept. A simple name is what type variables stand for if it is one
in an open scope, and otherwise its first candidate or, without one, in the package. So a simple
name that comes to a type neither stated nor known comes to one in the package, and none of the
places it is looked for in has it. -/
theorem qualified_as_first_candidate (package : String) (symbols : SymbolTable)
    (changes : List Change)
    (undotted : ∀ names, .enter names ∈ changes → ∀ name ∈ names, '.' ∉ name.toList) :
    let resolver := (start package symbols).after changes
    let found := candidates package symbols changes
    (∀ first rest : String, '.' ∉ first.toList →
      (∀ outer, (found first).head? = some outer →
        resolver.qualify (first ++ "." ++ rest) = outer ++ "." ++ rest) ∧
      (found first = [] → resolver.qualify (first ++ "." ++ rest) = first ++ "." ++ rest)) ∧
    ∀ name : String, '.' ∉ name.toList →
      (∀ scope, Opened changes scope → name ∈ scope → resolver.qualify name = variableBound) ∧
      ((∀ scope, Opened changes scope → name ∉ scope) →
        resolver.qualify name = (found name).head?.getD (Dotted.within package name)) ∧
      (¬ Stated changes name (resolver.qualify name) →
        symbols.knows (resolver.qualify name) = false →
          resolver.qualify name = Dotted.within package name ∧
          symbols.knows (Dotted.within package name) = false ∧
          symbols.knows (Dotted.within languagePackage name) = false ∧
          ∀ demanded ∈ importedPackages changes,
            symbols.knows (Dotted.within demanded name) = false) := by
  intro resolver found
  have known (name : String) : resolver.known? name = (found name).head? :=
    known?_after package symbols changes name
  have isVariable (name : String) := isVariable_after package symbols changes name
  constructor
  · intro first rest plain
    have free : resolver.isVariable (first ++ "." ++ rest) = false :=
      not_isVariable_of_dotted undotted (by simp)
    have qualified := qualify_dotted rest plain free
    rw [known] at qualified
    constructor
    · intro outer first_found
      rw [qualified, first_found]
      rfl
    · intro nothing
      rw [qualified, nothing]
      rfl
  intro name plain
  have as_variable : ∀ scope, Opened changes scope → name ∈ scope →
      resolver.qualify name = variableBound := by
    intro scope opened member
    have bound : resolver.isVariable name = true := (isVariable name).mpr ⟨scope, opened, member⟩
    simp only [qualify, bound, if_true]
  have as_type : (∀ scope, Opened changes scope → name ∉ scope) →
      resolver.qualify name = (found name).head?.getD (Dotted.within package name) := by
    intro free
    have unbound : resolver.isVariable name = false := by
      by_contra bound
      rw [Bool.not_eq_false] at bound
      obtain ⟨scope, opened, member⟩ := (isVariable name).mp bound
      exact free scope opened member
    rw [qualify_simple plain unbound, known]
    exact congrArg _ (congrArg (Dotted.within · name) (package_after _ changes))
  refine ⟨as_variable, as_type, ?_⟩
  intro unstated unknown
  have free : ∀ scope, Opened changes scope → name ∉ scope := by
    intro scope opened member
    apply unstated
    rw [as_variable scope opened member]
    exact .bound opened member
  rw [as_type free] at unstated unknown ⊢
  cases first : found name with
  | nil => exact ⟨rfl, unknown_of_no_candidate first⟩
  | cons type more =>
      have member : type ∈ found name := first ▸ List.mem_cons_self
      simp only [first, List.head?_cons, Option.getD_some] at unstated unknown
      rcases stated_or_known member with stated | held
      · exact absurd stated unstated
      · exact absurd held (by simp [unknown])

theorem namesOfUnit_qualified :
    let symbols := SymbolTable.empty.register "java.io.File" .source
    let changes : List Change :=
      [.importType "java.util.List", .importPackage "java.io", .enter ["T"], .leave, .enter ["E"],
        .declare "p.Outer.Inner"]
    let resolver := (start "p" symbols).after changes
    (∀ names, .enter names ∈ changes → ∀ name ∈ names, '.' ∉ name.toList) ∧
      resolver.qualify "List.Entry" = "java.util.List.Entry" ∧
      resolver.qualify "E" = variableBound ∧
      resolver.qualify "T" = "p.T" ∧ symbols.knows "java.io.T" = false := by
  intro symbols changes resolver
  have undotted : ∀ names, .enter names ∈ changes → ∀ name ∈ names, '.' ∉ name.toList := by
    intro names member
    have one : names = ["T"] ∨ names = ["E"] := by simpa [changes] using member
    rcases one with rfl | rfl <;> decide
  obtain ⟨dotted, simple⟩ := qualified_as_first_candidate "p" symbols changes undotted
  have opened : Opened changes ["E"] :=
    ⟨[.importType "java.util.List", .importPackage "java.io", .enter ["T"], .leave],
      [.declare "p.Outer.Inner"], rfl, (lasts_other rfl rfl).mpr lasts_nil⟩
  have plain : resolver.qualify "T" = "p.T" := by decide +kernel
  have unstated : ¬ Stated changes "T" (resolver.qualify "T") := by
    intro stated
    generalize result : resolver.qualify "T" = type at stated
    rw [plain] at result
    cases stated with
    | bound => exact absurd result (by decide)
    | imported found => cases (show importedAs changes "T" = none by decide).symm.trans found
    | declared found => cases (show declaredAs changes "T" = none by decide).symm.trans found
    | language => exact absurd result (by decide)
  have unknown := (simple "T" (by decide)).2.2 unstated (by decide +kernel)
  refine ⟨undotted, ?_, ?_, plain, unknown.2.2.2 "java.io" ?_⟩
  · exact (dotted "List" "Entry" (by decide)).1 "java.util.List" (by decide +kernel)
  · exact (simple "E" (by decide)).1 ["E"] opened (by simp)
  · exact List.mem_singleton_self _

end CodeFacts.Source.Resolver
