import CodeFacts.Ontology.Gate
import CodeFacts.Proofs.Ontology.Rules
import CodeFacts.Proofs.Store.Edit

/-!
Runs over a store that rules guard, with rules coming in between. Whatever is stored has a rule that
backs it, and an addition is refused by the gate just if no rule allows it; one that the gate lets
through is the addition to the bare store.
-/

namespace CodeFacts

/-- Whether something was refused because no rule accepts a triple. -/
def Violates {α : Type} (outcome : Except Fault α) : Prop :=
  ∃ subject predicate object cause, outcome = .error (.violation subject predicate object cause)

theorem Store.edit_not_violates {σ : Type} [TripleStore σ] (store : σ) (request : Edit) :
    ¬Violates (edit store request) := by
  rintro ⟨subject, predicate, object, cause, refused⟩
  exact edit_only store request _ refused

theorem Store.checkTerm_given {role : TermRole} {term : Value} {text : String}
    (checked : checkTerm role term = .ok text) : term = .text text := by
  cases term with
  | text value => rw [checkTerm_text_ok checked]
  | _ => cases checked

/-- A rule stands behind a triple: it has its predicate, its subject has the qualifier of the
triple's subject, and it leads to resources with the qualifier of the object or, for a literal, to
literals or collections of them. -/
def Relation.Backs (relation : Relation) (triple : Triple) : Prop :=
  relation.predicate = triple.predicate ∧
    qualifierPattern relation.subject = qualifierPattern triple.subject ∧
    match relation.target with
    | .resource pattern =>
        triple.literal = false ∧ qualifierPattern pattern = qualifierPattern triple.object
    | .literal | .collection _ => triple.literal = true

namespace Ontology

def Backs (ontology : Ontology) (triple : Triple) : Prop :=
  ∃ relation ∈ ontology.relations, relation.Backs triple

variable {σ : Type} [TripleStore σ] {ontology : Ontology}

theorem mapError_ok {ε ε' α : Type} {first : Except ε α} {change : ε → ε'} {value : α}
    (passed : first.mapError change = .ok value) : first = .ok value := by
  cases first with
  | error fault => cases passed
  | ok other => rw [Except.ok.inj passed]

theorem judge_text_ok {subject predicate : String}
    {validate : String → String → Except ValidationFault Relation} {relation : Relation}
    (passed : ontology.judge (.text subject) (.text predicate) validate = .ok relation) :
    validate subject predicate = .ok relation := by
  unfold judge at passed
  exact mapError_ok passed

theorem Filed.backs {subject predicate : String} {test : Relation → Bool}
    {otherwise : ValidationFault} {relation : Relation} {triple : Triple} (filed : ontology.Filed)
    (found : ontology.firstCandidate subject predicate test otherwise = .ok relation)
    (same_subject : triple.subject = subject) (same_predicate : triple.predicate = predicate)
    (leads : test relation = true → match relation.target with
      | .resource pattern =>
          triple.literal = false ∧ qualifierPattern pattern = qualifierPattern triple.object
      | .literal | .collection _ => triple.literal = true) :
    ontology.Backs triple := by
  obtain ⟨member, fits, passes⟩ := firstCandidate_sound found
  obtain ⟨defined, same⟩ := (filed.mem_relationsFor predicate relation).mp member
  refine ⟨relation, defined, ?_, ?_, leads passes⟩
  · rw [same, same_predicate]
  · rw [same_subject]
    exact beq_iff_eq.mp fits

theorem Filed.addResource_backs (filed : ontology.Filed) {store next : σ}
    {subject predicate object : Value}
    (added : ontology.addResource store subject predicate object = .ok next) :
    ∃ triple, next = TripleStore.insert store triple ∧ ontology.Backs triple := by
  simp only [addResource, Store.addResource, Steps.bind_ok_iff, Steps.map_ok_iff] at added
  obtain ⟨relation, judged, triple, made, rfl⟩ := added
  refine ⟨triple, rfl, ?_⟩
  simp only [Store.resourceTriple, Steps.bind_ok_iff, Steps.pure_ok_iff] at made
  obtain ⟨subject, first, predicate, second, object, third, rfl⟩ := made
  obtain rfl := Store.checkTerm_given first
  obtain rfl := Store.checkTerm_given second
  obtain rfl := Store.checkTerm_given third
  have checked :
      ontology.judge (.text subject) (.text predicate)
        (fun subject predicate => ontology.validateResource subject predicate object) =
          .ok relation := mapError_ok judged
  have found := judge_text_ok checked
  refine filed.backs found rfl rfl ?_
  intro accepts
  unfold Relation.acceptsResource at accepts
  split at accepts
  · rename_i pattern leads
    rw [leads]
    exact ⟨rfl, beq_iff_eq.mp accepts⟩
  · cases accepts

theorem Filed.addLiteral_backs (filed : ontology.Filed) {store next : σ}
    {subject predicate literal : Value}
    (added : ontology.addLiteral store subject predicate literal = .ok next) :
    ∃ triple, next = TripleStore.insert store triple ∧ ontology.Backs triple := by
  simp only [addLiteral, Store.addLiteral, Steps.bind_ok_iff, Steps.map_ok_iff] at added
  obtain ⟨relation, judged, triple, made, rfl⟩ := added
  refine ⟨triple, rfl, ?_⟩
  simp only [Store.literalTriple, Steps.bind_ok_iff, Steps.pure_ok_iff] at made
  obtain ⟨subject, first, predicate, second, _, _, rfl⟩ := made
  obtain rfl := Store.checkTerm_given first
  obtain rfl := Store.checkTerm_given second
  have found : ontology.validateLiteral subject predicate = .ok relation :=
    judge_text_ok (mapError_ok judged)
  refine filed.backs found rfl rfl ?_
  intro accepts
  unfold Relation.acceptsLiteral at accepts
  split at accepts
  · rename_i leads
    rw [leads]
  · cases accepts

theorem Filed.addCollection_backs (filed : ontology.Filed) {store next : σ}
    {subject predicate values : Value}
    (added : ontology.addCollection store subject predicate values = .ok next) :
    ∃ triples : List Triple, next = triples.foldl TripleStore.insert store ∧
      ∀ triple ∈ triples, ontology.Backs triple := by
  unfold addCollection at added
  split at added
  · cases added
  · rename_i items listed
    obtain ⟨relation, judged, added⟩ := Steps.bind_ok_iff.mp added
    unfold Store.addCollection at added
    split at added
    · cases added
    · rw [listed] at added
      obtain ⟨triples, made, same⟩ := Steps.bind_ok_iff.mp added
      refine ⟨triples, (Steps.pure_ok_iff.mp same).symm, ?_⟩
      intro triple member
      obtain ⟨item, _, literal⟩ := Steps.mem_of_mapM_ok made member
      simp only [Store.literalTriple, Steps.bind_ok_iff, Steps.pure_ok_iff] at literal
      obtain ⟨subject, first, predicate, second, _, _, rfl⟩ := literal
      obtain rfl := Store.checkTerm_given first
      obtain rfl := Store.checkTerm_given second
      have checked :
          ontology.judge (.text subject) (.text predicate)
            (fun subject predicate => ontology.validateCollection subject predicate items.length) =
              .ok relation := mapError_ok judged
      have found := judge_text_ok checked
      refine filed.backs found rfl rfl ?_
      intro accepts
      unfold Relation.acceptsCollection at accepts
      split at accepts
      · rename_i bounds leads
        rw [leads]
      · cases accepts

end Ontology

structure Guarded (σ : Type) where
  ontology : Ontology
  store : σ

/-- A request to a guarded store: one more rule, or a change of the store. -/
inductive Operation where
  | define (relation : Relation)
  | edit (request : Store.Edit)

namespace Guarded

section

variable {σ : Type} [TripleStore σ]

/-- The store after a change, whose additions the rules have to accept. -/
def edit (guarded : Guarded σ) : Store.Edit → Except Fault σ
  | .addResource subject predicate object =>
      guarded.ontology.addResource guarded.store subject predicate object
  | .addLiteral subject predicate literal =>
      guarded.ontology.addLiteral guarded.store subject predicate literal
  | .addCollection subject predicate values =>
      guarded.ontology.addCollection guarded.store subject predicate values
  | request => Store.edit guarded.store request

/-- A guarded store after a request. One that is refused leaves it as it is. -/
def operate (guarded : Guarded σ) : Operation → Guarded σ
  | .define relation =>
      { guarded with
        ontology := (guarded.ontology.define relation).toOption.getD guarded.ontology }
  | .edit request =>
      { guarded with store := (guarded.edit request).toOption.getD guarded.store }

def after (guarded : Guarded σ) (operations : List Operation) : Guarded σ :=
  operations.foldl operate guarded

end

def start : Guarded MemoryStore := ⟨.empty, .empty⟩

/-- The rules are filed, and one of them stands behind every stored triple. -/
structure Sound (guarded : Guarded MemoryStore) : Prop where
  filed : guarded.ontology.Filed
  backed : ∀ triple ∈ guarded.store.triples, guarded.ontology.Backs triple

theorem sound_start : start.Sound where
  filed := Ontology.filed_empty
  backed := by
    intro triple member
    cases member

theorem backed_insertAll (ontology : Ontology) (triples : List Triple) {store : MemoryStore}
    (old : ∀ triple ∈ store.triples, ontology.Backs triple)
    (new : ∀ triple ∈ triples, ontology.Backs triple) :
    ∀ triple ∈ (triples.foldl TripleStore.insert store).triples, ontology.Backs triple := by
  intro triple member
  have same := congrArg PlainStore.triples (MemoryStore.view.insertAll_map triples store)
  obtain ⟨more, extended, fresh⟩ := PlainStore.insertAll_extends triples store.toPlain
  have listed : (triples.foldl TripleStore.insert store).triples = store.triples ++ more :=
    same.symm.trans extended
  rw [listed] at member
  rcases List.mem_append.mp member with stored | added
  · exact old triple stored
  · exact new triple (fresh triple added).1

theorem Sound.edit {guarded : Guarded MemoryStore} (sound : guarded.Sound) {request : Store.Edit}
    {next : MemoryStore} (accepted : guarded.edit request = .ok next) :
    ∀ triple ∈ next.triples, guarded.ontology.Backs triple := by
  have single {triple : Triple} (backs : guarded.ontology.Backs triple) :
      ∀ other ∈ (TripleStore.insert guarded.store triple).triples,
        guarded.ontology.Backs other := by
    refine backed_insertAll guarded.ontology [triple] sound.backed ?_
    intro other member
    rw [List.mem_singleton.mp member]
    exact backs
  have removed {made : Except Fault Triple}
      (accepted : made.map (TripleStore.erase guarded.store) = .ok next) :
      ∀ triple ∈ next.triples, guarded.ontology.Backs triple := by
    obtain ⟨gone, _, rfl⟩ := Steps.map_ok_iff.mp accepted
    intro triple member
    have listed : (TripleStore.erase guarded.store gone).triples =
        guarded.store.triples.filter (· ≠ gone) := guarded.store.ledger.triples_remove gone
    have kept : triple ∈ guarded.store.triples.filter (· ≠ gone) := by
      rw [← listed]
      exact member
    exact sound.backed triple (List.mem_filter.mp kept).1
  cases request with
  | addResource =>
      obtain ⟨triple, rfl, backs⟩ := sound.filed.addResource_backs accepted
      exact single backs
  | addLiteral =>
      obtain ⟨triple, rfl, backs⟩ := sound.filed.addLiteral_backs accepted
      exact single backs
  | addCollection =>
      obtain ⟨triples, rfl, backs⟩ := sound.filed.addCollection_backs accepted
      exact backed_insertAll guarded.ontology triples sound.backed backs
  | removeResource => exact removed accepted
  | removeLiteral => exact removed accepted
  | clear =>
      cases accepted
      intro triple member
      cases member

theorem Sound.operate {guarded : Guarded MemoryStore} (sound : guarded.Sound)
    (operation : Operation) : (guarded.operate operation).Sound := by
  cases operation with
  | define relation =>
      cases defined : guarded.ontology.define relation with
      | error fault =>
          have same : guarded.operate (.define relation) = guarded := by
            simp only [Guarded.operate, defined, Except.toOption, Option.getD]
          rw [same]
          exact sound
      | ok next =>
          have same : guarded.operate (.define relation) = { guarded with ontology := next } := by
            simp only [Guarded.operate, defined, Except.toOption, Option.getD]
          obtain ⟨filed, relations⟩ := sound.filed.define defined
          rw [same]
          refine ⟨filed, ?_⟩
          intro triple member
          obtain ⟨rule, held, backs⟩ := sound.backed triple member
          have kept : rule ∈ next.relations := by
            rw [relations]
            exact List.mem_append_left _ held
          exact ⟨rule, kept, backs⟩
  | edit request =>
      cases accepted : guarded.edit request with
      | error fault =>
          have same : guarded.operate (.edit request) = guarded := by
            simp only [Guarded.operate, accepted, Except.toOption, Option.getD]
          rw [same]
          exact sound
      | ok next =>
          have same : guarded.operate (.edit request) = { guarded with store := next } := by
            simp only [Guarded.operate, accepted, Except.toOption, Option.getD]
          rw [same]
          exact ⟨sound.filed, sound.edit accepted⟩

theorem Sound.after (operations : List Operation) {guarded : Guarded MemoryStore}
    (sound : guarded.Sound) : (guarded.after operations).Sound := by
  induction operations generalizing guarded with
  | nil => exact sound
  | cons operation rest ih => exact ih (sound.operate operation)

/-- The gate judges an addition by the rules: it is refused as a violation just if no rule with the
predicate fits the subject and passes the test, which leaves the store as it is, and comes to what
it comes to on the bare store otherwise. -/
def Judges {σ : Type} [TripleStore σ] (guarded : Guarded σ) (request : Store.Edit)
    (subject predicate : String) (test : Relation → Bool) : Prop :=
  (Violates (guarded.edit request) ↔ ¬guarded.ontology.Allows subject predicate test) ∧
    (Violates (guarded.edit request) → guarded.operate (.edit request) = guarded) ∧
    (¬Violates (guarded.edit request) → guarded.edit request = Store.edit guarded.store request)

theorem judges_of_edit_eq {guarded : Guarded MemoryStore} (sound : guarded.Sound)
    {request : Store.Edit} {subject predicate object : String} {test : Relation → Bool}
    {otherwise : ValidationFault}
    (gate : guarded.edit request =
      match guarded.ontology.firstCandidate subject predicate test otherwise with
      | .ok _ => Store.edit guarded.store request
      | .error cause => .error (.violation subject predicate object cause)) :
    guarded.Judges request subject predicate test := by
  have found : (∃ relation,
      guarded.ontology.firstCandidate subject predicate test otherwise = .ok relation) ↔
      guarded.ontology.Allows subject predicate test := sound.filed.firstCandidate_iff
  unfold Judges
  rw [← found]
  cases validated : guarded.ontology.firstCandidate subject predicate test otherwise with
  | ok relation =>
      rw [validated] at gate
      have passes : ¬Violates (guarded.edit request) := by
        rw [gate]
        exact Store.edit_not_violates guarded.store request
      exact ⟨iff_of_false passes (not_not.mpr ⟨relation, rfl⟩), fun violates =>
        absurd violates passes, fun _ => gate⟩
  | error cause =>
      rw [validated] at gate
      have violates : Violates (guarded.edit request) := ⟨_, _, _, cause, gate⟩
      refine ⟨iff_of_true violates ?_, ?_, fun passes => absurd violates passes⟩
      · rintro ⟨relation, same⟩
        cases same
      · intro _
        rw [operate, gate]
        rfl

/-! The gate in front of each kind of addition. -/

theorem edit_addResource (guarded : Guarded MemoryStore) (subject predicate object : String) :
    let request := Store.Edit.addResource (.text subject) (.text predicate) (.text object)
    guarded.edit request =
      match guarded.ontology.validateResource subject predicate object with
      | .ok _ => Store.edit guarded.store request
      | .error cause => .error (.violation subject predicate object cause) := by
  simp only [edit, Ontology.addResource, Ontology.judgeObject, Ontology.judge]
  cases guarded.ontology.validateResource subject predicate object <;> rfl

theorem edit_addLiteral (guarded : Guarded MemoryStore) (subject predicate : String)
    (literal : Value) :
    let request := Store.Edit.addLiteral (.text subject) (.text predicate) literal
    guarded.edit request =
      match guarded.ontology.validateLiteral subject predicate with
      | .ok _ => Store.edit guarded.store request
      | .error cause => .error (.violation subject predicate literal.plain cause) := by
  simp only [edit, Ontology.addLiteral, Ontology.judgeLiteral, Ontology.judge]
  cases guarded.ontology.validateLiteral subject predicate <;> rfl

theorem edit_addCollection (guarded : Guarded MemoryStore) (subject predicate : String)
    {values : Value} {items : List Value} (listed : values.items? = some items) :
    let request := Store.Edit.addCollection (.text subject) (.text predicate) values
    guarded.edit request =
      match guarded.ontology.validateCollection subject predicate items.length with
      | .ok _ => Store.edit guarded.store request
      | .error cause =>
          .error (.violation subject predicate (Value.list items).plain cause) := by
  simp only [edit, Ontology.addCollection, listed, Ontology.judgeObject, Ontology.judge]
  cases guarded.ontology.validateCollection subject predicate items.length <;> rfl

/-- After any requests a rule stands behind every stored triple, and the gate judges each kind of
addition by the rules. -/
theorem guarded_run (operations : List Operation) :
    let guarded := start.after operations
    (∀ triple ∈ guarded.store.triples, guarded.ontology.Backs triple) ∧
      (∀ subject predicate object,
        guarded.Judges (.addResource (.text subject) (.text predicate) (.text object)) subject
          predicate (·.acceptsResource object)) ∧
      (∀ subject predicate literal,
        guarded.Judges (.addLiteral (.text subject) (.text predicate) literal) subject predicate
          (·.acceptsLiteral)) ∧
      ∀ subject predicate values, ∀ items ∈ values.items?,
        guarded.Judges (.addCollection (.text subject) (.text predicate) values) subject predicate
          (·.acceptsCollection items.length) := by
  intro guarded
  have sound : guarded.Sound := sound_start.after operations
  refine ⟨sound.backed, ?_, ?_, ?_⟩
  · intro subject predicate object
    exact judges_of_edit_eq sound (edit_addResource guarded subject predicate object)
  · intro subject predicate literal
    exact judges_of_edit_eq sound (edit_addLiteral guarded subject predicate literal)
  · intro subject predicate values items listed
    exact judges_of_edit_eq sound (edit_addCollection guarded subject predicate listed)

end Guarded

end CodeFacts
