import CodeFacts.Proofs.Ontology.Gate
import Mathlib.Data.List.Nodup

/-!
What an ontology answers after any definitions. The rules of a predicate come in the order they
were defined, so a judgement is the first rule of all that meets a triple, and later rules never
change it.
-/

namespace CodeFacts

/-- A rule asked for by unchecked parts; nothing leads to the object of a literal rule. -/
inductive Definition where
  | rule (subject predicate object : Value)
  | literal (subject predicate : Value)

def Definition.read : Definition → Except Fault Relation
  | rule subject predicate object => Relation.read subject predicate object
  | literal subject predicate => Relation.read subject predicate .null

/-- Whether a target is one an object may be: a text with the qualifier of the pattern, or a list
whose size is within the bounds. -/
def Target.Leads : Target → Value → Prop
  | .resource pattern, .text object => qualifierPattern pattern = qualifierPattern object
  | .collection bounds, .list items =>
      bounds.least ≤ items.length ∧ ∀ most ∈ bounds.most, items.length ≤ most
  | _, _ => False

/-- Whether a rule is about a predicate of a subject and leads where it should. -/
structure Relation.Meets (relation : Relation) (subject predicate : String)
    (leads : Target → Prop) : Prop where
  predicate : relation.predicate = predicate
  subject : qualifierPattern relation.subject = qualifierPattern subject
  target : leads relation.target

theorem Relation.acceptsResource_iff (relation : Relation) (object : String) :
    relation.acceptsResource object = true ↔ relation.target.Leads (.text object) := by
  unfold Relation.acceptsResource Target.Leads
  cases relation.target <;> simp

theorem Relation.acceptsCollection_iff (relation : Relation) (items : List Value) :
    relation.acceptsCollection items.length = true ↔ relation.target.Leads (.list items) := by
  unfold Relation.acceptsCollection Target.Leads
  cases relation.target with
  | collection bounds =>
      unfold Bounds.holds
      cases most : bounds.most <;> simp [most]
  | _ => simp

theorem Relation.acceptsLiteral_iff (relation : Relation) :
    relation.acceptsLiteral = true ↔ relation.target = .literal := by
  unfold Relation.acceptsLiteral
  cases relation.target <;> simp

/-- Whether nothing that names a part of a rule is empty. -/
def Relation.Filled (relation : Relation) : Prop :=
  relation.subject ≠ "" ∧ relation.predicate ≠ "" ∧ relation.target ≠ .resource ""

theorem Relation.of_result {path other : List String} {subject predicate : Value}
    {target : Checked Target} {relation : Relation}
    (made : (Relation.mk <$> Checked.text path subject <*> Checked.text other predicate
      <*> target).result = .ok relation) :
    subject = .text relation.subject ∧ predicate = .text relation.predicate ∧
      target = .good relation.target := by
  cases subject with
  | text =>
    cases predicate with
    | text =>
      cases target with
      | good =>
        cases made
        exact ⟨rfl, rfl, rfl⟩
      | bad => cases made
    | _ => cases target <;> cases made
  | _ => cases predicate <;> cases target <;> cases made

theorem Relation.filled_of_read {subject predicate object : Value} {relation : Relation}
    (made : Relation.read subject predicate object = .ok relation) : relation.Filled := by
  have told {target : Checked Target}
      (made : (if subject.isNothing ∨ predicate.isNothing then
          .error (.definition (.incomplete subject.plain predicate.plain))
        else if object.isText ∧ object.isNothing then
          .error (.definition (.emptyObject predicate.plain))
        else Checked.result (Relation.mk <$> Checked.text ["subject_prefix"] subject
          <*> Checked.text ["predicate"] predicate <*> target)) = .ok relation)
      (shown : ¬(object.isText ∧ object.isNothing) → target = .good relation.target →
        relation.target ≠ .resource "") : relation.Filled := by
    split at made
    · cases made
    · rename_i filled
      split at made
      · cases made
      · rename_i object
        obtain ⟨rfl, rfl, leads⟩ := Relation.of_result made
        simp only [Value.isNothing, beq_iff_eq, not_or] at filled
        exact ⟨filled.1, filled.2, shown object leads⟩
  unfold Relation.read at made
  cases object with
  | record fields =>
      obtain ⟨target, bounds, made⟩ := Steps.bind_ok_iff.mp made
      obtain ⟨read, _, rfl⟩ := Steps.map_ok_iff.mp bounds
      refine told made fun _ leads => ?_
      rw [← Checked.good.inj leads]
      nofun
  | text pattern =>
      refine told made fun filled leads => ?_
      rw [← Checked.good.inj leads]
      rintro ⟨rfl⟩
      exact filled ⟨rfl, rfl⟩
  | null =>
      refine told made fun _ leads => ?_
      rw [← Checked.good.inj leads]
      nofun
  | _ => exact told made fun _ leads => nomatch leads

/-- Whether a judgement is the first of some rules that meets a condition, and a refusal to
validate where none does. -/
structure Decides (rules : List Relation) (meets : Relation → Prop)
    (judgement : Except Fault Relation) : Prop where
  first : ∀ rule, judgement = .ok rule ↔ ∃ before after,
    rules = before ++ rule :: after ∧ meets rule ∧ ∀ other ∈ before, ¬meets other
  refused : (∃ cause, judgement = .error (.validation cause)) ↔ ∀ rule ∈ rules, ¬meets rule

theorem Decides.of_find {rules : List Relation} {meets : Relation → Prop} {test : Relation → Bool}
    (tested : ∀ rule, test rule = true ↔ meets rule)
    {judged : Except ValidationFault Relation} (found : judged.toOption = rules.find? test) :
    Decides rules meets (judged.mapError .validation) := by
  have first (rule : Relation) : rules.find? test = some rule ↔ ∃ before after,
      rules = before ++ rule :: after ∧ meets rule ∧ ∀ other ∈ before, ¬meets other := by
    simp only [List.find?_eq_some_iff_append, Bool.not_eq_true', ← Bool.not_eq_true, tested]
    constructor
    · rintro ⟨met, before, after, split, others⟩
      exact ⟨before, after, split, met, others⟩
    · rintro ⟨before, after, split, met, others⟩
      exact ⟨met, before, after, split, others⟩
  have absent : rules.find? test = none ↔ ∀ rule ∈ rules, ¬meets rule := by
    simp only [List.find?_eq_none, tested]
  rw [← found] at absent
  cases judged with
  | ok judged =>
      refine ⟨fun rule => ?_, ?_⟩
      · rw [← first, ← found]
        simp [Except.mapError, Except.toOption]
      · rw [← absent]
        simp [Except.mapError, Except.toOption]
  | error cause =>
      refine ⟨fun rule => ?_, ?_⟩
      · rw [← first, ← found]
        simp [Except.mapError, Except.toOption]
      · rw [← absent]
        simp [Except.mapError, Except.toOption]

namespace Ontology

def ask (ontology : Ontology) (definition : Definition) : Except Fault Ontology :=
  definition.read >>= ontology.define

/-- The ontology after a definition, which may be refused. -/
def settle (ontology : Ontology) (definition : Definition) : Ontology :=
  match ontology.ask definition with
  | .ok next => next
  | .error _ => ontology

def settleAll (ontology : Ontology) (definitions : List Definition) : Ontology :=
  definitions.foldl settle ontology

/-- No rule comes twice, and those of a predicate are found in the order of all. -/
structure Ordered (ontology : Ontology) : Prop where
  nodup : ontology.relations.Nodup
  found : ∀ predicate,
    ontology.relationsFor predicate = ontology.relations.filter (·.predicate = predicate)

theorem ordered_empty : empty.Ordered where
  nodup := List.nodup_nil
  found predicate := by simp [relationsFor, empty]

variable {ontology next : Ontology}

theorem Ordered.mem_iff (ordered : ontology.Ordered) (relation : Relation) :
    relation ∈ ontology.byPredicate.find relation.predicate ↔ relation ∈ ontology.relations := by
  have found := ordered.found relation.predicate
  unfold relationsFor at found
  simp [found]

theorem Ordered.faultless_iff (ordered : ontology.Ordered) (relation : Relation) :
    ontology.definitionFault? relation = none ↔
      relation.Filled ∧ relation ∉ ontology.relations := by
  unfold definitionFault? Relation.Filled
  simp only [ordered.mem_iff]
  by_cases named : relation.subject = "" ∨ relation.predicate = ""
  · simp only [named, ↓reduceIte, reduceCtorEq, false_iff]
    tauto
  · by_cases leads : relation.target = .resource ""
    · simp [named, leads]
    · simp only [named, leads, ↓reduceIte]
      split <;> simp_all

theorem Ordered.define_old (ordered : ontology.Ordered) {relation : Relation}
    (old : relation ∈ ontology.relations) : ∃ fault, ontology.define relation = .error fault := by
  unfold Ontology.define
  cases faulty : ontology.definitionFault? relation with
  | none => exact absurd old ((ordered.faultless_iff relation).mp faulty).2
  | some cause => exact ⟨_, rfl⟩

theorem Ordered.define_new (ordered : ontology.Ordered) {relation : Relation}
    (filled : relation.Filled) (new : relation ∉ ontology.relations) :
    ∃ next, ontology.define relation = .ok next ∧ next.Ordered ∧
      next.relations = ontology.relations ++ [relation] := by
  unfold Ontology.define
  rw [(ordered.faultless_iff relation).mpr ⟨filled, new⟩]
  refine ⟨_, rfl, ⟨?_, fun predicate => ?_⟩, rfl⟩
  · exact List.nodup_append_comm.mp (List.nodup_cons.mpr ⟨new, ordered.nodup⟩)
  · have found := ordered.found predicate
    unfold relationsFor at found ⊢
    rw [Index.find_file, List.filter_append, found]
    by_cases same : relation.predicate = predicate <;> simp [same]

/-- What a definition does: it is refused and changes nothing, or its rule is new and comes last. -/
inductive Settles (ontology : Ontology) (definition : Definition) (next : Ontology) : Prop where
  | refused (fault : Fault) (asked : ontology.ask definition = .error fault)
      (old : ∀ rule, definition.read = .ok rule → rule ∈ ontology.relations)
      (same : next = ontology)
  | accepted (rule : Relation) (asked : ontology.ask definition = .ok next)
      (read : definition.read = .ok rule) (new : rule ∉ ontology.relations)
      (last : next.relations = ontology.relations ++ [rule])

theorem Ordered.settle (ordered : ontology.Ordered) (definition : Definition) :
    (ontology.settle definition).Ordered ∧
      ontology.Settles definition (ontology.settle definition) := by
  unfold Ontology.settle
  cases read : definition.read with
  | error fault =>
      have asked : ontology.ask definition = .error fault := by rw [ask, read]; rfl
      rw [asked]
      refine ⟨ordered, .refused fault asked (fun rule made => ?_) rfl⟩
      rw [read] at made
      cases made
  | ok rule =>
      have asked : ontology.ask definition = ontology.define rule := by rw [ask, read]; rfl
      by_cases old : rule ∈ ontology.relations
      · obtain ⟨fault, refused⟩ := ordered.define_old old
        rw [asked, refused]
        refine ⟨ordered, .refused fault (asked.trans refused) (fun other made => ?_) rfl⟩
        rw [read] at made
        exact Except.ok.inj made ▸ old
      · have filled : rule.Filled := by
          cases definition with
          | rule subject predicate object => exact Relation.filled_of_read read
          | literal subject predicate =>
              have read : Relation.read subject predicate .null = .ok rule := read
              exact Relation.filled_of_read read
        obtain ⟨next, defined, kept, last⟩ := ordered.define_new filled old
        rw [asked, defined]
        exact ⟨kept, .accepted rule (asked.trans defined) read old last⟩

theorem Ordered.settleAll (ordered : ontology.Ordered) (definitions : List Definition) :
    (ontology.settleAll definitions).Ordered := by
  induction definitions generalizing ontology with
  | nil => exact ordered
  | cons definition rest ih => exact ih (ordered.settle definition).1

/-- Later definitions leave the rules where they are and come behind them. -/
theorem Ordered.prefix_settleAll (ordered : ontology.Ordered) (definitions : List Definition) :
    ontology.relations <+: (ontology.settleAll definitions).relations := by
  induction definitions generalizing ontology with
  | nil => exact List.prefix_rfl
  | cons definition rest ih =>
      obtain ⟨kept, settles⟩ := ordered.settle definition
      refine List.IsPrefix.trans ?_ (ih kept)
      cases settles with
      | refused _ _ _ same => rw [same]
      | accepted _ _ _ _ last => exact last ▸ List.prefix_append _ _

/-! Judgements as the first rule of all. -/

variable {subject predicate : String} {test : Relation → Bool} {otherwise : ValidationFault}

theorem Ordered.firstCandidate_eq (ordered : ontology.Ordered) :
    (ontology.firstCandidate subject predicate test otherwise).toOption =
      ontology.relations.find? fun relation =>
        relation.predicate = predicate && (relation.acceptsSubject subject && test relation) := by
  have found : (((ontology.relationsFor predicate).filter
      (·.acceptsSubject subject)).find? test) = ontology.relations.find? fun relation =>
        relation.predicate = predicate && (relation.acceptsSubject subject && test relation) := by
    rw [ordered.found, List.find?_filter, List.find?_filter]
    simp
  rw [← found]
  unfold firstCandidate candidates
  cases ontology.relationsFor predicate with
  | nil => rfl
  | cons first rest =>
      dsimp only
      cases (first :: rest).filter (·.acceptsSubject subject) with
      | nil => rfl
      | cons kept others =>
          dsimp only [bind, Except.bind]
          cases (kept :: others).find? test <;> rfl

theorem Ordered.decides (ordered : ontology.Ordered) {leads : Target → Prop}
    (tested : ∀ relation : Relation, test relation = true ↔ leads relation.target) :
    Decides ontology.relations (·.Meets subject predicate leads)
      ((ontology.firstCandidate subject predicate test otherwise).mapError .validation) := by
  refine Decides.of_find (fun relation => ?_) ordered.firstCandidate_eq
  simp only [Bool.and_eq_true, decide_eq_true_eq, Relation.acceptsSubject, beq_iff_eq, tested]
  constructor
  · rintro ⟨same, fits, passes⟩
    exact ⟨same, fits, passes⟩
  · rintro ⟨same, fits, passes⟩
    exact ⟨same, fits, passes⟩

/-! Judgements after more definitions. -/

theorem firstCandidate_mono (ordered : ontology.Ordered) (kept : next.Ordered)
    (longer : ontology.relations <+: next.relations) {relation : Relation}
    (found : ontology.firstCandidate subject predicate test otherwise = .ok relation) :
    next.firstCandidate subject predicate test otherwise = .ok relation := by
  apply Steps.ok_of_toOption
  rw [kept.firstCandidate_eq]
  apply longer.find?_eq_some
  rw [← ordered.firstCandidate_eq, found]
  rfl

theorem judge_mono {subject predicate : Value} {relation : Relation}
    {validate later : String → String → Except ValidationFault Relation}
    (kept : ∀ subject predicate, validate subject predicate = .ok relation →
      later subject predicate = .ok relation)
    (judged : ontology.judge subject predicate validate = .ok relation) :
    next.judge subject predicate later = .ok relation := by
  unfold judge at judged
  split at judged
  · rename_i subject predicate
    show (later subject predicate).mapError Fault.validation = .ok relation
    rw [kept subject predicate (mapError_ok judged)]
    rfl
  · split at judged <;> cases judged
  · cases judged
  · cases judged
  · cases judged

/-- Whether no judgement that accepts a triple changes from an ontology to another. -/
structure Preserves (ontology next : Ontology) : Prop where
  object : ∀ subject predicate object rule,
    ontology.judgeObject subject predicate object = .ok rule →
      next.judgeObject subject predicate object = .ok rule
  literal : ∀ subject predicate rule,
    ontology.judgeLiteral subject predicate = .ok rule →
      next.judgeLiteral subject predicate = .ok rule

theorem Ordered.preserves (ordered : ontology.Ordered) (kept : next.Ordered)
    (longer : ontology.relations <+: next.relations) : ontology.Preserves next where
  object subject predicate object rule judged := by
    cases object with
    | text object =>
        exact judge_mono (fun _ _ => firstCandidate_mono ordered kept longer) judged
    | list items =>
        exact judge_mono (fun _ _ => firstCandidate_mono ordered kept longer) judged
    | _ =>
        obtain ⟨_, _, refused⟩ := Steps.bind_ok_iff.mp judged
        cases refused
  literal _ _ _ := judge_mono fun _ _ => firstCandidate_mono ordered kept longer

/-- After any definitions the rules of a predicate are those of all that have it, in order, and none
comes twice. A further definition is refused and changes nothing or adds a new rule at the end. A
judgement is the first rule that meets the triple, and further definitions preserve it. -/
theorem settled_in_order (definitions : List Definition) :
    let ontology := empty.settleAll definitions
    ontology.Ordered ∧
    (∀ definition, ontology.Settles definition (empty.settleAll (definitions ++ [definition]))) ∧
    (∀ subject predicate object, Decides ontology.relations
      (·.Meets subject predicate fun target => target.Leads (.text object))
      (ontology.judgeObject (.text subject) (.text predicate) (.text object))) ∧
    (∀ subject predicate items, Decides ontology.relations
      (·.Meets subject predicate fun target => target.Leads (.list items))
      (ontology.judgeObject (.text subject) (.text predicate) (.list items))) ∧
    (∀ subject predicate, Decides ontology.relations
      (·.Meets subject predicate fun target => target = .literal)
      (ontology.judgeLiteral (.text subject) (.text predicate))) ∧
    ∀ later, ontology.Preserves (empty.settleAll (definitions ++ later)) := by
  intro ontology
  have ordered : ontology.Ordered := ordered_empty.settleAll definitions
  have further (later : List Definition) :
      empty.settleAll (definitions ++ later) = ontology.settleAll later :=
    List.foldl_append
  refine ⟨ordered, fun definition => ?_, fun subject predicate object => ?_,
    fun subject predicate items => ?_, fun subject predicate => ?_, fun later => ?_⟩
  · rw [further]
    exact (ordered.settle definition).2
  · exact ordered.decides fun rule => rule.acceptsResource_iff object
  · exact ordered.decides fun rule => rule.acceptsCollection_iff items
  · exact ordered.decides fun rule => rule.acceptsLiteral_iff
  · rw [further]
    exact ordered.preserves (ordered.settleAll later) (ordered.prefix_settleAll later)

/-- Of two rules for the same triples the one defined first is found, and a rule again is refused. -/
example :
    let narrow : Definition := .rule (.text "jclass:") (.text "names")
      (.record [("min", .int 0), ("max", .int 2)])
    let wide : Definition := .rule (.text "jclass:") (.text "names") (.record [("min", .int 1)])
    let ontology := empty.settleAll [narrow, wide, narrow]
    let found (items : List Value) :=
      (ontology.judgeObject (.text "jclass:C") (.text "names") (.list items)).toOption
    ontology.relations.length = 2 ∧
      (found [.null, .null]).map Relation.text =
        some "[jclass:] --[names]--> 'LITERAL'[0..2]" ∧
      (found [.null, .null, .null]).map Relation.text =
        some "[jclass:] --[names]--> 'LITERAL'[1..*]" := by
  decide +kernel

end Ontology

end CodeFacts
