import CodeFacts.Proofs.Builder.Signature

/-!
Signatures read back. Of a signature that was declared once, queries find what it was declared with:
its parameters in order, its result and its exceptions, as the references were bound then. Of a
member they find one signature for each overload that was declared.
-/

namespace CodeFacts

namespace Declaration

variable {signature : Identifier} {names : List Value} {ids : List Identifier}

/-- The parameters of a signature are called by their names, which are texts. -/
theorem names_of_ids (made : parameterIds signature names = .ok ids) :
    (ids.map fun id => Value.text (Query.called id).name) = names := by
  have each := Steps.mapM_ok_iff.mp made
  clear made
  induction each with
  | nil => rfl
  | @cons name id names ids child _ ih =>
      cases name with
      | text given => rw [List.map_cons, Query.called_name child, ih]
      | _ => cases child

theorem nodup_of_names (made : parameterIds signature names = .ok ids)
    (distinct : names.Nodup) : ids.Nodup := by
  rw [← names_of_ids made] at distinct
  exact distinct.of_map _

theorem pushed_of_ids (made : parameterIds signature names = .ok ids) {id : Identifier}
    (member : id ∈ ids) : ∃ last, id = signature.push last := by
  obtain ⟨name, _, child⟩ := Steps.mem_of_mapM_ok made member
  obtain ⟨_, child⟩ := Identifier.child_of_values child
  obtain ⟨last, pushed, _⟩ := Identifier.push_of_child child
  exact ⟨last, pushed⟩

end Declaration

namespace Query

open Declaration

variable {σ : Type} [TripleStore σ] {store : σ} {triples : List Triple}

/-- A parameter as it is read, from its identifier, its type and its position. -/
def placedParameter (stored : TypeRef → String) (placed : (Identifier × TypeRef) × Nat) :
    Parameter :=
  { called placed.1.1 with type := stored placed.1.2, index := placed.2 }

/-- Parameters that are read out of order come in the order of their positions. -/
theorem mapM_in_order {step : String → Except Fault Parameter} {texts : List String}
    {entries : List Parameter}
    (each : List.Forall₂ (fun text entry => step text = .ok entry) texts entries)
    (rising : entries.Pairwise fun left right => left.index < right.index) :
    (do
      let found ← (sorted texts).mapM step
      return found.mergeSort fun left right => decide (left.index ≤ right.index)) =
        (.ok entries : Except Fault (List Parameter)) := by
  obtain ⟨found, stepped, same⟩ := List.perm_comp_forall₂ (List.mergeSort_perm texts _) each
  rw [sorted, Steps.mapM_ok_iff.mpr stepped]
  refine congrArg Except.ok ?_
  have ordered : (found.mergeSort fun left right => decide (left.index ≤ right.index)).Pairwise
      fun left right => left.index ≤ right.index := by
    refine (List.pairwise_mergeSort (fun _ _ _ first second => ?_) (fun left right => ?_) found).imp
      of_decide_eq_true
    · exact decide_eq_true (Int.le_trans (of_decide_eq_true first) (of_decide_eq_true second))
    · simpa using Int.le_total left.index right.index
  have distinct : (entries.map (·.index)).Nodup :=
    List.pairwise_map.mpr (rising.imp fun below => Int.ne_of_lt below)
  have all := (List.mergeSort_perm found fun left right =>
    decide (left.index ≤ right.index)).trans same
  refine List.Perm.eq_of_pairwise (fun left right listed other below above => ?_) ordered
    (rising.imp Int.le_of_lt) all
  exact List.inj_on_of_nodup_map distinct (all.subset listed) other (Int.le_antisymm below above)

section

variable {signing : Signing} {stored : TypeRef → String} {signature : Identifier}
  {ids : List Identifier} (lists : Lists store triples)
  (recorded : signing.Recorded stored signature ids triples)
include lists recorded

/-- What is found of a signature is what it was declared with. -/
theorem objects_recorded {subject : String} {predicate : Predicate}
    (own : predicate ∈ ofSignature)
    (concerns : ∀ object literal, Builder.Concerns signature
      ⟨subject, predicate.uri, object, literal⟩) :
    objects store (some subject) predicate =
      (((signatureTriples stored signature ((ids.zip signing.types).zipIdx) signing.result
        signing.exceptions predicate).filter
          (Pattern.holds ⟨subject, predicate.uri, none⟩)).eraseDups).map (·.object) := by
  rw [objects, lists.search, recorded.told predicate own]
  rintro ⟨_, _, object, literal⟩ holds
  simp only [Pattern.holds, agrees, Bool.and_true, Bool.and_eq_true, beq_iff_eq] at holds
  obtain ⟨rfl, rfl⟩ := holds
  exact ⟨rfl, concerns object literal⟩

/-- Of the texts a signature was declared with by one predicate, each is found once. -/
theorem objects_of_signature {predicate : Predicate}
    (own : predicate ∈ [Predicate.contains .parameter, .returnType, .throwsException])
    {texts : List String} {literal : Bool}
    (declared : signatureTriples stored signature ((ids.zip signing.types).zipIdx) signing.result
      signing.exceptions predicate =
        texts.map fun text => ⟨signature.text, predicate.uri, text, literal⟩) :
    objects store (some signature.text) predicate = texts.eraseDups := by
  have own_signature : predicate ∈ ofSignature := by
    have among : ∀ other ∈ [Predicate.contains .parameter, .returnType, .throwsException],
        other ∈ ofSignature := by decide
    exact among predicate own
  have apart : Function.Injective fun text =>
      (⟨signature.text, predicate.uri, text, literal⟩ : Triple) :=
    fun _ _ same => (Triple.mk.inj same).2.2.1
  rw [objects_recorded lists recorded own_signature (Builder.concerns_signature own signature),
    declared, List.filter_eq_self.mpr, eraseDups_map apart, List.map_map]
  · exact List.map_id _
  · intro triple listed
    obtain ⟨text, _, rfl⟩ := List.mem_map.mp listed
    simp [Pattern.holds, agrees]

theorem parameters_held (distinct : ids.Nodup) :
    objects store (some signature.text) (.contains .parameter) = ids.map Identifier.text := by
  have declared : signatureTriples stored signature ((ids.zip signing.types).zipIdx) signing.result
      signing.exceptions (.contains .parameter) = (ids.map Identifier.text).map fun text =>
        ⟨signature.text, (Predicate.contains .parameter).uri, text, false⟩ := by
    conv_rhs => rw [← map_placed recorded.made recorded.even 0, List.map_map, List.map_map]
    rfl
  rw [objects_of_signature lists recorded (by decide) declared,
    eraseDups_of_nodup (distinct.map fun _ _ => Identifier.text_injective)]

theorem result_recorded :
    value? store (some signature.text) .returnType = signing.result.map stored := by
  have declared : signatureTriples stored signature ((ids.zip signing.types).zipIdx) signing.result
      signing.exceptions .returnType = (signing.result.toList.map stored).map fun text =>
        ⟨signature.text, Predicate.returnType.uri, text, true⟩ := by simp [signatureTriples]
  rw [value?, objects_of_signature lists recorded (by decide) declared]
  cases signing.result with
  | none => rfl
  | some type => rfl

theorem exceptions_recorded : objects store (some signature.text) .throwsException =
    (signing.exceptions.map stored).eraseDups := by
  have declared : signatureTriples stored signature ((ids.zip signing.types).zipIdx) signing.result
      signing.exceptions .throwsException = (signing.exceptions.map stored).map fun text =>
        ⟨signature.text, Predicate.throwsException.uri, text, false⟩ := by simp [signatureTriples]
  exact objects_of_signature lists recorded (by decide) declared

/-- Of a parameter there is found just what it was declared with. -/
theorem value?_of_parameter (distinct : ids.Nodup) {predicate : Predicate}
    (text : (Identifier × TypeRef) × Nat → String)
    (own : predicate ∈ [Predicate.parameterType, .parameterIndex])
    (declared : signatureTriples stored signature ((ids.zip signing.types).zipIdx) signing.result
      signing.exceptions predicate = ((ids.zip signing.types).zipIdx).map fun placed =>
        ⟨placed.1.1.text, predicate.uri, text placed, true⟩)
    {placed : (Identifier × TypeRef) × Nat} (member : placed ∈ (ids.zip signing.types).zipIdx) :
    value? store (some placed.1.1.text) predicate = some (text placed) := by
  have own_signature : predicate ∈ ofSignature := by
    have among : ∀ other ∈ [Predicate.parameterType, .parameterIndex],
        other ∈ ofSignature := by decide
    exact among predicate own
  have all := map_placed recorded.made recorded.even 0
  have id_member : placed.1.1 ∈ ids := by
    rw [← all]
    exact List.mem_map_of_mem member
  obtain ⟨last, pushed⟩ := pushed_of_ids recorded.made id_member
  have concerns (object : String) (literal : Bool) :
      Builder.Concerns signature ⟨placed.1.1.text, predicate.uri, object, literal⟩ := by
    rw [pushed]
    exact Builder.concerns_parameter own signature last object literal
  have found (object : String) :
      object ∈ objects store (some placed.1.1.text) predicate ↔
        ∃ other ∈ (ids.zip signing.types).zipIdx, other.1.1 = placed.1.1 ∧ text other = object := by
    rw [objects_recorded lists recorded own_signature concerns, declared]
    simp only [List.mem_map, List.mem_eraseDups, List.mem_filter, Pattern.holds, agrees,
      Bool.and_true, Bool.and_eq_true, beq_iff_eq]
    constructor
    · rintro ⟨_, ⟨⟨other, listed, rfl⟩, same, _⟩, rfl⟩
      exact ⟨other, listed, Identifier.text_injective same.symm, rfl⟩
    · rintro ⟨other, listed, same, rfl⟩
      exact ⟨_, ⟨⟨other, listed, rfl⟩, congrArg Identifier.text same.symm, rfl⟩, rfl⟩
  -- Two parameters have no identifier in common, so no other value is told of this one.
  refine value?_of_only ((found _).mpr ⟨placed, member, rfl, rfl⟩) fun object told => ?_
  obtain ⟨other, listed, same, rfl⟩ := (found object).mp told
  rw [← all] at distinct
  rw [List.inj_on_of_nodup_map distinct listed member same]

/-- A parameter is read as it was declared. -/
theorem parameter_recorded (distinct : ids.Nodup)
    (short : (Text.naturalText signing.names.length).length ≤ Text.digitLimit)
    {placed : (Identifier × TypeRef) × Nat} (member : placed ∈ (ids.zip signing.types).zipIdx) :
    parameter store placed.1.1.text = .ok (placedParameter stored placed) := by
  have typed : value? store (some placed.1.1.text) .parameterType = some (stored placed.1.2) :=
    value?_of_parameter lists recorded distinct (fun placed => stored placed.1.2) (by decide) rfl
      member
  have index : value? store (some placed.1.1.text) .parameterIndex =
      some (toString placed.2) :=
    value?_of_parameter lists recorded distinct (fun placed => toString placed.2) (by decide) rfl
      member
  have below : placed.2 ≤ signing.names.length := by
    have before := List.snd_lt_of_mem_zipIdx member
    rw [List.length_zip] at before
    have even := recorded.even
    omega
  have read := Text.readWhole_toString ((Text.length_naturalText_mono below).trans short)
  simp only [parameter, naming_text, typed, index, Option.getD_some,
    if_neg (Text.toString_ne_empty placed.2), read]
  rfl

/-- The parameters are read in the order of the declaration. -/
theorem parameters_recorded (distinct : ids.Nodup)
    (short : (Text.naturalText signing.names.length).length ≤ Text.digitLimit) :
    parameters store (some signature.text) =
      .ok (((ids.zip signing.types).zipIdx).map (placedParameter stored)) := by
  have signed : hasKind store (some signature.text) .signature = true :=
    lists.hasKind_iff.mpr ⟨false, recorded.kind⟩
  have held : contained store (some signature.text) .parameter =
      sorted (ids.map Identifier.text) := by
    rw [contained, parameters_held lists recorded distinct, List.filter_eq_self.mpr]
    intro text listed
    obtain ⟨id, member, rfl⟩ := List.mem_map.mp listed
    exact lists.hasKind_iff.mpr ⟨false, recorded.parameter_kind id member⟩
  have each : List.Forall₂ (fun text entry => parameter store text = .ok entry)
      (ids.map Identifier.text)
      (((ids.zip signing.types).zipIdx).map (placedParameter stored)) := by
    conv_lhs => rw [← map_placed recorded.made recorded.even 0, List.map_map]
    rw [List.forall₂_map_left_iff, List.forall₂_map_right_iff, List.forall₂_same]
    exact fun placed member => parameter_recorded lists recorded distinct short member
  have rising : (((ids.zip signing.types).zipIdx).map (placedParameter stored)).Pairwise
      fun left right => left.index < right.index := by
    have positions : (((ids.zip signing.types).zipIdx).map Prod.snd).Pairwise (· < ·) := by
      rw [List.zipIdx_map_snd]
      exact List.pairwise_lt_range'
    rw [List.pairwise_map] at positions ⊢
    exact positions.imp Int.ofNat_lt.mpr
  have found := mapM_in_order each rising
  simp only [parameters, require, signed, if_true, held]
  exact found

theorem signature_recorded (distinct : ids.Nodup)
    (short : (Text.naturalText signing.names.length).length ≤ Text.digitLimit) :
    Query.signature store signature.text =
      .ok { called signature with
        parameters := ((ids.zip signing.types).zipIdx).map (placedParameter stored)
        result := signing.result.map stored
        exceptions := (signing.exceptions.map stored).eraseDups } := by
  simp only [Query.signature, naming_text, parameters_recorded lists recorded distinct short,
    result_recorded lists recorded, exceptions_recorded lists recorded]
  rfl

end

end Query

end CodeFacts
