import CodeFacts.Proofs.Identifier
import CodeFacts.Proofs.Steps
import CodeFacts.Proofs.Text.Integer
import CodeFacts.TypeRef

/-!
References to types are stored as texts and read back. A primitive type, a name and an array have
texts of different qualifiers, so that each is read as what it was written for; only that a class
may be thrown is not stored.
-/

namespace CodeFacts

theorem cut_qualifier {first second more rest : List Char} (plain : ':' ∉ first)
    (other_plain : ':' ∉ second) (same : first ++ ':' :: more = second ++ ':' :: rest) :
    first = second ∧ more = rest := by
  have cut := congrArg (Text.cut ':') same
  rw [Text.cut_append_mark more plain, Text.cut_append_mark rest other_plain] at cut
  exact Prod.mk.inj (Option.some.inj cut)

/-- Whether a text begins, behind the space of the model, with a qualifier and a colon. -/
def Qualified (qualifier text : List Char) : Prop :=
  ':' ∉ qualifier ∧ ∃ more, text = modelSpace.toList ++ (qualifier ++ ':' :: more)

theorem Qualified.unique {first second text : List Char} (one : Qualified first text)
    (other : Qualified second text) : first = second := by
  obtain ⟨plain, more, same⟩ := one
  obtain ⟨other_plain, rest, other_same⟩ := other
  exact (cut_qualifier plain other_plain (List.append_cancel_left (same.symm.trans other_same))).1

theorem Qualified.ne_empty {qualifier : List Char} {text : String}
    (qualified : Qualified qualifier text.toList) : text ≠ "" := by
  rintro rfl
  obtain ⟨_, more, same⟩ := qualified
  simp at same

namespace TypeRef

theorem qualified_primitiveText (name : String) :
    Qualified primitiveKey.toList (primitiveText name).toList := by
  refine ⟨by decide +kernel, name.toList, ?_⟩
  simp [primitiveText, resource]

theorem qualified_of_arrayStart {text : List Char} (array : arrayStart.toList <+: text) :
    Qualified arrayKey.toList text := by
  obtain ⟨more, rfl⟩ := array
  refine ⟨by decide +kernel, more, ?_⟩
  simp [arrayStart, resource]

theorem qualified_text {id : Identifier} {first : Fragment} {rest : List Fragment}
    (space : id.space = Space.model) (fragments : id.fragments = first :: rest) :
    Qualified first.qualifier.toList id.text.toList := by
  obtain ⟨_, colon, _⟩ := (reservedMark?_eq_none_iff _).mp first.qualifier_plain
  obtain ⟨more, begins⟩ := Identifier.path_cons id.space first rest
  refine ⟨colon, more, ?_⟩
  have same : id = ⟨id.space, first :: rest⟩ := by rw [← fragments]
  rw [Identifier.toList_text, same, begins, space]
  rfl

/-- A text that begins with the space of the model is that of an identifier in the space, as a space
has no hash mark but its last. -/
theorem space_of_qualified {id : Identifier} {qualifier : List Char}
    (qualified : Qualified qualifier id.text.toList) : id.space = Space.model := by
  obtain ⟨start, ends, absent⟩ := id.space.toList_eq
  obtain ⟨start', ends', absent'⟩ := Space.model.toList_eq
  obtain ⟨_, more, same⟩ := qualified
  rw [Identifier.toList_text, ends, show modelSpace.toList = start' ++ ['#'] from ends',
    List.append_assoc, List.append_assoc] at same
  have cut := congrArg (Text.cut '#') same
  rw [List.singleton_append, List.singleton_append, Text.cut_append_mark _ absent,
    Text.cut_append_mark _ absent'] at cut
  obtain ⟨rfl, _⟩ := Prod.mk.inj (Option.some.inj cut)
  rw [Space.mk.injEq]
  exact String.toList_injective (ends.trans ends'.symm)

/-- The text of an identifier is no primitive type and no array, whose qualifiers are their own. -/
theorem readChars_text {id : Identifier} {first : Fragment} {rest : List Fragment}
    (fragments : id.fragments = first :: rest)
    (no_primitive : first.qualifier ≠ primitiveKey) (no_array : first.qualifier ≠ arrayKey) :
    readChars id.text.toList = ofIdentifier id.text id := by
  have own {qualifier : List Char} (qualified : Qualified qualifier id.text.toList) :
      first.qualifier.toList = qualifier :=
    (qualified_text (space_of_qualified qualified) fragments).unique qualified
  have unfound : (primitiveNames.find? fun name => (primitiveText name).toList == id.text.toList) =
      none := by
    rw [List.find?_eq_none]
    intro name _ same
    have equal : (primitiveText name).toList = id.text.toList := by simpa using same
    have primitive := qualified_primitiveText name
    rw [equal] at primitive
    exact no_primitive (String.toList_injective (own primitive))
  have unarrayed : ¬arrayStart.toList <+: id.text.toList := fun array =>
    no_array (String.toList_injective (own (qualified_of_arrayStart array)))
  rw [readChars, unfound]
  simp only [unarrayed, dite_false, String.ofList_toList, Identifier.read_text]
  rfl

/-- What a stored reference is read back as: a class that is thrown is read as a class. -/
def settled : TypeRef → TypeRef
  | .primitive name => .primitive name
  | .named .interface name enclosing => .named .interface name enclosing
  | .named _ name enclosing => .named .classType name enclosing
  | .array element dimensions => .array element.settled dimensions

theorem text_settled (type : TypeRef) : type.settled.text = type.text := by
  induction type with
  | primitive name => rfl
  | named kind name enclosing => cases kind <;> cases enclosing <;> rfl
  | array element dimensions ih => rw [settled, text, ih, text]

/-- Whether a reference can be stored and read back: a primitive type, a name of filled segments
without marks, or an array of those. A count of dimensions must not have more digits than numbers
are read with. -/
def storable : TypeRef → Bool
  | .primitive name => decide (name ∈ primitiveNames)
  | .named _ name enclosing =>
      enclosing.isNone && (Dotted.segments name).all fun segment =>
        segment != "" && !segment.toList.contains ':' && !segment.toList.contains '#'
  | .array element dimensions =>
      element.storable && decide ((Text.naturalText dimensions.natAbs).length ≤ Text.digitLimit)

theorem read_primitive {name : String} (known : name ∈ primitiveNames) :
    readChars (primitiveText name).toList = .ok (.primitive name) := by
  have found : (primitiveNames.find? fun other =>
      (primitiveText other).toList == (primitiveText name).toList) = some name := by
    revert name
    decide +kernel
  rw [readChars, found]

theorem mapM_make {key : String} {segments : List String}
    (plain : ∀ segment ∈ segments, reservedMark? segment = none)
    (key_plain : reservedMark? key = none ∧ key ≠ "") :
    ∃ fragments, segments.mapM (Fragment.make · key) = .ok fragments ∧
      fragments.map (·.name) = segments ∧ ∀ fragment ∈ fragments, fragment.qualifier = key := by
  induction segments with
  | nil => exact ⟨[], rfl, rfl, fun _ member => by cases member⟩
  | cons segment rest ih =>
      obtain ⟨fragments, made, names, qualifiers⟩ :=
        ih fun other later => plain other (List.mem_cons_of_mem segment later)
      have valid : reservedMark? segment = none ∧ reservedMark? key = none ∧ key ≠ "" :=
        ⟨plain segment List.mem_cons_self, key_plain⟩
      refine ⟨⟨segment, key, valid.1, valid.2.1, valid.2.2⟩ :: fragments, ?_, ?_, ?_⟩
      · rw [List.mapM_cons, Fragment.make, dif_pos valid, made]
        rfl
      · rw [List.map_cons, names]
      · intro fragment member
        rcases List.mem_cons.mp member with rfl | later
        · rfl
        · exact qualifiers fragment later

theorem plain_of_storable {kind : NamedKind} {name : String} {enclosing : Option String}
    (storable : (named kind name enclosing).storable = true) :
    "" ∉ Dotted.segments name ∧ ∀ segment ∈ Dotted.segments name, reservedMark? segment = none := by
  simp only [TypeRef.storable, Bool.and_eq_true, List.all_eq_true, bne_iff_ne, ne_eq,
    Bool.not_eq_true', List.contains_eq_mem, decide_eq_false_iff_not] at storable
  refine ⟨fun empty => (storable.2 "" empty).1.1 rfl, ?_⟩
  intro segment member
  have unmarked := storable.2 segment member
  exact (reservedMark?_eq_none_iff segment).mpr
    ⟨Dotted.segment_undotted member, unmarked.1.2, unmarked.2⟩

theorem ofTypeName_ok {name : String} (kind : EntityKind) (filled : "" ∉ Dotted.segments name)
    (plain : ∀ segment ∈ Dotted.segments name, reservedMark? segment = none) :
    ∃ packages last, Identifier.ofTypeName name kind.key =
        .ok { Identifier.empty with fragments := packages ++ [last] } ∧
      (packages ++ [last]).map (·.name) = Dotted.segments name ∧
      (∀ fragment ∈ packages, fragment.qualifier = EntityKind.package.key) ∧
      last.qualifier = kind.key := by
  have split := Dotted.segments_eq_of_filled filled
  have simple_plain : reservedMark? (Dotted.simple name) = none := by
    apply plain
    rw [split]
    exact List.mem_append_right _ (List.mem_singleton.mpr rfl)
  obtain ⟨packages, made, names, qualifiers⟩ : ∃ packages,
      Identifier.packagesOf name = .ok packages ∧
      packages.map (·.name) =
        (if Dotted.outer name = "" then [] else Dotted.segments (Dotted.outer name)) ∧
      ∀ fragment ∈ packages, fragment.qualifier = EntityKind.package.key := by
    unfold Identifier.packagesOf
    by_cases single : Dotted.outer name = ""
    · exact ⟨[], by simp only [single, if_true], by simp [single], fun _ member => by cases member⟩
    · simp only [single, if_false] at split ⊢
      apply mapM_make _ EntityKind.package.key_plain
      intro segment member
      apply plain
      rw [split]
      exact List.mem_append_left _ member
  have valid := And.intro simple_plain kind.key_plain
  refine ⟨packages, ⟨Dotted.simple name, kind.key, valid.1, valid.2.1, valid.2.2⟩, ?_, ?_,
    qualifiers, rfl⟩
  · rw [Identifier.ofTypeName, made, Fragment.make, dif_pos valid]
    rfl
  · rw [List.map_append, names, split]
    rfl

theorem dottedName_eq {id : Identifier} {name : String} (filled : "" ∉ Dotted.segments name)
    (names : id.fragments.map (·.name) = Dotted.segments name) : id.dottedName = name := by
  have kept : (Dotted.segments name).filter (· != "") = Dotted.segments name := by
    rw [List.filter_eq_self]
    intro segment member
    exact bne_iff_ne.mpr fun empty => filled (empty ▸ member)
  rw [Identifier.dottedName, names, kept, Dotted.join_segments]

theorem ofIdentifier_named {id : Identifier} {packages : List Fragment} {last : Fragment}
    {kind : NamedKind} (text : String) (fragments : id.fragments = packages ++ [last])
    (outer : ∀ fragment ∈ packages, fragment.qualifier = EntityKind.package.key)
    (qualifier : last.qualifier = kind.entity.key) :
    ofIdentifier text id = .ok (named kind id.dottedName none).settled := by
  unfold ofIdentifier
  rw [fragments, List.reverse_append, List.reverse_singleton, List.singleton_append]
  cases shape : packages.reverse with
  | nil =>
      simp only [qualifier]
      cases kind <;> rfl
  | cons next rest =>
      -- What stands before the last fragment is a package, so that no type is around this one.
      have package : next.qualifier = EntityKind.package.key := by
        apply outer
        rw [← List.mem_reverse, shape]
        exact List.mem_cons_self
      simp only [package, if_true, qualifier]
      cases kind <;> rfl

theorem read_named {kind : NamedKind} {name : String}
    (storable : (named kind name none).storable = true) :
    ∃ text, (named kind name none).text = .ok text ∧ text ≠ "" ∧
      read text = .ok (named kind name none).settled := by
  obtain ⟨filled, plain⟩ := plain_of_storable storable
  obtain ⟨packages, last, made, names, outer, qualifier⟩ :=
    ofTypeName_ok kind.entity filled plain
  generalize located : { Identifier.empty with fragments := packages ++ [last] } = id at made
  have space : id.space = Space.model := by rw [← located]; rfl
  have fragments : id.fragments = packages ++ [last] := by rw [← located]
  -- The first fragment is a package or the type itself, and neither is primitive or an array.
  obtain ⟨first, rest, shape, own⟩ : ∃ first rest, id.fragments = first :: rest ∧
      (first.qualifier = EntityKind.package.key ∨ first.qualifier = kind.entity.key) := by
    rw [fragments]
    cases packages with
    | nil => exact ⟨last, [], rfl, Or.inr qualifier⟩
    | cons first rest => exact ⟨first, rest ++ [last], rfl, Or.inl (outer first List.mem_cons_self)⟩
  have not_own : first.qualifier ≠ primitiveKey ∧ first.qualifier ≠ arrayKey := by
    rcases own with package | type
    · rw [package]
      decide
    · rw [type]
      cases kind <;> decide
  refine ⟨id.text, ?_, (qualified_text space shape).ne_empty, ?_⟩
  · rw [text, made]
    rfl
  · rw [read, readChars_text shape not_own.1 not_own.2,
      ofIdentifier_named id.text fragments outer qualifier,
      dottedName_eq filled (by rw [fragments, names])]

theorem read_array {element : TypeRef} {dimensions : Int} {stored : String}
    (short : (Text.naturalText dimensions.natAbs).length ≤ Text.digitLimit)
    (read_element : read stored = .ok element) :
    read (arrayStart ++ Text.decimal dimensions ++ ":" ++ stored) =
      .ok (array element dimensions) := by
  have whole : (arrayStart ++ Text.decimal dimensions ++ ":" ++ stored).toList =
      arrayStart.toList ++ (Text.integerText dimensions ++ ':' :: stored.toList) := by
    simp [Text.decimal]
  have starts : arrayStart.toList <+:
      arrayStart.toList ++ (Text.integerText dimensions ++ ':' :: stored.toList) :=
    List.prefix_append _ _
  have parts : arrayParts (arrayStart.toList ++
      (Text.integerText dimensions ++ ':' :: stored.toList)) =
      (Text.integerText dimensions, stored.toList) := by
    have colon : ':' ∉ Text.integerText dimensions := fun member =>
      (Text.integerText_unpadded dimensions ':' member).2 rfl
    rw [arrayParts, ← String.length_toList, List.drop_left, Text.cut_append_mark _ colon]
    rfl
  have unfound : (primitiveNames.find? fun name => (primitiveText name).toList ==
      arrayStart.toList ++ (Text.integerText dimensions ++ ':' :: stored.toList)) = none := by
    rw [List.find?_eq_none]
    intro name _ same
    have primitive := qualified_primitiveText name
    rw [beq_iff_eq.mp same] at primitive
    exact absurd (primitive.unique (qualified_of_arrayStart starts)) (by decide)
  rw [read, whole, readChars, unfound]
  simp only [starts, dite_true, parts]
  rw [show readChars stored.toList = .ok element from read_element]
  rw [show String.ofList (Text.integerText dimensions) = Text.decimal dimensions from rfl]
  simp only [Text.readWhole_decimal short]
  rfl

/-- A reference that can be stored has a text, and the text is read back as what it settles to. -/
theorem read_stored {type : TypeRef} (storable : type.storable = true) :
    ∃ text, type.text = .ok text ∧ text ≠ "" ∧ read text = .ok type.settled := by
  induction type with
  | primitive name =>
      have known : name ∈ primitiveNames := of_decide_eq_true storable
      exact ⟨primitiveText name, rfl, (qualified_primitiveText name).ne_empty, read_primitive known⟩
  | named kind name enclosing =>
      obtain rfl : enclosing = none := by
        simp only [TypeRef.storable, Bool.and_eq_true, Option.isNone_iff_eq_none] at storable
        exact storable.1
      exact read_named storable
  | array element dimensions ih =>
      simp only [TypeRef.storable, Bool.and_eq_true, decide_eq_true_eq] at storable
      obtain ⟨stored, written, _, read_element⟩ := ih storable.1
      refine ⟨arrayStart ++ Text.decimal dimensions ++ ":" ++ stored, ?_, ?_,
        read_array storable.2 read_element⟩
      · rw [text, written]
        rfl
      · intro empty
        have begins := congrArg String.toList empty
        simp [arrayStart, resource, modelSpace] at begins

end TypeRef

end CodeFacts
