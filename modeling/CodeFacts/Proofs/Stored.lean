import CodeFacts.Proofs.Binding

/-!
The references that survive their stored form: primitive types, names of types in packages, names of
types inside of types, and arrays of these to any depth. A type inside of another is stored under
the identifier of that, whatever space it has, and its name is put together again from the names on
the way to it.
-/

namespace CodeFacts

namespace Dotted

theorem segments_join {names : List String} (some_name : names ≠ [])
    (undotted : ∀ name ∈ names, '.' ∉ name.toList) : segments (join names) = names := by
  rw [segments, join, String.toList_ofList, Text.splitOn_joinWith (by simpa using some_name)]
  · simp [Function.comp_def]
  · intro part member
    obtain ⟨name, listed, rfl⟩ := List.mem_map.mp member
    exact undotted name listed

theorem segments_undotted {name : String} (undotted : '.' ∉ name.toList) :
    segments name = [name] := by
  simp [segments, Text.splitOn_eq_singleton undotted]

end Dotted

namespace Identifier

/-- Whether an identifier is that of a type in packages: its fragments are packages and behind them
types, one at least, and all have a name. -/
structure OfType (id : Identifier) : Prop where
  shape : ∃ packages types, id.fragments = packages ++ types ∧ types ≠ [] ∧
    (∀ fragment ∈ packages, fragment.qualifier = EntityKind.package.key) ∧
    ∀ fragment ∈ types, ∃ kind ∈ EntityKind.types, fragment.qualifier = kind.key
  named : ∀ fragment ∈ id.fragments, fragment.name ≠ ""

namespace OfType

variable {id : Identifier}

theorem kinds (type : id.OfType) : ∀ fragment ∈ id.fragments,
    ∃ kind ∈ EntityKind.package :: EntityKind.types, fragment.qualifier = kind.key := by
  obtain ⟨packages, types, fragments, _, outer, inner⟩ := type.shape
  intro fragment member
  rw [fragments] at member
  rcases List.mem_append.mp member with package | own
  · exact ⟨.package, List.mem_cons_self, outer fragment package⟩
  · obtain ⟨kind, listed, qualifier⟩ := inner fragment own
    exact ⟨kind, List.mem_cons_of_mem _ listed, qualifier⟩

theorem last (type : id.OfType) :
    ∃ kind ∈ EntityKind.types, id.strongestQualifier = .ok kind.key := by
  obtain ⟨packages, types, fragments, some_type, _, inner⟩ := type.shape
  obtain ⟨kind, listed, qualifier⟩ := inner (types.getLast some_type) (List.getLast_mem some_type)
  refine ⟨kind, listed, ?_⟩
  rw [strongestQualifier, fragments, List.getLast?_append_of_ne_nil _ some_type,
    List.getLast?_eq_some_getLast some_type]
  exact congrArg Except.ok qualifier

/-- The dotted name of a type is made of the names of all its fragments. -/
theorem segments_dottedName (type : id.OfType) :
    Dotted.segments id.dottedName = id.fragments.map (·.name) := by
  have kept : (id.fragments.map (·.name)).filter (· != "") = id.fragments.map (·.name) := by
    rw [List.filter_eq_self]
    intro name member
    obtain ⟨fragment, listed, rfl⟩ := List.mem_map.mp member
    exact bne_iff_ne.mpr (type.named fragment listed)
  rw [dottedName, kept]
  apply Dotted.segments_join
  · obtain ⟨packages, types, fragments, some_type, _⟩ := type.shape
    simp [fragments, some_type]
  · intro name member
    obtain ⟨fragment, _, rfl⟩ := List.mem_map.mp member
    exact ((reservedMark?_eq_none_iff _).mp fragment.name_plain).1

end OfType

end Identifier

namespace TypeRef

/-- Whether a text is the identifier of a type, and a name that of one more segment inside it. -/
def Inside (enclosing name : String) : Prop :=
  ∃ (outer : Identifier) (segment : String), enclosing = outer.text ∧ outer.OfType ∧
    name = outer.dottedName ++ "." ++ segment ∧ segment ≠ "" ∧ reservedMark? segment = none

/-- Whether a reference is one of those that declarations make. A count of dimensions must not have
more digits than numbers are written and read with. -/
def Declared : TypeRef → Prop
  | .primitive name => name ∈ primitiveNames
  | .named _ name none => Dotted.Proper name
  | .named _ name (some enclosing) => Inside enclosing name
  | .array element dimensions =>
      element.Declared ∧ (Text.naturalText dimensions.natAbs).length ≤ Text.digitLimit

/-- Whether a reference is to no class as one that is thrown. -/
def Unthrown : TypeRef → Prop
  | .named .exception _ _ => False
  | .array element _ => element.Unthrown
  | _ => True

theorem settled_of_unthrown {type : TypeRef} (unthrown : type.Unthrown) : type.settled = type := by
  induction type with
  | primitive => rfl
  | named kind =>
      cases kind with
      | exception => exact unthrown.elim
      | _ => rfl
  | array element dimensions ih => rw [settled, ih unthrown]

theorem storable_of_proper {kind : NamedKind} {name : String} (proper : Dotted.Proper name) :
    (named kind name none).storable = true := by
  simp only [storable, Option.isNone_none, Bool.true_and, List.all_eq_true]
  intro segment member
  obtain ⟨colon, hash⟩ := proper.2.segment member
  simp [proper.filled member, colon, hash]

theorem read_of_inside {kind : NamedKind} {enclosing name : String}
    (inside : Inside enclosing name) :
    ∃ text, (named kind name (some enclosing)).text = .ok text ∧
      read text = .ok (named kind name (some enclosing)).settled := by
  obtain ⟨outer, segment, rfl, type, rfl, filled, plain⟩ := inside
  have undotted := ((reservedMark?_eq_none_iff segment).mp plain).1
  have segments : Dotted.segments (outer.dottedName ++ "." ++ segment) =
      outer.fragments.map (·.name) ++ [segment] := by
    rw [Dotted.segments_within, type.segments_dottedName, Dotted.segments_undotted undotted]
  have all_filled : "" ∉ Dotted.segments (outer.dottedName ++ "." ++ segment) := by
    rw [segments]
    intro empty
    rcases List.mem_append.mp empty with member | last
    · obtain ⟨fragment, listed, none⟩ := List.mem_map.mp member
      exact type.named fragment listed none
    · exact filled (List.mem_singleton.mp last).symm
  -- The name splits in two ways into segments, so that its last one is the segment added.
  have simple : Dotted.simple (outer.dottedName ++ "." ++ segment) = segment := by
    have split := (Dotted.segments_eq_of_filled all_filled).symm.trans segments
    exact List.singleton_inj.mp (List.append_inj_right' split rfl)
  exact read_inside all_filled (by rw [simple]; exact plain) (by rw [simple]; exact segments)
    type.kinds type.last

/-- A reference that declarations make has a text, and the text is read back as the reference. Only
a class that is thrown is read as a class of the same name inside the same type, whose text is the
same one. -/
theorem declared_read_back {type : TypeRef} (declared : type.Declared) :
    ∃ text, type.text = .ok text ∧ type.settled.text = .ok text ∧
      read text = .ok type.settled ∧ (type.Unthrown → read text = .ok type) := by
  have stored : ∃ text, type.text = .ok text ∧ read text = .ok type.settled := by
    induction type with
    | primitive name => exact ⟨primitiveText name, rfl, read_primitive declared⟩
    | named kind name enclosing =>
        cases enclosing with
        | none =>
            have storable : (named kind name none).storable = true := storable_of_proper declared
            obtain ⟨text, written, _, read⟩ := read_named storable
            exact ⟨text, written, read⟩
        | some enclosing => exact read_of_inside declared
    | array element dimensions ih =>
        obtain ⟨text, written, read⟩ := ih declared.1
        refine ⟨arrayStart ++ Text.decimal dimensions ++ ":" ++ text, ?_,
          read_array declared.2 read⟩
        rw [TypeRef.text, written]
        rfl
  obtain ⟨text, written, read⟩ := stored
  refine ⟨text, written, (text_settled type).trans written, read, ?_⟩
  intro unthrown
  rw [read, settled_of_unthrown unthrown]

/-- An enumeration in a class of a package, in a space of its own. -/
theorem exists_enumerationInClass : ∃ id : Identifier, id.OfType ∧
    id.text = "urn:model#jpackage:a.jclass:C.jenumeration:E" ∧ id.dottedName = "a.C.E" := by
  refine ⟨⟨⟨"urn:model#", by decide +kernel⟩,
    [⟨"a", "jpackage", by decide +kernel, by decide +kernel, by decide +kernel⟩,
      ⟨"C", "jclass", by decide +kernel, by decide +kernel, by decide +kernel⟩,
      ⟨"E", "jenumeration", by decide +kernel, by decide +kernel, by decide +kernel⟩]⟩,
    ⟨⟨List.take 1 _, List.drop 1 _, (List.take_append_drop 1 _).symm, ?_, ?_, ?_⟩, ?_⟩, ?_, ?_⟩
  · decide
  · decide
  · decide
  · decide
  · decide +kernel
  · decide +kernel

/-- An interface in an enumeration, as the elements of an array of arrays. -/
theorem arrayOfNested_read_back :
    let outer := "urn:model#jpackage:a.jclass:C.jenumeration:E"
    let type := array (array (named .interface "a.C.E.I" (some outer)) 2) (-1)
    type.Declared ∧ type.Unthrown ∧ ∃ text, type.text = .ok text ∧ read text = .ok type := by
  intro outer type
  obtain ⟨id, ofType, text, dotted⟩ := exists_enumerationInClass
  have inside : Inside outer "a.C.E.I" := by
    refine ⟨id, "I", text.symm, ofType, ?_, by decide, by decide +kernel⟩
    rw [dotted]
    decide +kernel
  have declared : type.Declared := ⟨⟨inside, by decide +kernel⟩, by decide +kernel⟩
  obtain ⟨stored, written, _, _, read⟩ := declared_read_back declared
  exact ⟨declared, trivial, stored, written, read trivial⟩

end TypeRef

end CodeFacts
