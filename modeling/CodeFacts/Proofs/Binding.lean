import CodeFacts.Proofs.Builder.Atomic
import CodeFacts.Proofs.Lookup

/-!
What references are stored as. A type is known by an identifier that spells its dotted name, so what
is stored for a reference is read back as the reference with the type around it filled in.
-/

namespace CodeFacts

/-- Whether an identifier is one that a type of a dotted name has: the name is spelled by fragments
for packages and types, and the last of them is a type. -/
structure Identifier.Spells (id : Identifier) (name : String) : Prop where
  space : id.space = Space.model
  names : id.fragments.map (·.name) = Dotted.segments name
  kinds : ∀ fragment ∈ id.fragments,
    ∃ kind ∈ EntityKind.package :: EntityKind.types, fragment.qualifier = kind.key
  last : ∃ kind ∈ EntityKind.types, id.strongestQualifier = .ok kind.key

namespace Identifier.Spells

variable {id outer : Identifier} {name : String}

theorem ofTypeName {kind : EntityKind} (type : kind ∈ EntityKind.types)
    (filled : "" ∉ Dotted.segments name)
    (plain : ∀ segment ∈ Dotted.segments name, reservedMark? segment = none)
    (made : Identifier.ofTypeName name kind.key = .ok id) : id.Spells name := by
  obtain ⟨packages, last, whole, names, qualifiers, qualifier⟩ :=
    TypeRef.ofTypeName_ok kind filled plain
  rw [whole] at made
  obtain rfl := Except.ok.inj made
  refine ⟨rfl, names, fun fragment member => ?_, kind, type, ?_⟩
  · rcases List.mem_append.mp member with package | same
    · exact ⟨.package, List.mem_cons_self, qualifiers fragment package⟩
    · rw [List.mem_singleton.mp same]
      exact ⟨kind, List.mem_cons_of_mem _ type, qualifier⟩
  · rw [← qualifier]
    exact strongestQualifier_push { Identifier.empty with fragments := packages } last

theorem child {kind : EntityKind} (around : outer.Spells (Dotted.outer name))
    (type : kind ∈ EntityKind.types) (filled : "" ∉ Dotted.segments name)
    (nested : Dotted.outer name ≠ "")
    (made : outer.child (Dotted.simple name) kind.key = .ok id) : id.Spells name := by
  have strongest := strongest_of_child made
  obtain ⟨fragment, rfl, named, qualifier⟩ := push_of_child made
  refine ⟨around.space, ?_, fun other member => ?_, kind, type, strongest⟩
  · rw [Dotted.segments_eq_of_filled filled, if_neg nested, ← around.names, ← named]
    simp [push]
  · rcases List.mem_append.mp member with before | same
    · exact around.kinds other before
    · rw [List.mem_singleton.mp same]
      exact ⟨kind, List.mem_cons_of_mem _ type, qualifier⟩

end Identifier.Spells

namespace Dotted

variable {name : String}

/-- The outer part of a name of filled segments is made of the segments before the last. -/
theorem mem_segments_of_outer (filled : "" ∉ segments name) (nested : outer name ≠ "")
    {segment : String} (member : segment ∈ segments (outer name)) : segment ∈ segments name := by
  rw [segments_eq_of_filled filled, if_neg nested]
  exact List.mem_append_left _ member

theorem Proper.outer (proper : Proper name) (nested : outer name ≠ "") : Proper (outer name) :=
  ⟨fun empty => proper.1 (mem_segments_of_outer proper.1 nested empty), proper.2.outer⟩

theorem length_segments_outer (filled : "" ∉ segments name) (nested : outer name ≠ "") :
    (segments name).length = (segments (outer name)).length + 1 := by
  conv_lhs => rw [segments_eq_of_filled filled, if_neg nested]
  simp

end Dotted

namespace Model

variable {σ : Type} [TripleStore σ] {model : Model σ}

/-- Whether the model tells that a name is that of an entity of a kind: a type is declared, and the
class of a name may be known from outside alone. -/
def Tells (model : Model σ) (name : String) (kind : EntityKind) (id : Identifier) : Prop :=
  model.hasKind id.text kind = true ∨ kind = .classType ∧ model.symbols.knows name = true

/-- How a name comes to be known: as a type in packages, or as one inside of what its outer part is
known as. -/
inductive Known (model : Model σ) : String → Identifier → Prop
  | packaged {name : String} {kind : EntityKind} {id : Identifier}
      (found : model.declaredType name = .ok (some id))
      (outermost : model.enclosingType name = .ok none) (type : kind ∈ EntityKind.types)
      (made : Identifier.ofTypeName name kind.key = .ok id) (told : model.Tells name kind id) :
      Known model name id
  | nested {name : String} {outer : Identifier} {kind : EntityKind} {id : Identifier}
      (found : model.declaredType name = .ok (some id)) (inside : Dotted.outer name ≠ "")
      (around : Known model (Dotted.outer name) outer) (type : kind ∈ EntityKind.types)
      (made : outer.child (Dotted.simple name) kind.key = .ok id)
      (told : model.Tells name kind id) : Known model name id

/-- What a name is known as is a candidate of which the model tells. -/
theorem declaredType_cases {name : String} {id : Identifier} (filled : "" ∉ Dotted.segments name)
    (found : model.declaredType name = .ok (some id)) :
    ∃ enclosing, model.enclosingType name = .ok enclosing ∧ ∃ kind ∈ EntityKind.types,
      candidate enclosing name kind = .ok id ∧ model.Tells name kind id := by
  rw [model.declaredType_eq filled, Steps.bind_ok_iff] at found
  obtain ⟨enclosing, around, found⟩ := found
  obtain ⟨declared, looked, found⟩ := Steps.bind_ok_iff.mp found
  refine ⟨enclosing, around, ?_⟩
  cases declared with
  | some other =>
      obtain rfl := Option.some.inj (Except.ok.inj found)
      obtain ⟨kind, type, made, told⟩ := (declaredAs_found looked).1 other rfl
      exact ⟨kind, type, made, .inl told⟩
  | none =>
      dsimp only at found
      split at found
      · rename_i known
        cases made : candidate enclosing name .classType with
        | error fault =>
            rw [made] at found
            cases found
        | ok other =>
            rw [made] at found
            obtain rfl := Option.some.inj (Except.ok.inj found)
            exact ⟨.classType, by decide, made, .inr ⟨rfl, known⟩⟩
      · cases found

theorem known_of_declaredType {name : String} {id : Identifier} (filled : "" ∉ Dotted.segments name)
    (found : model.declaredType name = .ok (some id)) : model.Known name id := by
  induction size : (Dotted.segments name).length generalizing name id with
  | zero => exact absurd (List.length_eq_zero_iff.mp size) (Dotted.segments_ne_nil name)
  | succ size ih =>
      obtain ⟨enclosing, around, kind, type, made, told⟩ := declaredType_cases filled found
      cases enclosing with
      | none => exact .packaged found around type made told
      | some outer =>
          by_cases outermost : Dotted.outer name = ""
          · rw [enclosingType, if_pos outermost] at around
            cases around
          · rw [enclosingType, if_neg outermost] at around
            have shorter := Dotted.length_segments_outer filled outermost
            refine .nested found outermost (ih (fun empty => filled ?_) around ?_) type made told
            · exact Dotted.mem_segments_of_outer filled outermost empty
            · omega

/-- What a name is known as spells the name. -/
theorem Known.spells {name : String} {id : Identifier} (known : model.Known name id)
    (filled : "" ∉ Dotted.segments name)
    (plain : ∀ segment ∈ Dotted.segments name, reservedMark? segment = none) : id.Spells name := by
  induction known with
  | packaged _ _ type made => exact .ofTypeName type filled plain made
  | nested _ inside _ type made _ ih =>
      have outer {segment : String} := @Dotted.mem_segments_of_outer _ filled inside segment
      have around := ih (fun empty => filled (outer empty)) fun segment member =>
        plain segment (outer member)
      exact around.child type filled inside made

theorem declaredType_spells {name : String} {id : Identifier}
    (filled : "" ∉ Dotted.segments name)
    (plain : ∀ segment ∈ Dotted.segments name, reservedMark? segment = none)
    (found : model.declaredType name = .ok (some id)) : id.Spells name :=
  (known_of_declaredType filled found).spells filled plain

theorem enclosingType_spells {name : String} {id : Identifier}
    (filled : "" ∉ Dotted.segments name)
    (plain : ∀ segment ∈ Dotted.segments name, reservedMark? segment = none)
    (found : model.enclosingType name = .ok (some id)) :
    Dotted.outer name ≠ "" ∧ id.Spells (Dotted.outer name) := by
  by_cases outermost : Dotted.outer name = ""
  · rw [enclosingType, if_pos outermost] at found
    cases found
  · rw [enclosingType, if_neg outermost] at found
    refine ⟨outermost,
      declaredType_spells (fun empty => filled ?_) (fun segment member => ?_) found⟩
    · exact Dotted.mem_segments_of_outer filled outermost empty
    · exact plain segment (Dotted.mem_segments_of_outer filled outermost member)

end Model

namespace TypeRef

theorem ofIdentifier_nested {outer : Identifier} {last : Fragment} {kind : NamedKind}
    (text : String) (qualifier : last.qualifier = kind.entity.key)
    (around : ∃ type ∈ EntityKind.types, outer.strongestQualifier = .ok type.key) :
    ofIdentifier text (outer.push last) =
      .ok (named kind (outer.push last).dottedName (some outer.text)).settled := by
  obtain ⟨type, listed, strongest⟩ := around
  have parent := Identifier.parent_push outer last
  have reversed : (outer.push last).fragments.reverse = last :: outer.fragments.reverse := by
    simp [Identifier.push]
  unfold Identifier.strongestQualifier at strongest
  rw [List.getLast?_eq_head?_reverse] at strongest
  unfold ofIdentifier
  rw [reversed, parent]
  cases shape : outer.fragments.reverse with
  | nil =>
      rw [shape] at strongest
      cases strongest
  | cons next rest =>
      rw [shape] at strongest
      have type_key : next.qualifier = type.key := Except.ok.inj strongest
      have other : next.qualifier ≠ EntityKind.package.key := by
        rw [type_key]
        intro package
        obtain rfl := EntityKind.key_injective package
        exact absurd listed (by decide)
      simp only [other, if_false, qualifier]
      cases kind <;> rfl

/-- A reference inside of a type is read back from what it is stored as, if its name is made of the
names of the fragments for packages and types around it and one more. -/
theorem read_inside {kind : NamedKind} {name : String} {outer : Identifier}
    (filled : "" ∉ Dotted.segments name) (simple_plain : reservedMark? (Dotted.simple name) = none)
    (names : Dotted.segments name = outer.fragments.map (·.name) ++ [Dotted.simple name])
    (kinds : ∀ fragment ∈ outer.fragments,
      ∃ own ∈ EntityKind.package :: EntityKind.types, fragment.qualifier = own.key)
    (around : ∃ type ∈ EntityKind.types, outer.strongestQualifier = .ok type.key) :
    ∃ text, (named kind name (some outer.text)).text = .ok text ∧
      read text = .ok (named kind name (some outer.text)).settled := by
  obtain ⟨id, made, _⟩ := outer.child_plain kind.entity simple_plain
  obtain ⟨last, rfl, last_name, qualifier⟩ := Identifier.push_of_child made
  refine ⟨(outer.push last).text, ?_, ?_⟩
  · rw [text, Identifier.read_text]
    show (do return (← outer.child (Dotted.simple name) kind.entity.key).text) = _
    rw [made]
    rfl
  · obtain ⟨first, rest, shape⟩ : ∃ first rest, outer.fragments = first :: rest := by
      apply List.exists_cons_of_ne_nil
      intro empty
      obtain ⟨_, _, strongest⟩ := around
      rw [Identifier.strongestQualifier, empty] at strongest
      cases strongest
    obtain ⟨own, _, key⟩ := kinds first (shape ▸ List.mem_cons_self)
    have not_own : first.qualifier ≠ primitiveKey ∧ first.qualifier ≠ arrayKey := by
      rw [key]
      cases own <;> decide
    have begins : (outer.push last).fragments = first :: (rest ++ [last]) := by
      simp [Identifier.push, shape]
    have spelled : (outer.push last).fragments.map (·.name) = Dotted.segments name := by
      rw [names, ← last_name]
      simp [Identifier.push]
    rw [read, readChars_text begins not_own.1 not_own.2, ofIdentifier_nested _ qualifier around,
      dottedName_eq filled spelled]

theorem read_nested {kind : NamedKind} {name : String} {outer : Identifier}
    (filled : "" ∉ Dotted.segments name)
    (plain : ∀ segment ∈ Dotted.segments name, reservedMark? segment = none)
    (nested : Dotted.outer name ≠ "") (spells : outer.Spells (Dotted.outer name)) :
    ∃ text, (named kind name (some outer.text)).text = .ok text ∧
      read text = .ok (named kind name (some outer.text)).settled := by
  refine read_inside filled (plain _ (Dotted.simple_mem_segments name)) ?_ spells.kinds spells.last
  rw [spells.names]
  conv_lhs => rw [Dotted.segments_eq_of_filled filled, if_neg nested]

end TypeRef

theorem TypeRef.unmarked_of_storable {kind : NamedKind} {name : String}
    (storable : (TypeRef.named kind name none).storable = true) : Dotted.Unmarked name := by
  rw [← Dotted.join_segments name]
  refine Dotted.unmarked_join fun segment member => ?_
  exact ((reservedMark?_eq_none_iff segment).mp ((plain_of_storable storable).2 segment member)).2

/-- What can be stored has names without marks but dots. -/
theorem TypeRef.isPlain_of_storable {type : TypeRef} (storable : type.storable = true) :
    type.isPlain = true := by
  induction type with
  | primitive => rfl
  | named kind name enclosing =>
      obtain rfl : enclosing = none := by
        simp only [TypeRef.storable, Bool.and_eq_true, Option.isNone_iff_eq_none] at storable
        exact storable.1
      exact decide_eq_true (unmarked_of_storable storable)
  | array element dimensions ih =>
      simp only [TypeRef.storable, Bool.and_eq_true] at storable
      exact ih storable.1

namespace Model

variable {σ : Type} [TripleStore σ] (model : Model σ)

/-- The text of a reference with the type around it filled in. -/
def boundText (type : TypeRef) : Except Fault String := do
  (← model.bind type).text

/-- What is stored for a reference is read back as what the bound reference settles to. -/
theorem read_boundText {type : TypeRef} (storable : type.storable = true) :
    ∃ bound text, model.bind type = .ok bound ∧ bound.text = .ok text ∧
      TypeRef.read text = .ok bound.settled := by
  induction type with
  | primitive name =>
      obtain ⟨text, written, _, read⟩ := TypeRef.read_stored storable
      exact ⟨_, text, rfl, written, read⟩
  | named kind name enclosing =>
      obtain ⟨filled, plain⟩ := TypeRef.plain_of_storable storable
      obtain rfl : enclosing = none := by
        simp only [TypeRef.storable, Bool.and_eq_true, Option.isNone_iff_eq_none] at storable
        exact storable.1
      obtain ⟨around, found⟩ := model.enclosingType_unmarked (TypeRef.unmarked_of_storable storable)
      have bound : model.bind (.named kind name none) =
          .ok (.named kind name (around.map Identifier.text)) := by
        rw [bind, found]
        rfl
      cases around with
      | none =>
          obtain ⟨text, written, _, read⟩ := TypeRef.read_stored storable
          exact ⟨_, text, bound, written, read⟩
      | some outer =>
          obtain ⟨nested, spells⟩ := enclosingType_spells filled plain found
          obtain ⟨text, written, read⟩ := TypeRef.read_nested filled plain nested spells
          exact ⟨_, text, bound, written, read⟩
  | array element dimensions ih =>
      simp only [TypeRef.storable, Bool.and_eq_true, decide_eq_true_eq] at storable
      obtain ⟨bound, text, made, written, read⟩ := ih storable.1
      refine ⟨.array bound dimensions, _, ?_, ?_, TypeRef.read_array storable.2 read⟩
      · rw [bind, made]
        rfl
      · rw [TypeRef.text, written]
        rfl

/-- What can be stored is stored as the text of the bound reference. -/
theorem bind_stored {type : TypeRef} (storable : type.storable = true) :
    ∃ bound, model.bind type = .ok bound ∧ bound.text = .ok (model.storedText type) ∧
      TypeRef.read (model.storedText type) = .ok bound.settled := by
  obtain ⟨bound, text, made, written, read⟩ := model.read_boundText storable
  obtain ⟨other, otherText, again, named, unmarked⟩ :=
    model.bind_plain (TypeRef.isPlain_of_storable storable)
  obtain rfl := Except.ok.inj (made.symm.trans again)
  obtain rfl := Except.ok.inj (written.symm.trans named)
  obtain ⟨unknown, resolved⟩ := model.resolve_of_bind made written unmarked
  have stored : model.storedText type = text := by rw [storedText, resolved]
  rw [stored]
  exact ⟨bound, made, written, read⟩

theorem boundText_stored {type : TypeRef} (storable : type.storable = true) :
    model.boundText type = .ok (model.storedText type) := by
  obtain ⟨bound, made, written, _⟩ := model.bind_stored storable
  rw [boundText, made]
  exact written

end Model

end CodeFacts
