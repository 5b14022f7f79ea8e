import CodeFacts.Proofs.Names
import CodeFacts.Proofs.Steps

/-!
The texts that are read as identifiers, and what each is written as again. Behind its space a text
is a path of sections; the reader carries the qualifier of the last section that has one, and the
writer leaves out each qualifier that is carried already.
-/

namespace CodeFacts.Identifier

/-- What a text has up to its first hash mark, that mark included. A text without one stands in the
space of this model. -/
def spacePart (text : String) : List Char :=
  match Text.cut '#' text.toList with
  | some (start, _) => start ++ ['#']
  | none => modelSpace.toList

/-- What a text has behind its first hash mark, the whole text if it has none. -/
def localPart (text : String) : List Char :=
  match Text.cut '#' text.toList with
  | some (_, rest) => rest
  | none => text.toList

/-- Whether a token holds at most one colon and does not begin with one. -/
def IsSection (token : List Char) : Prop := token.count ':' ≤ 1 ∧ token.head? ≠ some ':'

/-- Whether a text can stand behind a space: it is empty, or it holds no hash mark, its first token
has a qualifier, and each of its tokens is a section. -/
def IsPath (path : List Char) : Prop :=
  path = [] ∨ '#' ∉ path ∧ (∃ first ∈ (Text.splitOn '.' path).head?, ':' ∈ first) ∧
    ∀ token ∈ Text.splitOn '.' path, IsSection token

/-- The qualifier carried behind a token: its own if it has one. -/
def carried (current : Option (List Char)) (token : List Char) : Option (List Char) :=
  match Text.cut ':' token with
  | some (qualifier, _) => some qualifier
  | none => current

/-- A token without its qualifier if that is carried already. -/
def shortened (current : Option (List Char)) (token : List Char) : List Char :=
  match Text.cut ':' token with
  | some (qualifier, name) => if current = some qualifier then name else token
  | none => token

/-- Tokens without the qualifiers that are carried already. -/
def shorten : (current : Option (List Char)) → List (List Char) → List (List Char)
  | _, [] => []
  | current, token :: rest => shortened current token :: shorten (carried current token) rest

/-- Whether one of some tokens has a qualifier that is carried behind those before it. -/
def RepeatsQualifier (current : Option (List Char)) (tokens : List (List Char)) : Prop :=
  ∃ before qualifier name after, tokens = before ++ (qualifier ++ ':' :: name) :: after ∧
    ':' ∉ qualifier ∧ before.foldl carried current = some qualifier

/-! Reading one section. -/

/-- The fragment of a token behind a qualifier. -/
def readSection (whole : String) (current : Option String) (token : List Char) :
    Except Fault Fragment :=
  match Text.cut ':' token, current with
  | some (qualifier, name), _ => Fragment.make (String.ofList name) (String.ofList qualifier)
  | none, some qualifier => Fragment.make (String.ofList token) qualifier
  | none, none => .error (.value (.unqualified whole))

theorem readSections_cons (whole : String) (current : Option String) (token : List Char)
    (rest : List (List Char)) :
    readSections whole current (token :: rest) = (do
      let fragment ← readSection whole current token
      return fragment :: (← readSections whole (some fragment.qualifier) rest)) := by
  simp only [readSections, readSection]
  cases found : Text.cut ':' token with
  | some parts => rfl
  | none => cases current <;> rfl

theorem make_ok_iff {name qualifier : String} {fragment : Fragment} :
    Fragment.make name qualifier = .ok fragment ↔
      fragment.name = name ∧ fragment.qualifier = qualifier := by
  unfold Fragment.make
  constructor
  · intro made
    split at made
    · cases made
      exact ⟨rfl, rfl⟩
    · cases made
  · rintro ⟨rfl, rfl⟩
    exact dif_pos ⟨fragment.name_plain, fragment.qualifier_plain, fragment.qualifier_ne_empty⟩

theorem make_passes_iff {name qualifier : String} :
    (∃ fragment, Fragment.make name qualifier = .ok fragment) ↔
      reservedMark? name = none ∧ reservedMark? qualifier = none ∧ qualifier ≠ "" := by
  constructor
  · rintro ⟨fragment, made⟩
    obtain ⟨rfl, rfl⟩ := make_ok_iff.mp made
    exact ⟨fragment.name_plain, fragment.qualifier_plain, fragment.qualifier_ne_empty⟩
  · intro valid
    exact ⟨_, dif_pos valid⟩

theorem isSection_iff {qualifier name : List Char} (plain : ':' ∉ qualifier) :
    IsSection (qualifier ++ ':' :: name) ↔ ':' ∉ name ∧ qualifier ≠ [] := by
  have none_before : qualifier.count ':' = 0 := List.count_eq_zero.mpr plain
  have counted : (qualifier ++ ':' :: name).count ':' ≤ 1 ↔ ':' ∉ name := by
    rw [List.count_append, none_before, List.count_cons_self, ← List.count_eq_zero]
    omega
  refine and_congr counted ?_
  cases qualifier with
  | nil => simp
  | cons first more =>
      have other : first ≠ ':' := fun same => plain (same ▸ List.mem_cons_self)
      simp [other]

theorem isSection_of_uncut {token : List Char} (uncut : ':' ∉ token) : IsSection token := by
  refine ⟨by rw [List.count_eq_zero.mpr uncut]; exact Nat.zero_le 1, ?_⟩
  intro first
  exact uncut (List.mem_of_mem_head? first)

theorem plain_iff {text : List Char} (undotted : '.' ∉ text) :
    reservedMark? (String.ofList text) = none ↔ ':' ∉ text ∧ '#' ∉ text := by
  rw [reservedMark?_eq_none_iff, String.toList_ofList]
  exact and_iff_right undotted

/-- Whether a carried qualifier can be that of a fragment. -/
def Carriable (current : Option (List Char)) : Prop :=
  ∀ qualifier ∈ current, reservedMark? (String.ofList qualifier) = none ∧ qualifier ≠ []

theorem readSection_passes_iff (whole : String) {current : Option (List Char)}
    (carriable : Carriable current) {token : List Char} (undotted : '.' ∉ token) :
    (∃ fragment, readSection whole (current.map String.ofList) token = .ok fragment) ↔
      '#' ∉ token ∧ IsSection token ∧ (current = none → ':' ∈ token) := by
  unfold readSection
  cases found : Text.cut ':' token with
  | some parts =>
      obtain ⟨qualifier, name⟩ := parts
      obtain ⟨rfl, plain⟩ := Text.eq_of_cut found
      simp only [List.mem_append, List.mem_cons, not_or] at undotted
      simp only [make_passes_iff, plain_iff undotted.1, plain_iff undotted.2.2,
        isSection_iff plain, List.mem_append, List.mem_cons, not_or, ne_eq,
        String.ofList_eq_empty_iff]
      tauto
  | none =>
      have uncut := Text.cut_eq_none_iff.mp found
      cases current with
      | none => simp [uncut]
      | some qualifier =>
          obtain ⟨plain, filled⟩ := carriable qualifier rfl
          simp only [Option.map_some, make_passes_iff, plain_iff undotted, plain, uncut,
            isSection_of_uncut uncut]
          simp [filled]

theorem carried_of_readSection {whole : String} {current : Option (List Char)} {token : List Char}
    {fragment : Fragment}
    (read : readSection whole (current.map String.ofList) token = .ok fragment) :
    carried current token = some fragment.qualifier.toList ∧
      (if current.map String.ofList = some fragment.qualifier then fragment.name.toList
        else fragment.qualifier.toList ++ ':' :: fragment.name.toList) =
        shortened current token := by
  unfold readSection at read
  unfold carried shortened
  cases found : Text.cut ':' token with
  | some parts =>
      obtain ⟨qualifier, name⟩ := parts
      obtain ⟨rfl, plain⟩ := Text.eq_of_cut found
      rw [found] at read
      obtain ⟨names, qualifiers⟩ := make_ok_iff.mp read
      rw [names, qualifiers, String.toList_ofList, String.toList_ofList]
      have same : current.map String.ofList = some (String.ofList qualifier) ↔
          current = some qualifier :=
        (Option.map_injective fun _ _ => String.ofList_injective).eq_iff' rfl
      simp only [same, true_and]
  | none =>
      rw [found] at read
      cases current with
      | none => cases read
      | some qualifier =>
          obtain ⟨names, qualifiers⟩ := make_ok_iff.mp read
          rw [names, qualifiers, String.toList_ofList, String.toList_ofList]
          simp

/-! Reading the sections of a path. -/

/-- The qualifier of a fragment can be carried. -/
theorem carriable_qualifier (fragment : Fragment) : Carriable (some fragment.qualifier.toList) := by
  rintro qualifier ⟨⟩
  refine ⟨by rw [String.ofList_toList]; exact fragment.qualifier_plain, ?_⟩
  intro empty
  exact fragment.qualifier_ne_empty (String.toList_eq_nil_iff.mp empty)

theorem readSections_passes_iff (whole : String) (current : Option (List Char))
    (carriable : Carriable current) {tokens : List (List Char)}
    (undotted : ∀ token ∈ tokens, '.' ∉ token) :
    (∃ fragments, readSections whole (current.map String.ofList) tokens = .ok fragments) ↔
      (∀ token ∈ tokens, '#' ∉ token ∧ IsSection token) ∧
        (current = none → ∀ first ∈ tokens.head?, ':' ∈ first) := by
  induction tokens generalizing current with
  | nil => simp [readSections]
  | cons token rest ih =>
      have here := readSection_passes_iff whole carriable (undotted token List.mem_cons_self)
      -- Behind a section that was read its qualifier is carried, so no later token needs one.
      have later (fragment : Fragment) := ih _ (carriable_qualifier fragment) fun other member =>
        undotted other (List.mem_cons_of_mem token member)
      simp only [Option.map_some, String.ofList_toList, reduceCtorEq, false_implies,
        and_true] at later
      rw [readSections_cons]
      constructor
      · rintro ⟨fragments, read⟩
        obtain ⟨fragment, first, read⟩ := Steps.bind_ok_iff.mp read
        obtain ⟨others, behind, _⟩ := Steps.bind_ok_iff.mp read
        obtain ⟨unhashed, section_, qualified⟩ := here.mp ⟨fragment, first⟩
        have rest_sections := (later fragment).mp ⟨others, behind⟩
        refine ⟨List.forall_mem_cons.mpr ⟨⟨unhashed, section_⟩, rest_sections⟩, ?_⟩
        rintro uncarried _ ⟨⟩
        exact qualified uncarried
      · rintro ⟨sections, qualified⟩
        obtain ⟨⟨unhashed, section_⟩, rest_sections⟩ := List.forall_mem_cons.mp sections
        obtain ⟨fragment, first⟩ := here.mpr ⟨unhashed, section_, fun uncarried =>
          qualified uncarried token rfl⟩
        obtain ⟨others, behind⟩ := (later fragment).mpr rest_sections
        exact ⟨fragment :: others, Steps.bind_ok_iff.mpr ⟨fragment, first,
          Steps.bind_ok_iff.mpr ⟨others, behind, rfl⟩⟩⟩

/-- The sections of what was read are the tokens without the qualifiers carried already. -/
theorem sectionTexts_of_readSections {whole : String} (current : Option (List Char))
    {tokens : List (List Char)} {fragments : List Fragment}
    (read : readSections whole (current.map String.ofList) tokens = .ok fragments) :
    sectionTexts (current.map String.ofList) fragments = shorten current tokens := by
  induction tokens generalizing current fragments with
  | nil =>
      cases read
      rfl
  | cons token rest ih =>
      rw [readSections_cons] at read
      obtain ⟨fragment, first, read⟩ := Steps.bind_ok_iff.mp read
      obtain ⟨others, behind, same⟩ := Steps.bind_ok_iff.mp read
      obtain rfl := Steps.pure_ok_iff.mp same
      obtain ⟨qualifier, part⟩ := carried_of_readSection first
      rw [sectionTexts, shorten, part, qualifier, ← ih _ (by
        rw [Option.map_some, String.ofList_toList]
        exact behind)]
      rw [Option.map_some, String.ofList_toList]

/-- Whether a fault is one that is found in a text: no qualifier is carried where one is left out,
or a fragment cannot have the name or the qualifier it is given. -/
def OfPath (whole : String) (fault : Fault) : Prop :=
  fault = .value (.unqualified whole) ∨ ∃ problems, fault = .fields problems

theorem make_ofPath (whole name qualifier : String) :
    Steps.Only (OfPath whole) (Fragment.make name qualifier) := by
  unfold Fragment.make
  split
  · exact Steps.only_ok _
  · exact Steps.only_error (.inr ⟨_, rfl⟩)

theorem readSections_ofPath (whole : String) (current : Option String)
    (tokens : List (List Char)) :
    Steps.Only (OfPath whole) (readSections whole current tokens) := by
  induction tokens generalizing current with
  | nil => exact Steps.only_ok _
  | cons token rest ih =>
      have here : Steps.Only (OfPath whole) (readSection whole current token) := by
        unfold readSection
        split
        · exact make_ofPath whole _ _
        · exact make_ofPath whole _ _
        · exact Steps.only_error (.inl rfl)
      rw [readSections_cons]
      exact here.bind fun fragment => (ih (some fragment.qualifier)).bind fun _ => Steps.only_ok _

/-! Which tokens are left as they are. -/

theorem repeatsQualifier_cons (current : Option (List Char)) (token : List Char)
    (rest : List (List Char)) :
    RepeatsQualifier current (token :: rest) ↔
      (∃ qualifier name, token = qualifier ++ ':' :: name ∧ ':' ∉ qualifier ∧
        current = some qualifier) ∨ RepeatsQualifier (carried current token) rest := by
  constructor
  · rintro ⟨before, qualifier, name, after, split, plain, held⟩
    cases before with
    | nil =>
        obtain ⟨rfl, rfl⟩ := List.cons.inj split
        exact .inl ⟨qualifier, name, rfl, plain, held⟩
    | cons first more =>
        obtain ⟨rfl, rfl⟩ := List.cons.inj split
        exact .inr ⟨more, qualifier, name, after, rfl, plain, held⟩
  · rintro (⟨qualifier, name, rfl, plain, held⟩ |
      ⟨before, qualifier, name, after, rfl, plain, held⟩)
    · exact ⟨[], qualifier, name, rest, rfl, plain, held⟩
    · exact ⟨token :: before, qualifier, name, after, rfl, plain, held⟩

theorem shortened_eq_self_iff (current : Option (List Char)) (token : List Char) :
    shortened current token = token ↔ ¬∃ qualifier name, token = qualifier ++ ':' :: name ∧
      ':' ∉ qualifier ∧ current = some qualifier := by
  unfold shortened
  cases found : Text.cut ':' token with
  | none =>
      refine iff_of_true rfl ?_
      rintro ⟨qualifier, name, rfl, _⟩
      exact Text.cut_eq_none_iff.mp found (by simp)
  | some parts =>
      obtain ⟨qualifier, name⟩ := parts
      obtain ⟨rfl, plain⟩ := Text.eq_of_cut found
      dsimp only
      by_cases same : current = some qualifier
      · rw [if_pos same]
        refine iff_of_false ?_ (not_not_intro ⟨qualifier, name, rfl, plain, same⟩)
        intro equal
        have size := congrArg List.length equal
        simp only [List.length_append, List.length_cons] at size
        omega
      · rw [if_neg same]
        refine iff_of_true rfl ?_
        rintro ⟨other, more, equal, other_plain, held⟩
        have cut := Text.cut_append_mark more other_plain
        rw [← equal, found] at cut
        obtain ⟨rfl, rfl⟩ := Prod.mk.inj (Option.some.inj cut)
        exact same held

theorem shorten_ne_nil (current : Option (List Char)) {tokens : List (List Char)}
    (some_token : tokens ≠ []) : shorten current tokens ≠ [] := by
  cases tokens with
  | nil => exact absurd rfl some_token
  | cons token rest => exact List.cons_ne_nil _ _

theorem not_mem_of_mem_shorten {mark : Char} (current : Option (List Char))
    {tokens : List (List Char)} (absent : ∀ token ∈ tokens, mark ∉ token) :
    ∀ part ∈ shorten current tokens, mark ∉ part := by
  induction tokens generalizing current with
  | nil =>
      intro part member
      cases member
  | cons token rest ih =>
      obtain ⟨here, later⟩ := List.forall_mem_cons.mp absent
      refine List.forall_mem_cons.mpr ⟨?_, ih (carried current token) later⟩
      unfold shortened
      cases found : Text.cut ':' token with
      | none => exact here
      | some parts =>
          obtain ⟨rfl, _⟩ := Text.eq_of_cut found
          simp only [List.mem_append, List.mem_cons, not_or] at here
          dsimp only
          split
          · exact here.2.2
          · simp [here]

theorem shorten_eq_self_iff (current : Option (List Char)) (tokens : List (List Char)) :
    shorten current tokens = tokens ↔ ¬RepeatsQualifier current tokens := by
  induction tokens generalizing current with
  | nil =>
      refine iff_of_true rfl ?_
      rintro ⟨before, _, _, _, split, _⟩
      cases before <;> cases split
  | cons token rest ih =>
      rw [shorten, List.cons.injEq, shortened_eq_self_iff, ih, repeatsQualifier_cons, not_or]

/-! Reading a text. -/

theorem toList_of_hashed {text : String} (hashed : '#' ∈ text.toList) :
    text.toList = spacePart text ++ localPart text := by
  unfold spacePart localPart
  cases found : Text.cut '#' text.toList with
  | none => exact absurd hashed (Text.cut_eq_none_iff.mp found)
  | some parts => simp [(Text.eq_of_cut found).1]

theorem hash_mem_spacePart (text : String) : '#' ∈ spacePart text := by
  unfold spacePart
  cases Text.cut '#' text.toList with
  | none => decide +kernel
  | some parts => simp

theorem read_eq (text : String) :
    ∃ space : Space, space.text.toList = spacePart text ∧
      read text = readLocal text space (localPart text) := by
  unfold read
  split
  · rename_i start rest found
    refine ⟨Space.before start (Text.eq_of_cut found).2, ?_, ?_⟩
    · simp only [spacePart, found, Space.before, String.toList_ofList]
    · simp only [localPart, found]
  · rename_i missing
    refine ⟨Space.model, ?_, ?_⟩
    · simp only [spacePart, missing, Space.model]
    · simp only [localPart, missing]

/-- The path of a text that is read is made of its tokens without the qualifiers carried already. -/
theorem path_of_readLocal {whole : String} {space : Space} {path : List Char} {id : Identifier}
    (read : readLocal whole space path = .ok id) :
    id.space = space ∧ id.path = Text.joinWith '.' (shorten none (Text.splitOn '.' path)) := by
  unfold readLocal at read
  split at read
  · rename_i empty
    cases read
    subst empty
    exact ⟨rfl, rfl⟩
  · obtain ⟨fragments, sections, rfl⟩ := Steps.map_ok_iff.mp read
    have shortened := sectionTexts_of_readSections none sections
    exact ⟨rfl, congrArg (Text.joinWith '.') shortened⟩

theorem not_mem_iff_splitOn {mark c : Char} (other : c ≠ mark) {text : List Char} :
    c ∉ text ↔ ∀ part ∈ Text.splitOn mark text, c ∉ part := by
  constructor
  · intro absent part member inside
    exact absent (Text.mem_of_mem_splitOn member inside)
  · intro absent inside
    rw [← Text.joinWith_splitOn mark text] at inside
    rcases Text.mem_of_mem_joinWith inside with same | ⟨part, member, held⟩
    · exact other same
    · exact absent part member held

theorem readLocal_passes_iff (whole : String) (space : Space) (path : List Char) :
    (∃ id, readLocal whole space path = .ok id) ↔ IsPath path := by
  unfold readLocal IsPath
  by_cases empty : path = []
  · rw [if_pos empty]
    exact iff_of_true ⟨_, rfl⟩ (.inl empty)
  · have sections := readSections_passes_iff whole none (by rintro _ ⟨⟩)
      fun token (member : token ∈ Text.splitOn '.' path) => Text.not_mem_of_mem_splitOn member
    obtain ⟨first, rest, tokens⟩ := List.exists_cons_of_ne_nil (Text.splitOn_ne_nil '.' path)
    rw [if_neg empty, or_iff_right empty, not_mem_iff_splitOn (show '#' ≠ '.' by decide)]
    have passes : (∃ id, (readSections whole none (Text.splitOn '.' path)).map
          (fun fragments => (⟨space, fragments⟩ : Identifier)) = .ok id) ↔
        ∃ fragments, readSections whole none (Text.splitOn '.' path) = .ok fragments := by
      simp only [Steps.map_ok_iff]
      constructor
      · rintro ⟨_, fragments, read, _⟩
        exact ⟨fragments, read⟩
      · rintro ⟨fragments, read⟩
        exact ⟨_, fragments, read, rfl⟩
    refine passes.trans (sections.trans ?_)
    rw [tokens]
    simp only [forall_and, List.head?_cons, Option.mem_some_iff, forall_eq', exists_eq_left',
      forall_const]
    tauto

theorem read_ofPath (text : String) : Steps.Only (OfPath text) (read text) := by
  obtain ⟨space, _, read_local⟩ := read_eq text
  rw [read_local, readLocal]
  split
  · exact Steps.only_ok _
  · exact (readSections_ofPath text none _).map _

/-- A text is read as an identifier just if what stands behind its first hash mark is a path; every
refusal is for what the text holds. What is read is written with the space and the tokens of the
text, without each qualifier that is carried already, and read back from that. So a text is what it
is written as just if it has a hash mark and no such qualifier. -/
theorem read_grammar (text : String) :
    ((∃ id, read text = .ok id) ↔ IsPath (localPart text)) ∧
      (∀ fault, read text = .error fault → OfPath text fault) ∧
      ∀ id, read text = .ok id →
        id.text.toList = spacePart text ++
            Text.joinWith '.' (shorten none (Text.splitOn '.' (localPart text))) ∧
          read id.text = .ok id ∧
          (id.text = text ↔ '#' ∈ text.toList ∧
            ¬RepeatsQualifier none (Text.splitOn '.' (localPart text))) := by
  obtain ⟨space, spaced, read_local⟩ := read_eq text
  refine ⟨by rw [read_local]; exact readLocal_passes_iff text space _, read_ofPath text, ?_⟩
  intro id read
  obtain ⟨rfl, path⟩ := path_of_readLocal (read_local.symm.trans read)
  have written : id.text.toList = spacePart text ++ id.path := by rw [toList_text, spaced]
  refine ⟨by rw [written, path], read_text id, ?_⟩
  constructor
  · intro same
    have hashed : '#' ∈ text.toList := by
      rw [← same, written]
      exact List.mem_append_left _ (hash_mem_spacePart text)
    refine ⟨hashed, ?_⟩
    rw [same, toList_of_hashed hashed] at written
    -- No token of the shortened path holds a dot, so it splits into the same tokens again.
    have joined : localPart text =
        Text.joinWith '.' (shorten none (Text.splitOn '.' (localPart text))) :=
      (List.append_cancel_left written).trans path
    have parts := congrArg (Text.splitOn '.') joined
    rw [Text.splitOn_joinWith (shorten_ne_nil none (Text.splitOn_ne_nil '.' _))
      (not_mem_of_mem_shorten none fun _ => Text.not_mem_of_mem_splitOn)] at parts
    exact (shorten_eq_self_iff none _).mp parts.symm
  · rintro ⟨hashed, unrepeated⟩
    apply String.toList_injective
    rw [written, path, (shorten_eq_self_iff none _).mpr unrepeated, Text.joinWith_splitOn,
      ← toList_of_hashed hashed]

end CodeFacts.Identifier
