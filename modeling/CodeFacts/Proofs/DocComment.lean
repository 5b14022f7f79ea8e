import CodeFacts.DocComment
import CodeFacts.Proofs.Entries
import CodeFacts.Proofs.Text.Blank

/-!
What a documentation comment is read as. Every line belongs either to the description or to the tag
above it, and no text of a line is lost or told twice.
-/

namespace CodeFacts

open Text

namespace DocComment

def skip (test : Char → Bool) : List Char → List Char
  | [] => []
  | c :: rest => if test c then rest else c :: rest

/-- A line without the blanks it starts with, without a star and a blank behind them, and without
the blanks around what is left. -/
def bare (line : List Char) : List Char :=
  strip (skip isBlank (skip (· == '*') (dropBlanks line)))

theorem strip_skip (text : List Char) : strip (skip isBlank text) = strip text := by
  cases text with
  | nil => rfl
  | cons c rest =>
      by_cases blank : isBlank c = true
      · simp [skip, blank, strip_cons_blank blank]
      · simp [skip, blank]

theorem content_eq_bare (line : List Char) : content line = bare line := by
  rw [bare, strip_skip, content]
  split
  next rest starred => simp [starred, skip]
  next other =>
    cases left : dropBlanks line with
    | nil => rfl
    | cons c rest =>
        have unstarred : c ≠ '*' := by
          rintro rfl
          exact other rest left
        simp [skip, unstarred]

theorem delimited {text : List Char} (starts : opening <+: text) (ends : closing <:+ text)
    (other : ¬"/**/".toList <+: text) : ∃ body, text = opening ++ body ++ closing := by
  obtain ⟨rest, rfl⟩ := starts
  have inner : closing <:+ rest := by
    match rest, ends, other with
    | [], ends, _ => exact absurd ends (by decide)
    | [c], ends, other =>
        have tail : closing <:+ ['*', c] :=
          List.suffix_of_suffix_length_le ends ⟨['/', '*'], rfl⟩ (Nat.le_refl 2)
        have same : closing = ['*', c] := tail.eq_of_length rfl
        obtain rfl : '/' = c := by simpa [closing] using same
        exact absurd (List.prefix_refl _) other
    | c :: d :: more, ends, _ =>
        exact List.suffix_of_suffix_length_le ends (List.suffix_append _ _) (Nat.le_add_left 2 _)
  obtain ⟨body, rfl⟩ := inner
  exact ⟨body, (List.append_assoc opening body closing).symm⟩

theorem body?_of_delimited {body : List Char}
    (other : ¬"/**/".toList <+: opening ++ body ++ closing) :
    body? (opening ++ body ++ closing) = some body := by
  have starts : opening.isPrefixOf (opening ++ body ++ closing) = true := by
    rw [List.isPrefixOf_iff_prefix, List.append_assoc]
    exact List.prefix_append opening _
  have ends : closing.isSuffixOf (opening ++ body ++ closing) = true := by
    rw [List.isSuffixOf_iff_suffix]
    exact List.suffix_append _ closing
  have wide : "/**/".toList.isPrefixOf (opening ++ body ++ closing) = false := by
    rwa [← Bool.not_eq_true, List.isPrefixOf_iff_prefix]
  have size : (opening ++ body ++ closing).length - opening.length - closing.length =
      body.length := by
    simp only [List.length_append]
    omega
  rw [body?, starts, ends, wide, size, List.append_assoc, List.drop_left, List.take_left]
  rfl

/-- A documentation comment is a body between the two delimiters. -/
theorem isDocComment_delimited {text : String} (documented : isDocComment text = true) :
    ∃ body, text.toList = opening ++ body ++ closing ∧ body? text.toList = some body := by
  obtain ⟨found, held⟩ := Option.isSome_iff_exists.mp documented
  unfold body? at held
  split at held
  next marked =>
    simp only [Bool.and_eq_true, Bool.not_eq_true', List.isPrefixOf_iff_prefix,
      List.isSuffixOf_iff_suffix, ← Bool.not_eq_true] at marked
    obtain ⟨⟨starts, other⟩, ends⟩ := marked
    obtain ⟨body, whole⟩ := delimited starts ends other
    refine ⟨body, whole, ?_⟩
    rw [whole] at other ⊢
    exact body?_of_delimited other
  next => cases held

def IsTagLine (line : List Char) : Prop :=
  ∃ c rest, line = '@' :: c :: rest ∧ isWordChar c = true

def tagName (line : List Char) : String :=
  String.ofList ('@' :: (line.drop 1).takeWhile isWordChar)

/-- What a tag line has behind its tag and the blanks there. -/
def tagRest (line : List Char) : List Char :=
  dropBlanks ((line.drop 1).dropWhile isWordChar)

theorem tag?_of_tagLine {line : List Char} (tagged : IsTagLine line) :
    tag? line = some (tagName line, tagRest line) := by
  obtain ⟨c, rest, rfl, word⟩ := tagged
  simp [tag?, tagName, tagRest, word]

theorem tag?_of_plain {line : List Char} (plain : ¬IsTagLine line) : tag? line = none := by
  unfold tag?
  split
  next rest =>
    cases rest with
    | nil => rfl
    | cons c more =>
        have ends : isWordChar c = false := by
          by_contra word
          exact plain ⟨c, more, rfl, by simpa using word⟩
        simp [ends]
  next => rfl

/-- A tag line and the lines up to the next one. -/
structure Block where
  line : List Char
  more : List (List Char)

def Block.name (block : Block) : String := tagName block.line

def Block.told (block : Block) : List (List Char) := tagRest block.line :: block.more

/-- Lines are divided at the tag lines. -/
structure Divides (lines described : List (List Char)) (blocks : List Block) : Prop where
  whole : lines = described ++ blocks.flatMap fun block => block.line :: block.more
  described_plain : ∀ line ∈ described, ¬IsTagLine line
  tagged : ∀ block ∈ blocks, IsTagLine block.line
  more_plain : ∀ block ∈ blocks, ∀ line ∈ block.more, ¬IsTagLine line

theorem blocks_cons (line : List Char) (rest : List (List Char)) :
    blocks (line :: rest) =
      match tag? line with
      | some (name, value) => ([], (name, value :: (blocks rest).1) :: (blocks rest).2)
      | none => (line :: (blocks rest).1, (blocks rest).2) :=
  rfl

theorem blocks_divide (lines : List (List Char)) :
    ∃ divided : List Block, Divides lines (blocks lines).1 divided ∧
      (blocks lines).2 = divided.map fun block => (block.name, block.told) := by
  induction lines with
  | nil =>
      refine ⟨[], ⟨rfl, ?_, ?_, ?_⟩, rfl⟩ <;> simp [blocks]
  | cons line rest ih =>
      obtain ⟨divided, divides, same⟩ := ih
      have whole := divides.whole
      rw [blocks_cons]
      by_cases tagged : IsTagLine line
      · rw [tag?_of_tagLine tagged]
        refine ⟨⟨line, (blocks rest).1⟩ :: divided, ⟨?_, ?_, ?_, ?_⟩, ?_⟩
        · simpa using whole
        · simp
        · simpa [tagged] using divides.tagged
        · simpa using ⟨divides.described_plain, divides.more_plain⟩
        · simp [same, Block.name, Block.told]
      · rw [tag?_of_plain tagged]
        refine ⟨divided, ⟨?_, ?_, divides.tagged, divides.more_plain⟩, same⟩
        · simpa using whole
        · simpa [tagged] using divides.described_plain

/-! The text of a tag. -/

theorem continued_eq {text line : List Char} (trimmed : Trimmed text) (next : Trimmed line) :
    continued text line =
      if line = [] then text else if text = [] then line else text ++ ' ' :: line := by
  unfold continued
  by_cases empty : line = []
  · rw [if_pos empty, if_pos empty]
  · rw [if_neg empty, if_neg empty]
    by_cases first : text = []
    · rw [if_pos first, first, List.nil_append, strip_cons_blank (by decide), next.strip_eq]
    · rw [if_neg first]
      exact (trimmed.join next first empty).strip_eq

theorem foldl_continued {lines : List (List Char)} (trimmed : ∀ line ∈ lines, Trimmed line)
    {text : List Char} (start : Trimmed text) :
    lines.foldl continued text = oneLine (text :: lines) := by
  induction lines generalizing text with
  | nil => by_cases empty : text = [] <;> simp [oneLine, joinWith, empty]
  | cons line rest ih =>
      have next := trimmed line List.mem_cons_self
      have later := fun other member => trimmed other (List.mem_cons_of_mem line member)
      rw [List.foldl_cons, continued_eq start next]
      by_cases empty : line = []
      · rw [if_pos empty, ih later start, empty]
        by_cases first : text = [] <;> simp [oneLine, first]
      · rw [if_neg empty]
        by_cases first : text = []
        · rw [if_pos first, ih later next, first, oneLine_cons_empty]
        · rw [if_neg first, ih later (start.join next first empty),
            oneLine_cons_cons first empty]

theorem trimmed_tagRest {line : List Char} (trimmed : Trimmed line) : Trimmed (tagRest line) :=
  trimmed.behind ((List.dropWhile_suffix isWordChar).trans (List.drop_suffix 1 line))

theorem tagText_told {block : Block} (trimmed : ∀ line ∈ block.line :: block.more, Trimmed line) :
    (tagText block.told).toList = oneLine block.told := by
  have start := trimmed_tagRest (trimmed block.line List.mem_cons_self)
  have later := fun line member => trimmed line (List.mem_cons_of_mem block.line member)
  rw [Block.told, tagText, String.toList_ofList]
  exact foldl_continued later start

/-! The first sentence of a description. -/

/-- A text ends with a full stop, and a blank or nothing follows it. -/
def Stops (before after : List Char) : Prop :=
  before.getLast? = some '.' ∧ ∀ c ∈ after.head?, isBlank c = true

def IsSentence (first text : List Char) : Prop :=
  (∃ rest, text = first ++ rest ∧ Stops first rest ∧
    ∀ before after, text = before ++ after → Stops before after → first <+: before) ∨
  (first = text ∧ ∀ before after, text = before ++ after → ¬Stops before after)

theorem Stops.tail {c : Char} {text before after : List Char} (goes : ¬Stops [c] text)
    (stops : Stops before after) (cut : c :: text = before ++ after) :
    ∃ inner, before = c :: inner ∧ text = inner ++ after ∧ Stops inner after := by
  cases before with
  | nil => cases stops.1
  | cons d inner =>
      obtain ⟨rfl, rest⟩ := List.cons.inj cut
      refine ⟨inner, rfl, rest, ?_, stops.2⟩
      cases inner with
      | nil =>
          obtain rfl : text = after := rest
          exact absurd stops goes
      | cons e more => simpa using stops.1

theorem IsSentence.cons {c : Char} {first text : List Char} (goes : ¬Stops [c] text)
    (later : IsSentence first text) : IsSentence (c :: first) (c :: text) := by
  rcases later with ⟨rest, rfl, stops, least⟩ | ⟨rfl, endless⟩
  · refine Or.inl ⟨rest, rfl, ⟨?_, stops.2⟩, ?_⟩
    · cases first with
      | nil => cases stops.1
      | cons d more => simpa using stops.1
    · intro before after cut other
      obtain ⟨inner, rfl, same, stop⟩ := other.tail goes cut
      exact List.cons_prefix_cons.mpr ⟨rfl, least inner after same stop⟩
  · refine Or.inr ⟨rfl, ?_⟩
    intro before after cut other
    obtain ⟨inner, rfl, same, stop⟩ := other.tail goes cut
    exact endless inner after same stop

theorem isSentence_stop {rest : List Char} (follows : ∀ c ∈ rest.head?, isBlank c = true) :
    IsSentence ['.'] ('.' :: rest) := by
  refine Or.inl ⟨rest, rfl, ⟨rfl, follows⟩, ?_⟩
  intro before after cut stops
  cases before with
  | nil => cases stops.1
  | cons d inner =>
      obtain ⟨rfl, _⟩ := List.cons.inj cut
      simp

theorem sentence_stop {c : Char} {rest : List Char} (stops : Stops [c] rest) :
    sentence (c :: rest) = (['.'], rest.drop 1) := by
  obtain ⟨stop, follows⟩ := stops
  obtain rfl : c = '.' := by simpa using stop
  cases rest with
  | nil => rfl
  | cons d more => rw [sentence, if_pos (follows d rfl)]; rfl

theorem sentence_go {c : Char} {rest : List Char} (goes : ¬Stops [c] rest) :
    sentence (c :: rest) = (c :: (sentence rest).1, (sentence rest).2) := by
  by_cases stop : c = '.'
  · subst stop
    cases rest with
    | nil => exact absurd ⟨rfl, by simp⟩ goes
    | cons d more =>
        have dark : ¬isBlank d = true := by
          intro blank
          exact goes ⟨rfl, by simpa using blank⟩
        rw [sentence, if_neg dark]
  · rw [sentence]
    · intro same
      exact absurd same stop
    · intro _ _ same
      exact absurd same stop

theorem sentence_isSentence (text : List Char) : IsSentence (sentence text).1 text := by
  induction text with
  | nil =>
      refine Or.inr ⟨rfl, ?_⟩
      intro before after cut stops
      obtain ⟨rfl, _⟩ := List.append_eq_nil_iff.mp cut.symm
      cases stops.1
  | cons c rest ih =>
      by_cases stops : Stops [c] rest
      · obtain rfl : c = '.' := by simpa using stops.1
        rw [sentence_stop stops]
        exact isSentence_stop stops.2
      · rw [sentence_go stops]
        exact ih.cons stops

theorem solid_sentence (text : List Char) :
    solid ((sentence text).1 ++ (sentence text).2) = solid text := by
  induction text with
  | nil => rfl
  | cons c rest ih =>
      by_cases stops : Stops [c] rest
      · obtain rfl : c = '.' := by simpa using stops.1
        rw [sentence_stop stops]
        cases rest with
        | nil => rfl
        | cons d more =>
            have dropped : solid (d :: more) = solid more := solid_cons_blank (stops.2 d rfl) more
            show solid (['.'] ++ more) = solid (['.'] ++ d :: more)
            rw [solid_append, solid_append, dropped]
      · rw [sentence_go stops]
        show solid ([c] ++ ((sentence rest).1 ++ (sentence rest).2)) = solid ([c] ++ rest)
        rw [solid_append, ih, solid_append]

/-- A text reads as some lines: it is what they make as one, and only blanks are left out. -/
structure ReadsAs (text : List Char) (lines : List (List Char)) : Prop where
  joined : text = oneLine lines
  kept : solid text = solid lines.flatten

end DocComment

open DocComment

/-- An entry tells what stands before the first tag line as its description, and under each tag the
blocks that have it, in their order. -/
structure DocEntry.Tells (entry : DocEntry) (described : List (List Char)) (blocks : List Block) :
    Prop where
  kept : solid (entry.short.toList ++ entry.long.toList) = solid described.flatten
  sentence : IsSentence entry.short.toList (oneLine described)
  values : ∀ name, List.Forall₂ (fun value block => ReadsAs value.toList block.told)
    (entry.tag name) (blocks.filter fun block => block.name == name)
  tags_once : (entry.tags.map (·.1)).Nodup
  tags_iff : ∀ name, name ∈ entry.tags.map (·.1) ↔ ∃ block ∈ blocks, block.name = name

namespace DocComment

/-- What is read of lines that are divided at their tag lines. -/
theorem tells_divided {lines : List (List Char)} {divided : List Block}
    (trimmed : ∀ line ∈ lines, Trimmed line) (divides : Divides lines (blocks lines).1 divided)
    (same : (blocks lines).2 = divided.map fun block => (block.name, block.told))
    (row column : Int) :
    let description := oneLine (blocks lines).1
    DocEntry.Tells
      { short := String.ofList (sentence description).1
        long := String.ofList (strip (sentence description).2)
        tags := Entries.grouped ((blocks lines).2.map fun (name, lines) => (name, tagText lines))
        row
        column }
      (blocks lines).1 divided := by
  intro description
  have named : ((blocks lines).2.map fun (name, lines) => (name, tagText lines)) =
      divided.map fun block => (block.name, tagText block.told) := by
    rw [same, List.map_map]
    rfl
  -- A block is told of lines of the comment, which have no blanks at their ends.
  have told : ∀ block ∈ divided, ReadsAs (tagText block.told).toList block.told := by
    intro block member
    have inside : ∀ line ∈ block.line :: block.more, Trimmed line := by
      intro line held
      apply trimmed
      rw [divides.whole]
      exact List.mem_append_right _ (List.mem_flatMap.mpr ⟨block, member, held⟩)
    have joined := tagText_told inside
    exact ⟨joined, joined ▸ solid_oneLine block.told⟩
  rw [named]
  refine ⟨?_, ?_, ?_, Entries.once_grouped _, ?_⟩
  · rw [String.toList_ofList, String.toList_ofList, solid_append, solid_strip, ← solid_append,
      solid_sentence, solid_oneLine]
  · rw [String.toList_ofList]
    exact sentence_isSentence description
  · intro name
    rw [DocEntry.tag, Entries.get?_grouped, List.filter_map, List.map_map,
      List.forall₂_map_left_iff]
    apply List.forall₂_same.mpr
    intro block member
    exact told block (List.mem_filter.mp member).1
  · intro name
    rw [Entries.keys_grouped, List.mem_eraseDups]
    simp

/-- Every documentation comment is read. Between its delimiters stands a body whose lines are
divided at their tag lines, and the entry tells all of them, each once and in its place. -/
theorem comment_told_once (text : String) (row column : Int)
    (documented : isDocComment text = true) :
    ∃ body described blocks entry,
      text.toList = opening ++ body ++ closing ∧
      Divides ((lines body).map bare) described blocks ∧
      read? text row column = some entry ∧ entry.row = row ∧ entry.column = column ∧
      entry.Tells described blocks := by
  obtain ⟨body, whole, found⟩ := isDocComment_delimited documented
  have stripped : (lines body).map content = (lines body).map bare :=
    List.map_congr_left fun line _ => content_eq_bare line
  have trimmed : ∀ line ∈ (lines body).map bare, Trimmed line := by
    intro line member
    obtain ⟨raw, _, rfl⟩ := List.mem_map.mp member
    exact trimmed_strip _
  obtain ⟨divided, divides, same⟩ := blocks_divide ((lines body).map bare)
  refine ⟨body, _, divided, _, whole, divides, ?_, rfl, rfl,
    tells_divided trimmed divides same row column⟩
  rw [read?, found, ← stripped]
  rfl

theorem interleavedTags_told :
    let text :=
      "/** Adds. Both\n * are kept.\n * @param a the\n *\n *  first\n * @return it\n@param b*/"
    isDocComment text = true ∧
    read? text 4 5 = some
      ⟨"Adds.", "Both are kept.", [("@param", ["a the first", "b"]), ("@return", ["it"])], 4, 5⟩ ∧
    ∃ body described blocks entry,
      text.toList = opening ++ body ++ closing ∧
      Divides ((lines body).map bare) described blocks ∧
      read? text 4 5 = some entry ∧ entry.row = 4 ∧ entry.column = 5 ∧
      entry.Tells described blocks := by
  intro text
  have documented : isDocComment text = true := by decide +kernel
  exact ⟨documented, by decide +kernel, comment_told_once text 4 5 documented⟩

end DocComment

end CodeFacts
