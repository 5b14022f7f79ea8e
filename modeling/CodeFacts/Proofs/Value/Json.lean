import CodeFacts.Proofs.Text.Integer
import CodeFacts.Value.Json

/-!
The JSON text of a value is read back as that value, whatever follows the text, as long as the value
is within what the reader takes: its containers nest no deeper and its whole numbers are no longer
than the limits say.
-/

namespace CodeFacts

/-- A value without numbers that have a point, within the limits of a reader that has room for some
containers around one another. -/
inductive Value.Within (limits : Json.Limits) : (room : Nat) → Value → Prop
  | null {room : Nat} : Within limits room .null
  | bool {room : Nat} (value : Bool) : Within limits room (.bool value)
  | text {room : Nat} (value : String) : Within limits room (.text value)
  | int {room : Nat} {value : Int}
      (short : (Text.naturalText value.natAbs).length ≤ limits.digits) :
      Within limits room (.int value)
  | noItems {room : Nat} : Within limits room (.list [])
  | noFields {room : Nat} : Within limits room (.record [])
  | list {room : Nat} {items : List Value} (each : ∀ item ∈ items, Within limits room item) :
      Within limits (room + 1) (.list items)
  | record {room : Nat} {fields : List (String × Value)}
      (each : ∀ field ∈ fields, Within limits room field.2) :
      Within limits (room + 1) (.record fields)

namespace Json

/-! ### Strings -/

theorem hexValue?_hexDigit {digit : Nat} (small : digit < 16) :
    hexValue? (Text.hexDigit digit) = some digit := by
  have checked : ∀ digit < 16, hexValue? (Text.hexDigit digit) = some digit := by decide +kernel
  exact checked digit small

theorem hexCode?_hexDigits {code : Nat} (small : code < 0x10000) :
    ∃ a b c d, Text.hexDigits 4 code = [a, b, c, d] ∧ hexCode? a b c d = some code := by
  refine ⟨_, _, _, _, rfl, ?_⟩
  simp only [hexCode?, hexValue?_hexDigit (Nat.mod_lt _ (show 0 < 16 by decide)),
    Option.bind_eq_bind, Option.bind_some, Option.pure_def, Option.some.injEq]
  omega

/-- The codes a character is written as: its own, or those of the two halves of a pair. -/
def codesOf (c : Char) : List Nat :=
  if c.toNat < 0x10000 then [c.toNat]
  else [0xD800 + (c.toNat - 0x10000) / 0x400, 0xDC00 + (c.toNat - 0x10000) % 0x400]

theorem readCodes_escaped {code : Nat} (small : code < 0x10000) {rest after : List Char}
    {codes : List Nat} (read : readCodes rest = some (codes, after)) :
    readCodes ('\\' :: 'u' :: Text.hexDigits 4 code ++ rest) = some (code :: codes, after) := by
  obtain ⟨a, b, c, d, digits, value⟩ := hexCode?_hexDigits small
  rw [digits]
  simp [readCodes, value, read]

theorem toNat_lt (c : Char) : c.toNat < 0x110000 ∧ ¬(0xD800 ≤ c.toNat ∧ c.toNat < 0xE000) := by
  have valid : c.toNat.isValidChar := c.valid
  unfold Nat.isValidChar at valid
  omega

theorem readCodes_escapeChar (c : Char) {rest after : List Char} {codes : List Nat}
    (read : readCodes rest = some (codes, after)) :
    readCodes (escapeChar c ++ rest) = some (codesOf c ++ codes, after) := by
  have bound := toNat_lt c
  unfold escapeChar codesOf
  by_cases quote : c = '"'
  · subst quote
    simp [readCodes, shortEscape?, read]
  by_cases slash : c = '\\'
  · subst slash
    simp [readCodes, shortEscape?, read]
  simp only [quote, slash, if_false]
  by_cases shown : 0x20 ≤ c.toNat ∧ c.toNat < 0x7F
  · have small : c.toNat < 0x10000 := by omega
    have printable : ¬(c = '\\' ∨ c.toNat < 0x20) := by
      rintro (same | low)
      · exact slash same
      · omega
    rw [if_pos shown, if_pos small, List.singleton_append, List.singleton_append, readCodes]
    · simp only [printable, if_false, read, Option.bind_eq_bind, Option.bind_some, Option.pure_def]
    · exact quote
    · exact fun _ _ _ _ _ same => absurd same slash
    · exact fun _ _ same => absurd same slash
  rw [if_neg shown]
  by_cases small : c.toNat < 0x10000
  · rw [if_pos small, if_pos small]
    exact readCodes_escaped small read
  · rw [if_neg small, if_neg small, List.append_assoc]
    refine readCodes_escaped (by omega) ?_
    exact readCodes_escaped (by omega) read

theorem pairUp_codesOf (c : Char) {codes : List Nat} {chars : List Char}
    (paired : pairUp codes = some chars) : pairUp (codesOf c ++ codes) = some (c :: chars) := by
  have bound := toNat_lt c
  have same : Char.ofNat c.toNat = c := Char.ofNat_toNat c
  unfold codesOf
  by_cases small : c.toNat < 0x10000
  · rw [if_pos small, List.singleton_append, pairUp.eq_def]
    dsimp only
    rw [if_neg (by omega), if_neg (by omega), paired, Option.map_some, same]
  · rw [if_neg small, List.cons_append, List.singleton_append, pairUp.eq_def]
    dsimp only
    rw [if_pos (by omega), if_pos (by omega), paired, Option.map_some]
    have whole : 0x10000 + (0xD800 + (c.toNat - 0x10000) / 0x400 - 0xD800) * 0x400 +
        (0xDC00 + (c.toNat - 0x10000) % 0x400 - 0xDC00) = c.toNat := by omega
    rw [whole, same]

theorem readCodes_escaped_all (chars rest : List Char) :
    readCodes (chars.flatMap escapeChar ++ '"' :: rest) = some (chars.flatMap codesOf, rest) := by
  induction chars with
  | nil => rfl
  | cons c later ih =>
      rw [List.flatMap_cons, List.append_assoc, List.flatMap_cons]
      exact readCodes_escapeChar c ih

theorem pairUp_codesOf_all (chars : List Char) :
    pairUp (chars.flatMap codesOf) = some chars := by
  induction chars with
  | nil => rfl
  | cons c later ih => exact pairUp_codesOf c ih

theorem readString_escaped (text : String) (rest : List Char) :
    readString (text.toList.flatMap escapeChar ++ '"' :: rest) = some (text, rest) := by
  simp only [readString, readCodes_escaped_all, pairUp_codesOf_all, Option.bind_eq_bind,
    Option.bind_some, String.ofList_toList, Option.pure_def]

/-! ### Whole numbers -/

/-- Whether a number that stands before a text ends there. -/
def Ends (rest : List Char) : Prop :=
  ∀ c ∈ rest.head?, c.isDigit = false ∧ c ≠ '.' ∧ c ≠ 'e' ∧ c ≠ 'E'

theorem naturalText_isDigit (value : Nat) : ∀ c ∈ Text.naturalText value, c.isDigit = true := by
  have checked : ∀ digit < 10, (Text.digitChar digit).isDigit = true := by decide +kernel
  intro c member
  rw [Text.naturalText_eq] at member
  obtain ⟨digit, written, rfl⟩ := List.mem_map.mp member
  exact checked digit (Text.digitsOf_lt value digit written)

theorem naturalText_ne_nil (value : Nat) : Text.naturalText value ≠ [] := by
  rw [Text.naturalText_eq]
  simp [Text.digitsOf_ne_nil]

/-- A whole number begins with a minus sign or a digit. -/
theorem integerText_head (value : Int) :
    ∃ c more, Text.integerText value = c :: more ∧ (c = '-' ∨ c.isDigit = true) := by
  cases value with
  | ofNat size =>
      obtain ⟨c, more, shape⟩ := List.exists_cons_of_ne_nil (naturalText_ne_nil size)
      refine ⟨c, more, shape, .inr (naturalText_isDigit size c ?_)⟩
      rw [shape]
      exact List.mem_cons_self
  | negSucc size => exact ⟨'-', _, rfl, .inl rfl⟩

theorem digitsValue_naturalText (value : Nat) :
    Text.digitsValue (Text.naturalText value) = value := by
  have checked : ∀ digit < 10, (Text.digitChar digit).toNat - 0x30 = digit := by decide +kernel
  have folded (digits : List Nat) (small : ∀ digit ∈ digits, digit < 10) (start : Nat) :
      (digits.map Text.digitChar).foldl (fun value c => 10 * value + (c.toNat - 0x30)) start =
        Text.valueFrom start digits := by
    induction digits generalizing start with
    | nil => rfl
    | cons digit rest ih =>
        rw [List.map_cons, List.foldl_cons, checked digit (small digit List.mem_cons_self)]
        exact ih (fun other member => small other (List.mem_cons_of_mem digit member)) _
  rw [Text.digitsValue, Text.naturalText_eq, folded _ (Text.digitsOf_lt value),
    Text.valueFrom_digitsOf]

/-- A number does not begin with a zero unless it is one. -/
theorem naturalText_zero {value : Nat} {more : List Char}
    (zero : Text.naturalText value = '0' :: more) : more = [] := by
  induction value using Nat.strongRecOn generalizing more with
  | ind value ih =>
      by_cases single : value < 10
      · rw [Text.naturalText, if_pos single] at zero
        exact (List.cons.inj zero).2.symm
      · have shorter := digitsValue_naturalText (value / 10)
        rw [Text.naturalText, if_neg single] at zero
        cases shape : Text.naturalText (value / 10) with
        | nil =>
            rw [shape] at shorter
            have none : value / 10 = 0 := shorter.symm
            omega
        | cons first others =>
            rw [shape, List.cons_append] at zero
            obtain ⟨rfl, _⟩ := List.cons.inj zero
            obtain rfl := ih (value / 10) (by omega) shape
            rw [shape] at shorter
            have none : value / 10 = 0 := shorter.symm
            omega

theorem spanDigits_naturalText (value : Nat) {rest : List Char} (ends : Ends rest) :
    spanDigits (Text.naturalText value ++ rest) = (Text.naturalText value, rest) := by
  have digits := naturalText_isDigit value
  have stops : rest.takeWhile Char.isDigit = [] ∧ rest.dropWhile Char.isDigit = rest := by
    cases rest with
    | nil => exact ⟨rfl, rfl⟩
    | cons c later =>
        have other : ¬c.isDigit = true := by simp [(ends c rfl).1]
        exact ⟨List.takeWhile_cons_of_neg other, List.dropWhile_cons_of_neg other⟩
  rw [spanDigits, List.takeWhile_append_of_pos digits, List.dropWhile_append_of_pos digits,
    stops.1, stops.2, List.append_nil]

theorem readFraction_ends {rest : List Char} (ends : Ends rest) :
    readFraction rest = some (none, rest) := by
  unfold readFraction
  split
  · exact absurd rfl (ends '.' rfl).2.1
  · rfl

theorem readExponent_ends {rest : List Char} (ends : Ends rest) :
    readExponent rest = some (none, rest) := by
  cases rest with
  | nil => rfl
  | cons c later =>
      have other : ¬(c = 'e' ∨ c = 'E') := not_or.mpr (ends c rfl).2.2
      simp only [readExponent, other, if_false]

theorem readNumber_integerText {limits : Limits} {value : Int} {rest : List Char}
    (short : (Text.naturalText value.natAbs).length ≤ limits.digits) (ends : Ends rest) :
    readNumber limits (Text.integerText value ++ rest) = some (.int value, rest) := by
  have digits := naturalText_isDigit value.natAbs
  have some_digit := naturalText_ne_nil value.natAbs
  unfold readNumber
  split
  rename_i _ negative body signs
  have parts : Text.naturalText value.natAbs ++ rest = body ∧
      Text.signed negative value.natAbs = value := by
    cases value with
    | ofNat size =>
        split at signs
        · rename_i later marked
          -- A number that is not negative begins with a digit.
          obtain ⟨first, more, shape⟩ := List.exists_cons_of_ne_nil some_digit
          have first_digit := digits first (by rw [shape]; exact List.mem_cons_self)
          have marked : Text.naturalText size ++ rest = '-' :: later := marked
          rw [show Text.naturalText size = first :: more from shape] at marked
          rw [(List.cons.inj marked).1] at first_digit
          cases first_digit
        · cases signs
          exact ⟨rfl, rfl⟩
    | negSucc size =>
        cases signs
        exact ⟨rfl, rfl⟩
  obtain ⟨rfl, back⟩ := parts
  rw [spanDigits_naturalText _ ends]
  dsimp only
  split
  · rename_i empty
    exact absurd empty some_digit
  · rename_i zero
    cases naturalText_zero zero
  · rw [if_neg (by omega), readFraction_ends ends]
    simp only [Option.bind_eq_bind, Option.bind_some, readExponent_ends ends, Option.pure_def,
      digitsValue_naturalText, back]

/-! ### Values -/

/-- The first character of a text is neither a blank nor the end of a list. -/
def Starts (text : List Char) : Prop :=
  ∃ c more, text = c :: more ∧ (c == ' ' || c == '\n' || c == '\t' || c == '\r') = false ∧ c ≠ ']'

theorem skipBlanks_of_starts {text : List Char} (starts : Starts text) (rest : List Char) :
    skipBlanks (text ++ rest) = text ++ rest := by
  obtain ⟨c, more, rfl, filled, _⟩ := starts
  exact List.dropWhile_cons_of_neg (by simp [filled])

theorem starts_print {limits : Limits} {room : Nat} {value : Value}
    (within : value.Within limits room) : Starts (print value) := by
  cases within with
  | null => exact ⟨'n', _, rfl, by decide, by decide⟩
  | bool value =>
      cases value with
      | false => exact ⟨'f', _, rfl, by decide, by decide⟩
      | true => exact ⟨'t', _, rfl, by decide, by decide⟩
  | text => exact ⟨'"', _, rfl, by decide, by decide⟩
  | @int _ value =>
      obtain ⟨c, more, shape, head⟩ := integerText_head value
      refine ⟨c, more, shape, ?_⟩
      rcases head with rfl | digit
      · decide
      · have other (mark : Char) (no_digit : mark.isDigit = false) : c ≠ mark := by
          rintro rfl
          rw [digit] at no_digit
          cases no_digit
        simp [other]
  | noItems | list => exact ⟨'[', _, rfl, by decide, by decide⟩
  | noFields | record => exact ⟨'{', _, rfl, by decide, by decide⟩

/-- A value is read back where it is printed: within a bound that its text keeps, before anything
that ends it. -/
def ReadBack (limits : Limits) (room : Nat) (value : Value) : Prop :=
  ∀ bound rest, (print value).length ≤ bound → Ends rest →
    readValue limits bound room (print value ++ rest) = some (value, rest)

theorem ends_of_mark {mark : Char} {rest : List Char}
    (ends : mark.isDigit = false ∧ mark ≠ '.' ∧ mark ≠ 'e' ∧ mark ≠ 'E') : Ends (mark :: rest) := by
  rintro _ ⟨rfl⟩
  exact ends

theorem readItems_print {limits : Limits} {room : Nat} {items : List Value}
    (each : ∀ item ∈ items, ReadBack limits room item) (some_item : items ≠ []) (bound : Nat)
    (rest : List Char) (enough : (printItems items).length < bound) :
    readItems limits bound room (printItems items ++ ']' :: rest) = some (items, rest) := by
  induction items generalizing bound with
  | nil => exact absurd rfl some_item
  | cons item others ih =>
      obtain ⟨bound, rfl⟩ := Nat.exists_eq_add_one_of_ne_zero (show bound ≠ 0 by omega)
      have this := each item List.mem_cons_self
      cases others with
      | nil =>
          rw [printItems] at enough ⊢
          rw [readItems, this bound _ (by omega) (ends_of_mark (by decide))]
          rfl
      | cons next later =>
          simp only [printItems, List.length_append, List.length_cons] at enough
          have further := ih (fun other member => each other (List.mem_cons_of_mem item member))
            (List.cons_ne_nil next later) bound (by omega)
          rw [printItems, List.append_assoc, List.cons_append, readItems,
            this bound _ (by omega) (ends_of_mark (by decide))]
          have comma : skipBlanks (',' :: (printItems (next :: later) ++ ']' :: rest)) =
              ',' :: (printItems (next :: later) ++ ']' :: rest) := rfl
          simp only [Option.bind_eq_bind, Option.bind_some, comma, further]
          rfl

theorem stringText_append (text : String) (rest : List Char) :
    stringText text ++ rest = '"' :: (text.toList.flatMap escapeChar ++ '"' :: rest) := by
  simp [stringText]

/-- What is read of a field before its value is the name and a colon. -/
theorem readFields_named (limits : Limits) (bound room : Nat) (name : String)
    (after : List Char) :
    readFields limits (bound + 1) room (stringText name ++ ':' :: after) = (do
      let (value, rest) ← readValue limits bound room after
      match skipBlanks rest with
      | ',' :: rest => do
          let (fields, rest) ← readFields limits bound room rest
          return ((name, value) :: fields, rest)
      | '}' :: rest => return ([(name, value)], rest)
      | _ => none) := by
  have opened (text : List Char) : skipBlanks ('"' :: text) = '"' :: text := rfl
  rw [stringText_append, readFields]
  simp only [opened, readString_escaped]
  rfl

theorem readFields_print {limits : Limits} {room : Nat} {fields : List (String × Value)}
    (each : ∀ field ∈ fields, ReadBack limits room field.2) (some_field : fields ≠ [])
    (bound : Nat) (rest : List Char) (enough : (printFields fields).length < bound) :
    readFields limits bound room (printFields fields ++ '}' :: rest) = some (fields, rest) := by
  induction fields generalizing bound with
  | nil => exact absurd rfl some_field
  | cons field others ih =>
      obtain ⟨name, value⟩ := field
      obtain ⟨bound, rfl⟩ := Nat.exists_eq_add_one_of_ne_zero (show bound ≠ 0 by omega)
      have this : ReadBack limits room value := each (name, value) List.mem_cons_self
      cases others with
      | nil =>
          simp only [printFields, List.length_append, List.length_cons] at enough
          rw [printFields, List.append_assoc, List.cons_append, readFields_named,
            this bound _ (by omega) (ends_of_mark (by decide))]
          rfl
      | cons next later =>
          simp only [printFields, List.length_append, List.length_cons] at enough
          have further := ih (fun other member => each other (List.mem_cons_of_mem _ member))
            (List.cons_ne_nil next later) bound (by omega)
          rw [printFields, List.append_assoc, List.append_assoc, List.cons_append,
            List.cons_append, readFields_named, this bound _ (by omega) (ends_of_mark (by decide))]
          show (do
            let (fields, rest) ← readFields limits bound room
              (printFields (next :: later) ++ '}' :: rest)
            return ((name, value) :: fields, rest)) = _
          rw [further]
          rfl

theorem starts_printItems {limits : Limits} {room : Nat} {items : List Value}
    (each : ∀ item ∈ items, item.Within limits room) (some_item : items ≠ []) :
    Starts (printItems items) := by
  cases items with
  | nil => exact absurd rfl some_item
  | cons item others =>
      have starts := starts_print (each item List.mem_cons_self)
      cases others with
      | nil => exact starts
      | cons next later =>
          obtain ⟨c, more, shape, mark⟩ := starts
          exact ⟨c, _, by rw [printItems, shape, List.cons_append], mark⟩

theorem readValue_number (limits : Limits) (bound room : Nat) {c : Char} {more : List Char}
    (head : c = '-' ∨ c.isDigit = true) :
    readValue limits (bound + 1) room (c :: more) = readNumber limits (c :: more) := by
  have other (mark : Char) (unlike : mark ≠ '-' ∧ mark.isDigit = false) : c ≠ mark := by
    rintro rfl
    rcases head with minus | digit
    · exact unlike.1 minus
    · rw [unlike.2] at digit
      cases digit
  have kept : skipBlanks (c :: more) = c :: more :=
    List.dropWhile_cons_of_neg (by simp [other])
  rw [readValue, kept]
  split
  case h_8 => rfl
  all_goals
    rename_i same
    exact absurd (List.cons.inj same).1 (other _ (by decide))

theorem readValue_items (limits : Limits) (bound room : Nat) {text : List Char}
    (starts : Starts text) (rest : List Char) :
    readValue limits (bound + 1) (room + 1) ('[' :: (text ++ rest)) =
      (readItems limits bound room (text ++ rest)).map fun (items, rest) => (.list items, rest) := by
  have kept := skipBlanks_of_starts starts rest
  obtain ⟨c, more, rfl, _, inside⟩ := starts
  have opened : skipBlanks ('[' :: (c :: more ++ rest)) = '[' :: (c :: more ++ rest) := rfl
  simp only [readValue, opened, kept]
  split
  · rename_i same
    exact absurd (List.cons.inj same).1 inside
  · rename_i none_left _
    cases none_left
  · rename_i room_left _
    cases room_left
    rfl

theorem readValue_fields (limits : Limits) (bound room : Nat) (text : List Char) :
    readValue limits (bound + 1) (room + 1) ('{' :: '"' :: text) =
      (readFields limits bound room ('"' :: text)).map fun (fields, rest) =>
        (.record fields, rest) :=
  rfl

theorem printFields_head {fields : List (String × Value)} (some_field : fields ≠ []) :
    ∃ more, printFields fields = '"' :: more := by
  match fields, some_field with
  | [(name, value)], _ => exact ⟨_, rfl⟩
  | (name, value) :: next :: later, _ => exact ⟨_, rfl⟩

theorem readBack_of_starts {limits : Limits} {room : Nat} {value : Value}
    (starts : Starts (print value))
    (read : ∀ bound rest, (print value).length ≤ bound + 1 → Ends rest →
      readValue limits (bound + 1) room (print value ++ rest) = some (value, rest)) :
    ReadBack limits room value := by
  intro bound rest enough ends
  obtain ⟨c, more, shape, _⟩ := starts
  cases bound with
  | zero =>
      rw [shape] at enough
      cases enough
  | succ bound => exact read bound rest enough ends

/-- The text of a value is read back as that value, before anything that does not go on with a
number. -/
theorem readValue_print {limits : Limits} {room : Nat} {value : Value}
    (within : value.Within limits room) : ReadBack limits room value := by
  induction within with
  | @null room =>
      have within : Value.null.Within limits room := .null
      exact readBack_of_starts (starts_print within) fun _ _ _ _ => rfl
  | @noItems room =>
      have within : (Value.list []).Within limits room := .noItems
      exact readBack_of_starts (starts_print within) fun _ _ _ _ => rfl
  | @noFields room =>
      have within : (Value.record []).Within limits room := .noFields
      exact readBack_of_starts (starts_print within) fun _ _ _ _ => rfl
  | @bool room value =>
      have within : (Value.bool value).Within limits room := .bool value
      refine readBack_of_starts (starts_print within) fun _ _ _ _ => ?_
      cases value <;> rfl
  | @text room value =>
      have within : (Value.text value).Within limits room := .text value
      refine readBack_of_starts (starts_print within) fun bound rest _ _ => ?_
      rw [print, stringText_append]
      show (readString (value.toList.flatMap escapeChar ++ '"' :: rest)).map _ = _
      rw [readString_escaped]
      rfl
  | @int room value short =>
      have within : (Value.int value).Within limits room := .int short
      refine readBack_of_starts (starts_print within) fun bound rest _ ends => ?_
      have read := readNumber_integerText short ends
      obtain ⟨c, more, shape, head⟩ := integerText_head value
      rw [print]
      rw [shape] at read ⊢
      exact (readValue_number limits bound _ head).trans read
  | @list room items each ih =>
      refine readBack_of_starts (starts_print (.list each)) fun bound rest enough _ => ?_
      cases items with
      | nil => rfl
      | cons item others =>
          have some_item := List.cons_ne_nil item others
          have starts := starts_printItems each some_item
          simp only [print, List.length_cons, List.length_append] at enough
          have read := readItems_print ih some_item bound rest (by omega)
          have text : print (.list (item :: others)) ++ rest =
              '[' :: (printItems (item :: others) ++ ']' :: rest) := by simp [print]
          rw [text, readValue_items limits bound room starts, read]
          rfl
  | @record room fields each ih =>
      refine readBack_of_starts (starts_print (.record each)) fun bound rest enough _ => ?_
      cases fields with
      | nil => rfl
      | cons field others =>
          have some_field := List.cons_ne_nil field others
          obtain ⟨more, shape⟩ := printFields_head some_field
          simp only [print, List.length_cons, List.length_append] at enough
          have read := readFields_print ih some_field bound rest (by omega)
          have text : print (.record (field :: others)) ++ rest =
              '{' :: (printFields (field :: others) ++ '}' :: rest) := by simp [print]
          rw [text]
          rw [shape, List.cons_append] at read ⊢
          rw [readValue_fields, read]
          rfl

/-- What is written is read back, within the limits of the reader. -/
theorem parseWithin?_render {limits : Limits} {value : Value}
    (within : value.Within limits limits.nesting) :
    parseWithin? limits (render value) = some value := by
  have read := readValue_print within ((print value).length + 1) [] (Nat.le_succ _) nofun
  rw [List.append_nil] at read
  simp only [parseWithin?, render, String.toList_ofList, read, Option.bind_eq_bind,
    Option.bind_some]
  rfl

end Json

end CodeFacts
