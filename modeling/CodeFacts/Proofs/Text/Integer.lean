import CodeFacts.Fault

/-!
A whole number that is written out is read back, if it has no more digits than may be read.
-/

namespace CodeFacts.Text

def digitChar (digit : Nat) : Char := Char.ofNat (0x30 + digit)

/-- The digits of a number, the first one first. -/
def digitsOf (value : Nat) : List Nat :=
  if value < 10 then [value] else digitsOf (value / 10) ++ [value % 10]

/-- The value of digits behind those of a number. -/
def valueFrom (value : Nat) (digits : List Nat) : Nat :=
  digits.foldl (fun value digit => 10 * value + digit) value

theorem digitsOf_lt (value : Nat) : ∀ digit ∈ digitsOf value, digit < 10 := by
  induction value using Nat.strongRecOn with
  | ind value ih =>
      intro digit member
      unfold digitsOf at member
      split at member
      case isTrue small =>
        rw [List.mem_singleton.mp member]
        exact small
      case isFalse large =>
        rcases List.mem_append.mp member with earlier | last
        · exact ih (value / 10) (by omega) digit earlier
        · rw [List.mem_singleton.mp last]
          exact Nat.mod_lt value (by decide)

theorem digitsOf_ne_nil (value : Nat) : digitsOf value ≠ [] := by
  unfold digitsOf
  split <;> simp

theorem naturalText_eq (value : Nat) : naturalText value = (digitsOf value).map digitChar := by
  induction value using Nat.strongRecOn with
  | ind value ih =>
      unfold naturalText digitsOf
      split
      case isTrue => rfl
      case isFalse large =>
        rw [ih (value / 10) (by omega), List.map_append]
        rfl

theorem valueFrom_digitsOf (value : Nat) : valueFrom 0 (digitsOf value) = value := by
  induction value using Nat.strongRecOn with
  | ind value ih =>
      unfold digitsOf
      split
      case isTrue => simp [valueFrom]
      case isFalse large =>
        have earlier := ih (value / 10) (by omega)
        simp only [valueFrom, List.foldl_append, List.foldl_cons, List.foldl_nil] at earlier ⊢
        rw [earlier]
        omega

theorem digitValue?_digitChar {digit : Nat} (small : digit < 10) :
    digitValue? (digitChar digit) = some digit := by
  have checked : ∀ digit < 10, digitValue? (digitChar digit) = some digit := by decide +kernel
  exact checked digit small

/-- The marks a number may begin with and the blanks around it are no digits. -/
theorem digitChar_unmarked {digit : Nat} (small : digit < 10) :
    digitChar digit ≠ '_' ∧ digitChar digit ≠ '-' ∧ digitChar digit ≠ '+' ∧
      digitChar digit ≠ ':' ∧ isPadding (digitChar digit) = false := by
  have checked : ∀ digit < 10, digitChar digit ≠ '_' ∧ digitChar digit ≠ '-' ∧
      digitChar digit ≠ '+' ∧ digitChar digit ≠ ':' ∧ isPadding (digitChar digit) = false := by
    decide +kernel
  exact checked digit small

theorem continueNumber_digits {digits : List Nat} (small : ∀ digit ∈ digits, digit < 10)
    (value count : Nat) :
    continueNumber value count (digits.map digitChar) =
      some (valueFrom value digits, count + digits.length, []) := by
  induction digits generalizing value count with
  | nil => rfl
  | cons digit rest ih =>
      have bound := small digit List.mem_cons_self
      have later := ih (fun other member => small other (List.mem_cons_of_mem digit member))
        (10 * value + digit) (count + 1)
      rw [List.map_cons, continueNumber]
      · simp only [digitValue?_digitChar bound, later]
        simp [valueFrom, Nat.add_comm, Nat.add_left_comm]
      · intro same _
        exact (digitChar_unmarked bound).1 same
      · intro _ _ same _
        exact (digitChar_unmarked bound).1 same

theorem readNumber_naturalText {value : Nat}
    (short : (naturalText value).length ≤ digitLimit) :
    readNumber (naturalText value) = .ok value := by
  rw [naturalText_eq] at short ⊢
  have small := digitsOf_lt value
  have total := valueFrom_digitsOf value
  cases shape : digitsOf value with
  | nil => exact absurd shape (digitsOf_ne_nil value)
  | cons first rest =>
      rw [shape] at short small total
      have read := continueNumber_digits
        (fun other member => small other (List.mem_cons_of_mem first member)) first 1
      have within : ¬digitLimit < 1 + rest.length := by
        rw [List.length_map, List.length_cons] at short
        omega
      rw [List.map_cons, readNumber, digitValue?_digitChar (small first List.mem_cons_self),
        Option.bind_some, read]
      simp only [within, if_false, if_true]
      simpa [valueFrom] using total

theorem mem_integerText {value : Int} {c : Char} (member : c ∈ integerText value) :
    c = '-' ∨ ∃ digit < 10, c = digitChar digit := by
  have natural {value : Nat} (member : c ∈ naturalText value) :
      ∃ digit < 10, c = digitChar digit := by
    rw [naturalText_eq] at member
    obtain ⟨digit, written, rfl⟩ := List.mem_map.mp member
    exact ⟨digit, digitsOf_lt value digit written, rfl⟩
  cases value with
  | ofNat value => exact .inr (natural member)
  | negSucc value => exact (List.mem_cons.mp member).imp_right natural

theorem integerText_unpadded (value : Int) :
    ∀ c ∈ integerText value, isPadding c = false ∧ c ≠ ':' := by
  intro c member
  rcases mem_integerText member with rfl | ⟨digit, small, rfl⟩
  · decide
  · have unmarked := digitChar_unmarked small
    exact ⟨unmarked.2.2.2.2, unmarked.2.2.2.1⟩

theorem decimal_unmarked (value : Int) :
    ∀ c ∈ (decimal value).toList, c ≠ '.' ∧ c ≠ ':' ∧ c ≠ '#' := by
  have digits : ∀ digit < 10,
      digitChar digit ≠ '.' ∧ digitChar digit ≠ ':' ∧ digitChar digit ≠ '#' := by
    decide +kernel
  intro c member
  rw [decimal, String.toList_ofList] at member
  rcases mem_integerText member with rfl | ⟨digit, small, rfl⟩
  · decide
  · exact digits digit small

theorem dropPadding_of_unpadded {text : List Char} (unpadded : ∀ c ∈ text, isPadding c = false) :
    dropPadding text = text := by
  have kept (text : List Char) (unpadded : ∀ c ∈ text, isPadding c = false) :
      text.dropWhile isPadding = text := by
    cases text with
    | nil => rfl
    | cons c rest =>
        exact List.dropWhile_cons_of_neg (by simp [unpadded c List.mem_cons_self])
  rw [dropPadding, kept text unpadded,
    kept text.reverse fun c member => unpadded c (List.mem_reverse.mp member), List.reverse_reverse]

theorem readSigned_naturalText {value : Nat}
    (short : (naturalText value).length ≤ digitLimit) :
    readSigned (naturalText value) = .ok (value : Int) := by
  have read := readNumber_naturalText short
  rw [naturalText_eq] at read ⊢
  have small := digitsOf_lt value
  cases shape : digitsOf value with
  | nil => exact absurd shape (digitsOf_ne_nil value)
  | cons first rest =>
      rw [shape] at small read
      have unmarked := digitChar_unmarked (small first List.mem_cons_self)
      rw [List.map_cons] at read ⊢
      rw [readSigned, read]
      · rfl
      · intro _ same
        exact unmarked.2.1 (List.cons.inj same).1
      · intro _ same
        exact unmarked.2.2.1 (List.cons.inj same).1

/-- A written number of few enough digits is read back. -/
theorem readWhole_decimal {value : Int}
    (short : (naturalText value.natAbs).length ≤ digitLimit) :
    readWhole (decimal value) = .ok value := by
  have read : readInteger (decimal value) = .ok value := by
    rw [readInteger, decimal, String.toList_ofList,
      dropPadding_of_unpadded fun c member => (integerText_unpadded value c member).1]
    cases value with
    | ofNat value => exact readSigned_naturalText short
    | negSucc value =>
        have later : readNumber (naturalText (value + 1)) = .ok (value + 1) :=
          readNumber_naturalText short
        rw [integerText, readSigned, later]
        rfl
  rw [readWhole, read]

theorem toDigits_eq (value : Nat) : Nat.toDigits 10 value = naturalText value := by
  have digits : ∀ digit < 10, Nat.digitChar digit = Char.ofNat (0x30 + digit) := by decide +kernel
  induction value using Nat.strongRecOn with
  | ind value ih =>
      rw [Nat.toDigits_eq_if (by decide), naturalText]
      by_cases small : value < 10
      · rw [if_pos small, if_pos small, digits value small]
      · rw [if_neg small, if_neg small, ih (value / 10) (by omega),
          digits (value % 10) (Nat.mod_lt value (by decide))]

theorem toString_eq_decimal (value : Nat) : toString value = decimal value :=
  congrArg String.ofList (toDigits_eq value)

theorem toString_ne_empty (value : Nat) : toString value ≠ "" := by
  intro empty
  have digits : naturalText value = [] := by
    rw [← toDigits_eq]
    exact String.ofList_injective (empty.trans rfl)
  rw [naturalText_eq, List.map_eq_nil_iff] at digits
  exact digitsOf_ne_nil value digits

theorem readWhole_toString {value : Nat} (short : (naturalText value).length ≤ digitLimit) :
    readWhole (toString value) = .ok (value : Int) := by
  rw [toString_eq_decimal]
  exact readWhole_decimal short

theorem length_naturalText_mono {small large : Nat} (below : small ≤ large) :
    (naturalText small).length ≤ (naturalText large).length := by
  induction large using Nat.strongRecOn generalizing small with
  | ind large ih =>
      unfold naturalText
      by_cases single : small < 10
      · rw [if_pos single]
        split <;> simp
      · rw [if_neg single, if_neg (by omega)]
        have shorter := ih (large / 10) (by omega) (Nat.div_le_div_right below)
        simpa using shorter

end CodeFacts.Text
