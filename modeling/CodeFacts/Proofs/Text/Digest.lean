import CodeFacts.Text.Digest
import Mathlib.Algebra.Group.Nat.Defs

/-!
What stands between a text and its digest loses nothing: texts of different characters have
different bytes, and digests of different words are written in different digits. So the written
digests tell two texts apart just where the digests of their bytes do.
-/

namespace CodeFacts.Text

theorem hexDigit_injective {digit other : Nat} (small : digit < 16) (other_small : other < 16)
    (same : hexDigit digit = hexDigit other) : digit = other := by
  have checked : ∀ digit < 16, ∀ other < 16, hexDigit digit = hexDigit other → digit = other := by
    decide +kernel
  exact checked digit small other other_small same

theorem length_hexDigits (width value : Nat) : (hexDigits width value).length = width := by
  induction width generalizing value with
  | zero => rfl
  | succ width ih => simp [hexDigits, ih]

theorem hexDigits_injective {width value other : Nat} (small : value < 16 ^ width)
    (other_small : other < 16 ^ width) (same : hexDigits width value = hexDigits width other) :
    value = other := by
  induction width generalizing value other with
  | zero => omega
  | succ width ih =>
      rw [Nat.pow_succ] at small other_small
      obtain ⟨front, last⟩ := List.append_inj same (by simp only [length_hexDigits])
      have above := ih (by omega) (by omega) front
      have below := hexDigit_injective (Nat.mod_lt value (by decide)) (Nat.mod_lt other (by decide))
        (List.singleton_inj.mp last)
      omega

/-- Items written in pieces of one length are told apart by the whole if each is by its piece. -/
theorem flatMap_injective {α β : Type} {write : α → List β} {width : Nat} (wide : 0 < width)
    (length : ∀ item, (write item).length = width) (apart : Function.Injective write)
    {items others : List α} (same : items.flatMap write = others.flatMap write) :
    items = others := by
  induction items generalizing others with
  | nil =>
      cases others with
      | nil => rfl
      | cons other rest =>
          have size := congrArg List.length same
          simp only [List.flatMap_nil, List.flatMap_cons, List.length_append, length] at size
          simp only [List.length_nil] at size
          omega
  | cons item rest ih =>
      cases others with
      | nil =>
          have size := congrArg List.length same
          simp only [List.flatMap_nil, List.flatMap_cons, List.length_append, length] at size
          simp only [List.length_nil] at size
          omega
      | cons other more =>
          rw [List.flatMap_cons, List.flatMap_cons] at same
          obtain ⟨first, later⟩ := List.append_inj same (by rw [length, length])
          rw [apart first, ih later]

namespace Digest

/-- The bytes whose digest is taken of a text. -/
def bytesOf (text : String) : List UInt8 := text.toUTF8.toList

theorem toList_loop (bytes : ByteArray) (place : Nat) (front : List UInt8) :
    ByteArray.toList.loop bytes place front = front.reverse ++ bytes.data.toList.drop place := by
  fun_induction ByteArray.toList.loop bytes place front with
  | case1 place front inside ih =>
      have bound : place < bytes.data.toList.length := inside
      have here : bytes.get! place = bytes.data.toList[place] := by
        rw [ByteArray.get!, getElem!_pos bytes.data place inside]
        exact Array.getElem_toList bound
      rw [ih, List.drop_eq_getElem_cons bound, List.reverse_cons, List.append_assoc, here]
      rfl
  | case2 place front outside =>
      have bound : bytes.data.toList.length ≤ place := Nat.le_of_not_lt outside
      rw [List.drop_eq_nil_of_le bound, List.append_nil]

theorem bytesOf_injective : Function.Injective bytesOf := by
  intro text other same
  rw [bytesOf, bytesOf, ByteArray.toList, ByteArray.toList, toList_loop, toList_loop] at same
  exact String.toByteArray_inj.mp (ByteArray.ext (Array.toList_inj.mp same))

theorem hexOf_eq_iff (text other : String) :
    hexOf text = hexOf other ↔ sha256 (bytesOf text) = sha256 (bytesOf other) := by
  have bound (word : UInt32) : word.toNat < 16 ^ 8 :=
    Nat.lt_of_lt_of_eq word.toNat_lt (by decide +kernel)
  have apart : Function.Injective fun word : UInt32 => hexDigits 8 word.toNat := by
    intro word again digits
    exact UInt32.toNat_inj.mp (hexDigits_injective (bound word) (bound again) digits)
  have length (word : UInt32) : (hexDigits 8 word.toNat).length = 8 := length_hexDigits 8 _
  have written (words more : List UInt32) :
      (words.flatMap fun word => hexDigits 8 word.toNat) =
        (more.flatMap fun word => hexDigits 8 word.toNat) ↔ words = more := by
    constructor
    · exact flatMap_injective (Nat.succ_pos 7) length apart
    · rintro rfl
      rfl
  rw [hexOf, hexOf, String.ofList_inj, written, bytesOf, bytesOf]

/-- Whether the digest is different for any two of some texts that have different bytes. -/
def Apart (texts : List String) : Prop :=
  ∀ text ∈ texts, ∀ other ∈ texts,
    sha256 (bytesOf text) = sha256 (bytesOf other) → bytesOf text = bytesOf other

instance (texts : List String) : Decidable (Apart texts) :=
  inferInstanceAs (Decidable (∀ text ∈ texts, ∀ other ∈ texts,
    sha256 (bytesOf text) = sha256 (bytesOf other) → bytesOf text = bytesOf other))

theorem Apart.eq_of_hexOf {texts : List String} (apart : Apart texts) {text other : String}
    (listed : text ∈ texts) (other_listed : other ∈ texts) (same : hexOf text = hexOf other) :
    text = other :=
  bytesOf_injective (apart text listed other other_listed ((hexOf_eq_iff text other).mp same))

end Digest

end CodeFacts.Text
