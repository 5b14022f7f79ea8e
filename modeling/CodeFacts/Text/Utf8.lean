/-!
Reading bytes as UTF-8. Well-formed bytes give their characters; each longest run of bytes that
starts a character but does not finish it, and each byte that starts none, gives one replacement
character.
-/

namespace CodeFacts.Text.Utf8

/-- A character whose first bytes were read: how many bytes are owed, between which bounds the
next of them must lie, and the bits read so far. -/
structure Pending where
  owed : Nat
  low : Nat
  high : Nat
  bits : Nat

/-- What the first byte of a character announces. -/
inductive Lead where
  | whole (c : Char)
  | partly (pending : Pending)
  | refused

/-- The character that stands for bytes that are no character. -/
def replacement : Char := '\uFFFD'

def lead (byte : Nat) : Lead :=
  if byte < 0x80 then .whole (Char.ofNat byte)
  else if byte < 0xC2 then .refused
  else if byte < 0xE0 then .partly ⟨1, 0x80, 0xBF, byte - 0xC0⟩
  else if byte = 0xE0 then .partly ⟨2, 0xA0, 0xBF, 0⟩
  else if byte = 0xED then .partly ⟨2, 0x80, 0x9F, 0xD⟩
  else if byte < 0xF0 then .partly ⟨2, 0x80, 0xBF, byte - 0xE0⟩
  else if byte = 0xF0 then .partly ⟨3, 0x90, 0xBF, 0⟩
  else if byte < 0xF4 then .partly ⟨3, 0x80, 0xBF, byte - 0xF0⟩
  else if byte = 0xF4 then .partly ⟨3, 0x80, 0x8F, 4⟩
  else .refused

/-- The characters of bytes, some bytes of the first character being read already. -/
def decodeFrom : Option Pending → List UInt8 → List Char
  | none, [] => []
  | some _, [] => [replacement]
  | pending, byte :: rest =>
      let value := byte.toNat
      let start : List Char :=
        match lead value with
        | .whole c => c :: decodeFrom none rest
        | .partly next => decodeFrom (some next) rest
        | .refused => replacement :: decodeFrom none rest
      match pending with
      | none => start
      | some ⟨owed, low, high, bits⟩ =>
          if low ≤ value ∧ value ≤ high then
            let bits := bits * 64 + (value - 0x80)
            if owed ≤ 1 then Char.ofNat bits :: decodeFrom none rest
            else decodeFrom (some ⟨owed - 1, 0x80, 0xBF, bits⟩) rest
          else replacement :: start

def decode (bytes : List UInt8) : String :=
  String.ofList (decodeFrom none bytes)

end CodeFacts.Text.Utf8
