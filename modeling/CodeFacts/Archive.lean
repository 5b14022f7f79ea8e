import CodeFacts.Fault
import CodeFacts.Text.Utf8

/-!
Archives: files whose last part is a directory of the entries they hold. The directory ends where
its record starts, which is the last thing in the file but for a comment. Numbers are written with
their least byte first.
-/

namespace CodeFacts.Archive

def number : List UInt8 → Nat
  | [] => 0
  | byte :: rest => byte.toNat + 256 * number rest

def short (start : Nat) (bytes : List UInt8) : Nat := number ((bytes.drop start).take 2)

/-- How the record of a directory starts. -/
def recordMark : List UInt8 := [0x50, 0x4B, 0x05, 0x06]

/-- The size of the record of a directory without its comment. -/
def recordSize : Nat := 22

/-- The most bytes a comment can have, and one more. -/
def commentLimit : Nat := 65536

/-- How an entry of a directory starts. -/
def entryMark : List UInt8 := [0x50, 0x4B, 0x01, 0x02]

/-- The size of an entry without the texts that follow it. -/
def entrySize : Nat := 46

/-- The last position of a mark; the bytes start at a position themselves. -/
def lastMark? (mark : List UInt8) : (position : Nat) → List UInt8 → Option Nat
  | _, [] => none
  | position, byte :: rest =>
      (lastMark? mark (position + 1) rest).or
        (if mark.isPrefixOf (byte :: rest) then some position else none)

/-- Where the record of a directory starts. A record at the end that announces no comment counts
before any other. -/
def recordPosition? (bytes : List UInt8) : Option Nat :=
  if bytes.length < recordSize then none
  else
    let last := bytes.length - recordSize
    let tail := bytes.drop last
    if recordMark.isPrefixOf tail && short 20 tail == 0 then some last
    else
      let start := last - commentLimit
      (lastMark? recordMark start (bytes.drop start)).filter (· ≤ last)

/-- The characters of the bytes from 128 on in names that are not marked as UTF-8. -/
def highCharacters : List Char :=
  ("ÇüéâäàåçêëèïîìÄÅÉæÆôöòûùÿÖÜ¢£¥₧ƒ" ++
    "áíóúñÑªº¿⌐¬½¼¡«»░▒▓│┤╡╢╖╕╣║╗╝╜╛┐" ++
    "└┴┬├─┼╞╟╚╔╩╦╠═╬╧╨╤╥╙╘╒╓╫╪┘┌█▄▌▐▀" ++
    "αßΓπΣσµτΦΘΩδ∞φε∩≡±≥≤⌠⌡÷≈°∙·√ⁿ²■\u00a0").toList

/-- The character of a byte in a name that is not marked as UTF-8. -/
def character (byte : UInt8) : Char :=
  if byte.toNat < 128 then Char.ofNat byte.toNat
  else highCharacters.getD (byte.toNat - 128) Text.Utf8.replacement

/-- The mark of names in UTF-8. -/
def isUtf8 (flags : Nat) : Bool := flags.testBit 11

def names (bytes : List UInt8) : Except ArchiveFault (List String) :=
  if bytes = [] then .ok []
  else if bytes.length < entrySize then .error .truncated
  else if !entryMark.isPrefixOf bytes then .error .noEntry
  else
    let size := short 28 bytes
    let encoded := (bytes.drop entrySize).take size
    let name :=
      if isUtf8 (short 8 bytes) then Text.Utf8.decode encoded
      else String.ofList (encoded.map character)
    (names (bytes.drop (entrySize + size + short 30 bytes + short 32 bytes))).map (name :: ·)
termination_by bytes.length
decreasing_by
  simp only [List.length_drop, entrySize] at *
  omega

def entries (bytes : List UInt8) : Except ArchiveFault (List String) :=
  match recordPosition? bytes with
  | none => .error .noArchive
  | some position =>
      let size := number (((bytes.drop position).drop 12).take 4)
      if position < size then .error .misplaced
      else names ((bytes.drop (position - size)).take size)

end CodeFacts.Archive
