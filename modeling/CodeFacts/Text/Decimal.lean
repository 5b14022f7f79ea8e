import CodeFacts.Text.Integer

/-!
Numbers that need not be whole: numerals as they are written, and the two ways a binary
floating-point number is written, with the fewest digits that read back or with a fixed number of
places. Digits are found in exact arithmetic on the number's bits.
-/

namespace CodeFacts.Text

def tenTo (exponent : Nat) : Nat := Nat.pow 10 exponent

def twoTo (exponent : Nat) : Nat := Nat.pow 2 exponent

/-- A written number: `± digits · 10 ^ exponent`, an infinity, or the mark of no number. -/
inductive Numeral where
  | decimal (negative : Bool) (digits : Nat) (exponent : Int)
  | infinite (negative : Bool)
  | undefined
  deriving DecidableEq, Repr

/-- The floating-point number nearest to `digits · 10 ^ exponent`. Where the exponent alone makes it
zero or infinite, no power is computed. -/
def nearest (digits : Nat) (exponent : Int) : Float :=
  if digits = 0 then 0
  else if 400 < exponent then 1 / 0
  else if 0 ≤ exponent then Float.ofScientific digits false exponent.toNat
  else if digits.log2 + 1100 < exponent.natAbs then 0
  else Float.ofScientific digits true exponent.natAbs

/-- The floating-point number nearest to a numeral. -/
def Numeral.toFloat : Numeral → Float
  | .decimal negative digits exponent =>
      if negative then -nearest digits exponent else nearest digits exponent
  | .infinite negative => if negative then -(1 / 0) else 1 / 0
  | .undefined => 0 / 0

/-- A floating-point number taken apart. A finite one is `± significand · 2 ^ exponent`. -/
inductive Parts where
  | finite (negative : Bool) (significand : Nat) (exponent : Int)
  | infinite (negative : Bool)
  | undefined

/-- The parts of a floating-point number, from its bits. -/
def Parts.ofFloat (x : Float) : Parts :=
  let bits := x.toBits.toNat
  let negative := bits / twoTo 63 = 1
  let biased : Nat := bits / twoTo 52 % twoTo 11
  let fraction : Nat := bits % twoTo 52
  if biased = 2047 then (if fraction = 0 then .infinite negative else .undefined)
  else if biased = 0 then .finite negative fraction (-1074)
  else .finite negative (fraction + twoTo 52) ((biased : Int) - 1075)

/-- What a floating-point number is as a whole number. -/
inductive Wholeness where
  | whole (value : Int)
  | fractional
  | tooLarge
  | notFinite
  deriving DecidableEq, Repr

/-- What floating-point parts make as a whole number of less than 64 bits. -/
def Parts.wholeness : Parts → Wholeness
  | .finite negative significand exponent =>
      let unit := twoTo exponent.natAbs
      let size := if 0 ≤ exponent then significand * unit else significand / unit
      if exponent < 0 ∧ significand % unit ≠ 0 then .fractional
      else if size < twoTo 63 then .whole (signed negative size)
      else .tooLarge
  | .infinite _ => .notFinite
  | .undefined => .notFinite

/-- What the floating-point number nearest to a numeral is as a whole number. -/
def Numeral.wholeness (n : Numeral) : Wholeness := (Parts.ofFloat n.toFloat).wholeness

/-- A positive quotient rounded to the nearest whole number, a tie to the even one. -/
def roundDiv (numerator denominator : Nat) : Nat :=
  let quotient := numerator / denominator
  let twice := 2 * (numerator % denominator)
  if twice < denominator then quotient
  else if denominator < twice then quotient + 1
  else quotient + quotient % 2

/-- A point of a grid of powers of ten, `digits · 10 ^ exponent`. -/
structure Scaled where
  digits : Nat
  exponent : Int

/-- `numerator / denominator` against `10 ^ exponent`: the pair of numbers to divide. -/
def onGrid (numerator denominator : Nat) (exponent : Int) : Nat × Nat :=
  if 0 ≤ exponent then (numerator, denominator * tenTo exponent.toNat)
  else (numerator * tenTo exponent.natAbs, denominator)

/-- The interval of the numbers that round to a given positive one, over a common denominator. -/
structure Rounding where
  low : Nat
  value : Nat
  high : Nat
  denominator : Nat
  closed : Bool

/-- The rounding interval of `significand · 2 ^ exponent`. -/
def Rounding.of (significand : Nat) (exponent : Int) : Rounding :=
  let unit := if 0 ≤ exponent then 4 * twoTo exponent.toNat else 4
  let denominator := if 0 ≤ exponent then 4 else 4 * twoTo exponent.natAbs
  let below := if significand = twoTo 52 ∧ exponent ≠ -1074 then unit / 4 else unit / 2
  ⟨significand * unit - below, significand * unit, significand * unit + unit / 2, denominator,
    significand % 2 = 0⟩

/-- Whether a point of a grid lies in the interval. -/
def Rounding.holds (r : Rounding) (digits : Nat) (exponent : Int) : Bool :=
  let (scale, denominator) :=
    if 0 ≤ exponent then (tenTo exponent.toNat, 1) else (1, tenTo exponent.natAbs)
  let point := digits * scale * r.denominator
  let low := r.low * denominator
  let high := r.high * denominator
  if r.closed then low ≤ point && point ≤ high else low < point && point < high

/-- The point of a grid nearest to the value, of those that lie in the interval. -/
def Rounding.nearest? (r : Rounding) (exponent : Int) : Option Scaled :=
  let (numerator, denominator) := onGrid r.value r.denominator exponent
  let below := numerator / denominator
  let nearest := roundDiv numerator denominator
  let other := if nearest = below then below + 1 else below
  if r.holds nearest exponent then some ⟨nearest, exponent⟩
  else if r.holds other exponent then some ⟨other, exponent⟩
  else none

/-- The first grid that has a point in the interval, the coarsest first. -/
def Rounding.shortest (r : Rounding) : (grids : Nat) → (exponent : Int) → Scaled
  | 0, exponent => ⟨roundDiv (onGrid r.value r.denominator exponent).1
      (onGrid r.value r.denominator exponent).2, exponent⟩
  | grids + 1, exponent => (r.nearest? exponent).getD (r.shortest grids (exponent - 1))

/-- Digits without the zeros at their end, the exponent being raised for each one dropped. -/
def Scaled.trim : (fuel : Nat) → Scaled → Scaled
  | 0, s => s
  | fuel + 1, s =>
      if s.digits ≠ 0 ∧ s.digits % 10 = 0 then Scaled.trim fuel ⟨s.digits / 10, s.exponent + 1⟩
      else s

/-- The digits of a positive number: positional where the point stands at most four places before
the first digit or within sixteen digits, else with an exponent of two digits or more. -/
def Scaled.text (s : Scaled) : List Char :=
  let digits := naturalText s.digits
  let point : Int := digits.length + s.exponent
  if -4 < point ∧ point ≤ 16 then
    if point ≤ 0 then '0' :: '.' :: List.replicate point.natAbs '0' ++ digits
    else if s.exponent < 0 then digits.take point.toNat ++ '.' :: digits.drop point.toNat
    else digits ++ List.replicate s.exponent.toNat '0' ++ ['.', '0']
  else
    let exponent := point - 1
    let size := naturalText exponent.natAbs
    let lead := digits.take 1 ++ (if digits.length = 1 then [] else '.' :: digits.drop 1)
    lead ++ 'e' :: (if exponent < 0 then '-' else '+') ::
      (if size.length = 1 then '0' :: size else size)

/-- A floating-point number with the fewest digits that read back as the same number. -/
def floatText (x : Float) : String :=
  let signed (negative : Bool) (text : List Char) : String :=
    String.ofList (if negative then '-' :: text else text)
  match Parts.ofFloat x with
  | .undefined => "nan"
  | .infinite negative => signed negative ['i', 'n', 'f']
  | .finite negative 0 _ => signed negative ['0', '.', '0']
  | .finite negative significand exponent =>
      let r := Rounding.of significand exponent
      let wholeDigits := (naturalText (r.value / r.denominator)).length
      let start : Int :=
        if r.denominator ≤ r.value then wholeDigits
        else 1 - ((naturalText (r.denominator / r.value)).length : Int) + 1
      signed negative ((r.shortest 20 start).trim 400).text

/-- A floating-point number with three places, an exact tie going to the even digit. -/
def threePlaces (x : Float) : String :=
  match Parts.ofFloat x with
  | .undefined => "nan"
  | .infinite negative => if negative then "-inf" else "inf"
  | .finite negative significand exponent =>
      let (numerator, denominator) :=
        if 0 ≤ exponent then (significand * twoTo exponent.toNat, 1)
        else (significand, twoTo exponent.natAbs)
      let thousandths := roundDiv (1000 * numerator) denominator
      let places := naturalText (thousandths % 1000)
      let text := naturalText (thousandths / 1000) ++
        '.' :: List.replicate (3 - places.length) '0' ++ places
      String.ofList (if negative then '-' :: text else text)

end CodeFacts.Text
