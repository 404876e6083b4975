/-
Numerals read as binary floating-point numbers of double precision and written back:

* `Binary64`: a finite non-negative double as `mantissa · 2 ^ exponent`, or infinity;
* `Binary64.nearest`: the double nearest to a fraction, ties to the even mantissa;
* `Binary64.text`: the fewest decimal digits that read back as the same double, in positional
  notation.

All arithmetic is exact, on natural numbers.
-/
import SvelteStories.Text.CharClass

namespace SvelteStories

/-- A non-negative double. -/
inductive Binary64
  /-- The number `mantissa · 2 ^ exponent`. -/
  | finite (mantissa : Nat) (exponent : Int)
  /-- A magnitude beyond the largest finite double. -/
  | infinite
deriving DecidableEq, Repr

/-- `b ^ e` as numerator and denominator, for an exponent of either sign. -/
def powerFraction (b : Nat) (e : Int) : Nat × Nat :=
  match e with
  | .ofNat n => (Nat.pow b n, 1)
  | .negSucc n => (1, Nat.pow b (n + 1))

/-- The quotient rounded to the nearest whole number, a tie to the even one. -/
def roundDiv (num den : Nat) : Nat :=
  let q := num / den
  let r := num % den
  if 2 * r < den then q
  else if den < 2 * r then q + 1
  else if q % 2 = 0 then q else q + 1

namespace Binary64

/-- The double nearest to `num / den`. -/
def nearest (num den : Nat) : Binary64 :=
  if num = 0 then .finite 0 0
  else
    -- the exponent that leaves 53 binary digits before the point, or one more
    let guess : Int := max ((num.log2 : Int) - den.log2 - 53) (-1074)
    let scaled (e : Int) : Nat :=
      let (a, b) := powerFraction 2 e
      roundDiv (num * b) (den * a)
    let e := if Nat.pow 2 53 ≤ scaled guess then guess + 1 else guess
    let e := if Nat.pow 2 53 ≤ scaled e then e + 1 else e
    if 971 < e then .infinite else .finite (scaled e) e

/-- A digit string and the power of ten of its last digit. -/
structure Digits where
  /-- The digits as one number. -/
  value : Nat
  /-- The power of ten that the last digit counts. -/
  exponent : Int

/-- The point of the decimal grid `10 ^ e` that is nearest to `num / den` among those closer than
`gap / den`, if there is one. -/
def gridPoint? (num den gap : Nat) (closed : Bool) (e : Int) : Option Digits :=
  let (a, b) := powerFraction 10 e
  let below := num * b / (den * a)
  let near (n : Nat) : Option (Nat × Digits) :=
    let distance := max (n * den * a) (num * b) - min (n * den * a) (num * b)
    if distance < gap * b || (closed && distance = gap * b) then some (distance, ⟨n, e⟩) else none
  match near below, near (below + 1) with
  | some (d, p), some (d', p') => some (if d ≤ d' then p else p')
  | some (_, p), none => some p
  | none, some (_, p) => some p
  | none, none => none

/-- The power of ten just above `num / den`. -/
def decimalMagnitude (num den : Nat) : Int :=
  let guess : Int := ((num.log2 : Int) - den.log2) * 30103 / 100000 - 1
  let above (e : Int) : Bool :=
    let (a, b) := powerFraction 10 e
    num * b < den * a
  if above guess then guess
  else if above (guess + 1) then guess + 1
  else if above (guess + 2) then guess + 2
  else guess + 3

/-- The fewest digits that read back as the double `m · 2 ^ q`. -/
def shortest (m : Nat) (q : Int) : Digits :=
  let (a, b) := powerFraction 2 q
  -- with the value at `4m`, the neighbours' midpoints lie 2 away, or 1 below a power of two
  let num := 4 * m * a
  let den := 4 * b
  let gap := if m = Nat.pow 2 52 && -1074 < q then a else 2 * a
  let magnitude := decimalMagnitude num den
  let tries := (List.range 17).map fun n => magnitude - (n + 1 : Nat)
  (tries.findSome? (gridPoint? num den gap (m % 2 = 0))).getD ⟨0, 0⟩

/-- Positional notation of `value · 10 ^ exponent`. -/
def Digits.text (d : Digits) : List Char :=
  let ds := (toString d.value).toList
  match d.exponent with
  | .ofNat n => ds ++ List.replicate n '0'
  | .negSucc n =>
    let places := n + 1
    let padded := List.replicate (places + 1 - ds.length) '0' ++ ds
    let whole := padded.take (padded.length - places)
    let fraction := padded.drop (padded.length - places)
    let kept := (fraction.reverse.dropWhile (· = '0')).reverse
    if kept.isEmpty then whole else whole ++ '.' :: kept

/-- The shortest positional text of a double. -/
def text : Binary64 → List Char
  | .infinite => "inf".toList
  | .finite 0 _ => ['0']
  | .finite m q => (shortest m q).text

end Binary64

/-! ### Numerals -/

/-- The number written by digits of a base; separators and strangers count nothing. -/
def digitsValue (base : Nat) (ds : List Char) : Nat :=
  ds.foldl (fun n c => match digitValue? base c with
    | some d => n * base + d
    | none => n) 0

/-- The double that a decimal numeral `whole.fraction e exponent` denotes. Exponents that no
double reaches are decided by their size alone. -/
def decimalValue (whole fraction : List Char) (exponent : Int) : Binary64 :=
  let digits := ((whole ++ fraction).filter isAsciiDigit).dropWhile (· = '0')
  let value := digitsValue 10 digits
  let e := exponent - ((fraction.filter isAsciiDigit).length : Int)
  if value = 0 then .finite 0 0
  else if 400 < e + digits.length then .infinite
  else if e + digits.length < -400 then .finite 0 0
  else
    let (a, b) := powerFraction 10 e
    .nearest (value * a) b

end SvelteStories
