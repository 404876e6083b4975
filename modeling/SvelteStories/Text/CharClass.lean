/-
Character classes of Unicode, each a decidable predicate on single characters:

* `isBlank`: the White_Space property; `isAsciiBlank`: the five blanks that markup knows;
* `isAlphabetic`, `isNumeric`, `isAlphanumeric`: what names are made of;
* `isIdentifierStart`, `isIdentifierPart`: what script identifiers are made of.

ASCII characters are decided without a look into the tables.
-/
import SvelteStories.Text.CharTable

namespace SvelteStories

/-- Whether one of the closed ranges holds `n`. -/
def inRanges (ranges : List (Nat × Nat)) (n : Nat) : Bool :=
  ranges.any fun r => r.1 ≤ n && n ≤ r.2

/-! ### Blanks -/

/-- The White_Space property. -/
def isBlank (c : Char) : Bool :=
  let n := c.toNat
  if n < 0x80 then n = 0x20 || (9 ≤ n && n ≤ 13)
  else n = 0x85 || n = 0xA0 || n = 0x1680 || (0x2000 ≤ n && n ≤ 0x200A) || n = 0x2028
    || n = 0x2029 || n = 0x202F || n = 0x205F || n = 0x3000

/-- The blanks of markup: space, tab, line feed, form feed and carriage return. -/
def isAsciiBlank (c : Char) : Bool :=
  c = ' ' || c = '\t' || c = '\n' || c = '\x0c' || c = '\r'

/-! ### Letters and numbers -/

/-- An ASCII letter. -/
def isAsciiLetter (c : Char) : Bool :=
  (65 ≤ c.toNat && c.toNat ≤ 90) || (97 ≤ c.toNat && c.toNat ≤ 122)

/-- An ASCII digit. -/
def isAsciiDigit (c : Char) : Bool :=
  48 ≤ c.toNat && c.toNat ≤ 57

/-- An ASCII letter or digit. -/
def isAsciiAlphanumeric (c : Char) : Bool :=
  isAsciiLetter c || isAsciiDigit c

/-- A letter or a letter number, of any script. -/
def isLetter (c : Char) : Bool :=
  if c.toNat < 0x80 then isAsciiLetter c else inRanges CharTable.letterRanges c.toNat

/-- The Alphabetic property: letters, letter numbers and the marks that stand for letters. -/
def isAlphabetic (c : Char) : Bool :=
  if c.toNat < 0x80 then isAsciiLetter c
  else inRanges CharTable.letterRanges c.toNat || inRanges CharTable.alphabeticMarkRanges c.toNat

/-- A number of any kind: a digit, a letter number, a fraction, a superscript. -/
def isNumeric (c : Char) : Bool :=
  if c.toNat < 0x80 then isAsciiDigit c
  else inRanges CharTable.digitRanges c.toNat || inRanges CharTable.otherNumberRanges c.toNat
    || letterNumber c.toNat
where
  /-- The letter numbers, which are letters as well. -/
  letterNumber (n : Nat) : Bool :=
    inRanges [(0x16EE, 0x16F0), (0x2160, 0x2182), (0x2185, 0x2188), (0x3007, 0x3007),
      (0x3021, 0x3029), (0x3038, 0x303A), (0xA6E6, 0xA6EF), (0x10140, 0x10174),
      (0x10341, 0x10341), (0x1034A, 0x1034A), (0x103D1, 0x103D5), (0x12400, 0x1246E),
      (0x16FF4, 0x16FF6)] n

/-- A character that belongs to a word. -/
def isAlphanumeric (c : Char) : Bool :=
  isAlphabetic c || isNumeric c

/-! ### Script identifiers -/

/-- A character that an identifier may start with. -/
def isIdentifierStart (c : Char) : Bool :=
  if c.toNat < 0x80 then isAsciiLetter c || c = '_' || c = '$'
  else (isLetter c && c.toNat != 0x2E2F)
    || inRanges [(0x1885, 0x1886), (0x2118, 0x2118), (0x212E, 0x212E), (0x309B, 0x309C)] c.toNat

/-- A character that an identifier may go on with. -/
def isIdentifierPart (c : Char) : Bool :=
  if c.toNat < 0x80 then isAsciiAlphanumeric c || c = '_' || c = '$'
  else isIdentifierStart c || inRanges CharTable.markRanges c.toNat
    || inRanges CharTable.digitRanges c.toNat
    || inRanges [(0xB7, 0xB7), (0x387, 0x387), (0x1369, 0x1371), (0x19DA, 0x19DA),
      (0x200C, 0x200D), (0x203F, 0x2040), (0x2054, 0x2054), (0x30FB, 0x30FB), (0xFE33, 0xFE34),
      (0xFE4D, 0xFE4F), (0xFF3F, 0xFF3F), (0xFF65, 0xFF65)] c.toNat

/-- A hexadecimal digit. -/
def isHexDigit (c : Char) : Bool :=
  isAsciiDigit c || (65 ≤ c.toNat && c.toNat ≤ 70) || (97 ≤ c.toNat && c.toNat ≤ 102)

/-- The value of a digit in a base of at most sixteen, if `c` is one. -/
def digitValue? (base : Nat) (c : Char) : Option Nat :=
  let value :=
    if isAsciiDigit c then some (c.toNat - 48)
    else if 97 ≤ c.toNat && c.toNat ≤ 102 then some (c.toNat - 87)
    else if 65 ≤ c.toNat && c.toNat ≤ 70 then some (c.toNat - 55)
    else none
  value.filter (· < base)

end SvelteStories
