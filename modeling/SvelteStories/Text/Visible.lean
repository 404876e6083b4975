/-
Characters as messages show them between apostrophes:

* `isVisible`: whether a character leaves a mark of its own;
* `hexText`: a number in lower-case hexadecimal digits;
* `visibleChar`: the character itself, or an escape for one that cannot be seen.
-/
import SvelteStories.Text.CharClass

namespace SvelteStories

/-- The characters beyond ASCII that leave no mark of their own: controls, formats, blanks,
combining marks, private and unassigned ones. -/
def invisibleRanges : List (Nat × Nat) :=
  [(0x80, 0xA0), (0xAD, 0xAD), (0x300, 0x36F), (0x483, 0x489), (0x591, 0x5BD), (0x600, 0x605),
   (0x61C, 0x61C), (0x64B, 0x65F), (0x6DD, 0x6DD), (0x70F, 0x70F), (0x890, 0x891),
   (0x8E2, 0x8E2), (0x1680, 0x1680), (0x180B, 0x180F), (0x1AB0, 0x1ACE), (0x1DC0, 0x1DFF),
   (0x2000, 0x200F), (0x2028, 0x202F), (0x205F, 0x206F), (0x20D0, 0x20F0), (0x3000, 0x3000),
   (0x302A, 0x302F), (0x3099, 0x309A), (0xD800, 0xF8FF), (0xFE00, 0xFE0F), (0xFE20, 0xFE2F),
   (0xFEFF, 0xFEFF), (0xFFF0, 0xFFFB), (0xFFFE, 0xFFFF), (0x110BD, 0x110BD),
   (0x13430, 0x1345F), (0x1BCA0, 0x1BCA3), (0x1D173, 0x1D182), (0xE0000, 0x10FFFF)]

/-- Whether a character leaves a mark of its own. -/
def isVisible (c : Char) : Bool :=
  if c.toNat < 0x80 then 0x20 ≤ c.toNat && c.toNat < 0x7F
  else !inRanges invisibleRanges c.toNat

/-- A number in hexadecimal digits. -/
def hexText (n : Nat) : String :=
  String.ofList (Nat.toDigits 16 n)

/-- A character as it is shown between apostrophes. -/
def visibleChar (c : Char) : String :=
  if c = '\n' then "\\n"
  else if c = '\r' then "\\r"
  else if c = '\t' then "\\t"
  else if c = '\\' then "\\\\"
  else if c = '\'' then "\\'"
  else if c.toNat = 0 then "\\0"
  else if isVisible c then String.ofList [c]
  else "\\u\x7b" ++ hexText c.toNat ++ "\x7d"

end SvelteStories
