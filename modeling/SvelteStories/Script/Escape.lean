/-
Escapes in strings, template literals and names:

* `charOf?`: the character of a code;
* `unicodeEscape`: a code behind `\u`;
* `Escape`, `readEscape`: an escape behind its backslash.
-/
import SvelteStories.Script.Gap
import SvelteStories.Text.Decimal

namespace SvelteStories.Script

/-- The character of a code, unless it is half of a surrogate pair. -/
def charOf? (n : Nat) : Option Char :=
  if n < 0xD800 || (0xDFFF < n && n < 0x110000) then some (Char.ofNat n) else none

/-- Four hexadecimal digits. -/
def fourHex? : List Char → Option (Nat × List Char)
  | a :: b :: c :: d :: rest =>
    if [a, b, c, d].all isHexDigit then some (digitsValue 16 [a, b, c, d], rest) else none
  | _ => none

/-- What is wrong with an escape, and the text from there on. -/
structure EscapeFault where
  /-- What is wrong. -/
  cause : SyntaxCause
  /-- The text from there on. -/
  rest : List Char

/-- The code of a `\u` escape, from behind the `u`. -/
def unicodeEscape (t : List Char) : Except EscapeFault (Nat × List Char) :=
  match t with
  | '{' :: inside =>
    let digits := inside.takeWhile isHexDigit
    let rest := inside.drop digits.length
    if digits.isEmpty then .error ⟨.badEscape "1-6 hex characters", rest⟩
    else if 0x10FFFF < digitsValue 16 digits then
      .error ⟨.badEscape "1-6 hex characters in the range 0 to 10FFFF.", rest⟩
    else
      match rest with
      | '}' :: rest => .ok (digitsValue 16 digits, rest)
      | _ => .error ⟨.openCode, inside⟩
  | _ =>
    match fourHex? t with
    | some found => .ok found
    | none => .error ⟨.badEscape "4 hex characters", t.drop (t.takeWhile isHexDigit).length⟩

/-- The second half of a surrogate pair, if one is escaped here by four digits. -/
def lowSurrogate? : List Char → Option (Nat × List Char)
  | '\\' :: 'u' :: rest => (fourHex? rest).filter fun (n, _) => 0xDC00 ≤ n && n ≤ 0xDFFF
  | _ => none

/-- What an escape stands for. -/
structure Escape where
  /-- The characters it stands for. -/
  value : List Char
  /-- The text behind it. -/
  rest : List Char
  /-- Whether it is an octal escape of the old form. -/
  isLegacy : Bool

/-- The escape behind a backslash. Two halves of a surrogate pair that are each written with four
digits stand for one character, and a half on its own stands for its own text. -/
def readEscape (t : List Char) : Except EscapeFault Escape :=
  let plain (c : Char) (rest : List Char) : Except EscapeFault Escape := .ok ⟨[c], rest, false⟩
  match t with
  | [] => .error ⟨.openEscape, []⟩
  | 'n' :: rest => plain '\n' rest
  | 'r' :: rest => plain '\r' rest
  | 't' :: rest => plain '\t' rest
  | 'b' :: rest => plain '\x08' rest
  | 'v' :: rest => plain '\x0b' rest
  | 'f' :: rest => plain '\x0c' rest
  | '\r' :: '\n' :: rest => .ok ⟨[], rest, false⟩
  | 'x' :: rest =>
    match rest with
    | a :: b :: behind =>
      if isHexDigit a && isHexDigit b then plain (Char.ofNat (digitsValue 16 [a, b])) behind
      else .error ⟨.badEscape "2 hex characters", rest⟩
    | _ => .error ⟨.badEscape "2 hex characters", rest⟩
  | 'u' :: rest => do
    let (n, behind) ← unicodeEscape rest
    match charOf? n with
    | some c => plain c behind
    | none =>
      match (lowSurrogate? behind).filter fun _ => n < 0xDC00 && rest.head? != some '{' with
      | some (low, behind) =>
        plain (Char.ofNat (0x10000 + (n - 0xD800) * 0x400 + (low - 0xDC00))) behind
      | none => .ok ⟨'\\' :: t.take (t.length - behind.length), behind, false⟩
  | c :: rest =>
    if isLineBreak c then .ok ⟨[], rest, false⟩
    else if (digitValue? 8 c).isSome then
      let most := if c.toNat < 52 then 3 else 2
      let digits := (t.take most).takeWhile fun d => (digitValue? 8 d).isSome
      .ok ⟨[Char.ofNat (digitsValue 8 digits)], t.drop digits.length, !(digits = ['0'])⟩
    else plain c rest

end SvelteStories.Script
