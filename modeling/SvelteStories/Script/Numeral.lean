/-
Numbers of scripts:

* `Strictness`: which old forms are faults;
* `Scanned`: a token that has been read, and what is left of the text;
* `DigitRun`, `digitRun`: digits with separators between them;
* `readNumber`: a number, from its first character on.
-/
import SvelteStories.Script.Token
import SvelteStories.Text.Decimal

namespace SvelteStories.Script

/-- What a script says about old forms. -/
structure Strictness where
  /-- Whether types may be written, which rules out old octal numbers. -/
  isTyped : Bool
  /-- Whether the code is strict, which rules out all old forms. -/
  isStrict : Bool
deriving DecidableEq, Repr

/-- A fault that only counts in strict code. -/
def Strictness.strictFault (s : Strictness) (f : SyntaxFault) : List SyntaxFault :=
  if s.isStrict then [f] else []

/-- A token that has been read. Places count from its first character. -/
structure Scanned where
  /-- The token. -/
  token : Token
  /-- The text behind it. -/
  rest : List Char
  /-- What is wrong in it, and does not keep it from being a token. -/
  faults : List SyntaxFault

/-- Text that is no token. -/
def Scanned.failed (cause : SyntaxCause) (offset : Nat) (rest : List Char)
    (faults : List SyntaxFault) : Scanned :=
  ⟨.fault ⟨cause, offset⟩, rest, faults⟩

/-- The part of a text before what is left of it. -/
def upTo (t rest : List Char) : List Char :=
  t.take (t.length - rest.length)

/-! ### Digits -/

/-- Digits of a base. -/
structure DigitRun where
  /-- The digits without their separators. -/
  digits : List Char
  /-- Whether a separator is followed by no digit. -/
  isMisplaced : Bool
  /-- The text behind them. -/
  rest : List Char

/-- The digits that a text starts with, separators included. -/
def digitRun (base : Nat) : List Char → DigitRun
  | [] => ⟨[], false, []⟩
  | c :: t =>
    if c = '_' then
      let run := digitRun base t
      { run with isMisplaced := run.isMisplaced
          || !(t.head?.any fun d => (digitValue? base d).isSome) }
    else if (digitValue? base c).isSome then
      let run := digitRun base t
      { run with digits := c :: run.digits }
    else ⟨[], false, c :: t⟩

/-- The fault of a run of digits that starts at an offset. -/
def DigitRun.faults (run : DigitRun) (offset : Nat) : List SyntaxFault :=
  if run.isMisplaced then [⟨.misplacedSeparator, offset⟩] else []

/-! ### Numbers -/

/-- A number in front of what is left of a text. No name may follow it directly. -/
def endNumber (t : List Char) (value : Binary64) (rest : List Char)
    (faults : List SyntaxFault) : Scanned :=
  let raw := upTo t rest
  if rest.head?.any isIdentifierStart then .failed .nameAfterNumber (byteLength raw) rest faults
  else ⟨.number (String.ofList value.text) (String.ofList raw), rest, faults⟩

/-- A whole number of any size, behind the letter that marks it. -/
def endBigint (t : List Char) (value : Nat) (rest : List Char) (faults : List SyntaxFault) :
    Scanned :=
  ⟨.bigint (toString value) (String.ofList (upTo t rest)), rest, faults⟩

/-- A number of another base than ten, from its leading zero on. -/
def readRadix (base : Nat) (kind : String) (t : List Char) : Scanned :=
  let run := digitRun base (t.drop 2)
  let value := digitsValue base run.digits
  if run.digits.isEmpty then .failed (.digitExpected kind) 2 run.rest (run.faults 2)
  else
    match run.rest with
    | 'n' :: rest => endBigint t value rest (run.faults 2)
    | rest => endNumber t (.nearest value 1) rest (run.faults 2)

/-- The exponent of a decimal number, if there is one, and the end of the number. -/
def readExponent (t whole fraction rest : List Char) (faults : List SyntaxFault) : Scanned :=
  let finish (negative : Bool) (digits : List Char) : Scanned :=
    let run := digitRun 10 digits
    let offset := byteLength (upTo t digits)
    let n : Int := digitsValue 10 run.digits
    if run.digits.isEmpty then
      .failed (.digitExpected "a decimal") offset run.rest (faults ++ run.faults offset)
    else
      endNumber t (decimalValue whole fraction (if negative then -n else n)) run.rest
        (faults ++ run.faults offset)
  match rest with
  | e :: behind =>
    if e = 'e' || e = 'E' then
      match behind with
      | [] => .failed .exponentExpected (byteLength t) [] faults
      | '+' :: digits => finish false digits
      | '-' :: digits => finish true digits
      | digits => finish false digits
    else endNumber t (decimalValue whole fraction 0) rest faults
  | [] => endNumber t (decimalValue whole fraction 0) rest faults

/-- The fraction of a decimal number, if there is one, and what follows. -/
def readFraction (t whole rest : List Char) (faults : List SyntaxFault) : Scanned :=
  match rest with
  | '.' :: digits =>
    let run := digitRun 10 digits
    readExponent t whole run.digits run.rest
      (faults ++ run.faults (byteLength (upTo t digits)))
  | _ => readExponent t whole [] rest faults

/-- A number of base ten, or one with a leading zero. -/
def readDecimal (s : Strictness) (t : List Char) : Scanned :=
  let run := digitRun 10 t
  let raw := upTo t run.rest
  let faults := run.faults 0
  if raw.head? = some '0' && 1 < raw.length then
    if run.digits.all fun c => (digitValue? 8 c).isSome then
      let number := endNumber t (.nearest (digitsValue 8 run.digits) 1) run.rest faults
      if number.token.isFault then number
      else
        { number with faults := number.faults
            ++ (if s.isTyped then [⟨.octalNumber, 0⟩] else [])
            ++ s.strictFault ⟨.legacyOctal, 0⟩ }
    else readFraction t run.digits run.rest (faults ++ s.strictFault ⟨.legacyDecimal, 0⟩)
  else
    match run.rest with
    | 'n' :: rest =>
      if run.digits.isEmpty then readFraction t run.digits run.rest faults
      else endBigint t (digitsValue 10 run.digits) rest faults
    | rest => readFraction t run.digits rest faults

/-- A number. -/
def readNumber (s : Strictness) (t : List Char) : Scanned :=
  match t with
  | '0' :: c :: _ =>
    if c = 'x' || c = 'X' then readRadix 16 "a hexadecimal" t
    else if c = 'o' || c = 'O' then readRadix 8 "an octal" t
    else if c = 'b' || c = 'B' then readRadix 2 "a binary" t
    else readDecimal s t
  | _ => readDecimal s t

end SvelteStories.Script
