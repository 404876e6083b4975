/-
String literals as generated code writes them: double quotes, a backslash before quotes and
backslashes, short escapes for the common control characters and `\u00xx` for the others.

* `escape`: one character as it stands inside the quotes;
* `quote`: a whole text as a literal.
-/
import SvelteStories.Text.CharClass

namespace SvelteStories

/-- The hexadecimal digit of a value below sixteen, in lower case. -/
def hexDigit (n : Nat) : Char :=
  if n < 10 then Char.ofNat (48 + n) else Char.ofNat (87 + n)

/-- A character as it stands inside a double-quoted literal. -/
def escape (c : Char) : List Char :=
  if c = '"' then ['\\', '"']
  else if c = '\\' then ['\\', '\\']
  else if c = '\n' then ['\\', 'n']
  else if c = '\r' then ['\\', 'r']
  else if c = '\t' then ['\\', 't']
  else if c = '\x08' then ['\\', 'b']
  else if c = '\x0c' then ['\\', 'f']
  else if c.toNat < 0x20 then
    ['\\', 'u', '0', '0', hexDigit (c.toNat / 16), hexDigit (c.toNat % 16)]
  else [c]

/-- A text as a double-quoted literal. -/
def quote (t : List Char) : List Char :=
  '"' :: t.flatMap escape ++ ['"']

end SvelteStories
