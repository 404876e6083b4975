/-
Opening tags:

* `readAttribute`: a named attribute, a spread or a directive;
* `readAttributes`: all of them, and whether the tag closes itself.

Values in braces are given to an `ExpressionReader` together with their offset.
-/
import SvelteStories.Markup.Node
import SvelteStories.Markup.Place

namespace SvelteStories.Markup

open Script

/-- Reads the expression that a text at an offset starts with. -/
abbrev ExpressionReader := Nat → List Char → Except SyntaxFault Expr

/-- What a name in front of a colon says about an attribute. -/
def directiveKinds : List (List Char) :=
  ["on", "bind", "class", "style", "use", "transition", "in", "out", "animate", "let"].map
    String.toList

/-- The kind and the name of a directive, if a name is one of a directive. -/
def directiveOf? (name : List Char) : Option (List Char × List Char) :=
  let kind := name.takeWhile (· != ':')
  match name.drop kind.length with
  | ':' :: rest => if directiveKinds.contains kind then some (kind, rest) else none
  | _ => none

/-- A character that an attribute's name may hold. -/
def isAttributeNamePart (c : Char) : Bool :=
  !isAsciiBlank c && !(['=', '>', '/', '"', '\'', '{'].contains c)

/-- The value in braces whose code stands at an offset, without the blanks around it. -/
def expressionValue (read : ExpressionReader) (offset : Nat) (code : List Char) :
    Except ReadFault AttributeValue :=
  let span := trimmedSpan code ⟨offset, offset + byteLength code⟩
  match read span.start (trim code) with
  | .ok value => .ok (.expression span value)
  | .error f => .error (.script f)

/-- The text part that a run of characters makes, if there are any. -/
def textPart (offset : Nat) (t : List Char) : List ValuePart :=
  if t.isEmpty then [] else [.text ⟨offset, offset + byteLength t⟩ t]

/-- The parts of a quoted value up to its closing quote, with the code of each part in braces.
`opening` is the place of the opening quote. -/
def quotedParts (quote : Char) (opening : Place) : (fuel : Nat) → Place →
    Except ReadFault (List (ValuePart × List Char) × Place)
  | 0, p => p.fail .tooDeep
  | fuel + 1, p => do
    let run := p.run fun c => c != quote && c != '{'
    let texts := (textPart p.offset run).map fun part => (part, run)
    let q := p.after run
    match q.rest with
    | [] => opening.fail .openValue
    | c :: _ =>
      if c = quote then return (texts, q.after [c])
      let (code, behind) ← braced q
      let span : Span := ⟨q.offset + 1, q.offset + 1 + byteLength code⟩
      let (parts, stop) ← quotedParts quote opening fuel behind
      return (texts ++ (.expression span, code) :: parts, stop)

/-- The value that the parts of a quoted value make. `offset` is the place behind the opening
quote. -/
def quotedValue (read : ExpressionReader) (offset : Nat) :
    List (ValuePart × List Char) → Except ReadFault AttributeValue
  | [] => .ok (.text ⟨offset, offset⟩ [])
  | [(.text span data, _)] => .ok (.text span data)
  | [(.expression span, code)] => expressionValue read span.start code
  | parts => .ok (.sequence (parts.map Prod.fst))

/-- The value behind an equals sign. A value without quotes gives up a final slash that closes the
tag. -/
def readValue (read : ExpressionReader) (p : Place) :
    Except ReadFault (AttributeValue × Place) := do
  match p.rest with
  | '{' :: _ =>
    let (code, q) ← braced p
    return (← expressionValue read (p.offset + 1) code, q)
  | c :: _ =>
    if c = '"' || c = '\'' then
      let inside := p.after [c]
      let (parts, q) ← quotedParts c p (inside.rest.length + 1) inside
      return (← quotedValue read inside.offset parts, q)
    let run := p.run fun d => !isAsciiBlank d && d != '>'
    let data := if (p.after run).rest.head? = some '>' && run.getLast? = some '/' then run.dropLast
      else run
    let q := p.after data
    return (.text (p.spanTo q) data, q)
  | [] => return (.text (p.spanTo p) [], p)

/-- The code of a directive's value, which stands in braces that may stand in quotes. -/
def readDirectiveValue (p : Place) : Except ReadFault (Span × Place) := do
  let quote := p.rest.head?.filter fun c => c = '"' || c = '\''
  let opening := match quote with
    | some c => p.after [c]
    | none => p
  if opening.rest.head? != some '{' then opening.fail .directiveValue
  let (code, q) ← braced opening
  let span : Span := ⟨opening.offset + 1, opening.offset + 1 + byteLength code⟩
  match quote with
  | none => return (span, q)
  | some c => if q.rest.head? = some c then return (span, q.after [c]) else opening.fail .openValue

/-- An attribute in braces: a spread, or an expression that gives its own name. -/
def readBracedAttribute (read : ExpressionReader) (p : Place) :
    Except ReadFault (AttributeNode × Place) := do
  let (code, q) ← braced p
  let inside := trimmedSpan code ⟨p.offset + 1, p.offset + 1 + byteLength code⟩
  match trim code with
  | '.' :: '.' :: '.' :: _ => return (.spread (p.spanTo q) ⟨inside.start + 3, inside.stop⟩, q)
  | name =>
    let value ← expressionValue read (p.offset + 1) code
    return (.plain ⟨p.spanTo q, name, value⟩, q)

/-- Behind the equals sign that a value follows, if there is one. -/
def valuePlace? (p : Place) : Option Place :=
  let q := p.skipBlanks
  if q.rest.head? = some '=' then some (q.after ['=']).skipBlanks else none

/-- Something in an opening tag. -/
def readAttribute (read : ExpressionReader) (p : Place) :
    Except ReadFault (AttributeNode × Place) := do
  if p.rest.head? = some '{' then return ← readBracedAttribute read p
  let name := p.run isAttributeNamePart
  if name.isEmpty then p.fail .attributeExpected
  let q := p.after name
  match directiveOf? name, valuePlace? q with
  | some (kind, name), some v =>
    let (code, q) ← readDirectiveValue v
    return (.directive (p.spanTo q) kind name (some code), q)
  | some (kind, name), none => return (.directive (p.spanTo q) kind name none, q)
  | none, some v =>
    let (value, q) ← readValue read v
    return (.plain ⟨p.spanTo q, name, value⟩, q)
  | none, none => return (.plain ⟨p.spanTo q, name, .none⟩, q)

/-- What stands in an opening tag up to its end, and whether the tag closes itself. `opening` is the
place of the tag, and `name` the element's name. -/
def readAttributes (read : ExpressionReader) (opening : Place) (name : List Char) :
    (fuel : Nat) → Place → Except ReadFault ((List AttributeNode × Bool) × Place)
  | 0, p => p.fail .tooDeep
  | fuel + 1, p => do
    let p := p.skipBlanks
    match p.rest with
    | '/' :: '>' :: _ => return (([], true), p.after ['/', '>'])
    | '>' :: _ => return (([], false), p.after ['>'])
    | [] => opening.fail (.openOpeningTag (String.ofList name))
    | _ =>
      let (a, p) ← readAttribute read p
      let ((rest, selfClosing), p) ← readAttributes read opening name fuel p
      return ((a :: rest, selfClosing), p)

end SvelteStories.Markup
