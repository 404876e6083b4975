/-
Templates:

* `beginning`: what begins at a place, told by its first characters;
* `Enclosure.close`: whether an ending closes what encloses it, and the fault if it does not;
* `readNodes`: the parts of a template up to the ending of what encloses them;
* `readTemplate`: the parts of a whole text.

Each part takes at least one character, so that reading a text never needs more fuel than its length
and one.
-/
import SvelteStories.Markup.Attributes

namespace SvelteStories.Markup

/-! ### What begins at a place -/

/-- What encloses parts of a template. -/
inductive Enclosure
  /-- The whole text. -/
  | document
  /-- An element of a name. -/
  | element (name : List Char)
  /-- A branch of a block. -/
  | block
deriving DecidableEq, Repr

/-- What ends a run of parts. -/
inductive Ending
  /-- The end of the text. -/
  | text
  /-- A closing tag. -/
  | tag
  /-- A clause that goes on with a block or closes it. -/
  | clause
deriving DecidableEq, Repr

/-- The forms of parts. -/
inductive NodeForm
  /-- A comment. -/
  | comment
  /-- An element. -/
  | element
  /-- A block. -/
  | block
  /-- A tag in braces. -/
  | tag
  /-- Code in braces. -/
  | expression
  /-- Plain text. -/
  | text
deriving DecidableEq, Repr

/-- What begins at a place. -/
inductive Beginning
  /-- Nothing: a run of parts ends here. -/
  | ending (ending : Ending)
  /-- A part. -/
  | node (form : NodeForm)
deriving DecidableEq, Repr

/-- What a text begins with. -/
def beginning : List Char → Beginning
  | [] => .ending .text
  | '<' :: '!' :: '-' :: '-' :: _ => .node .comment
  | '<' :: '/' :: _ => .ending .tag
  | '<' :: c :: _ => .node (if isAsciiLetter c then .element else .text)
  | '{' :: ':' :: _ | '{' :: '/' :: _ => .ending .clause
  | '{' :: '#' :: _ => .node .block
  | '{' :: '@' :: _ => .node .tag
  | '{' :: _ => .node .expression
  | _ => .node .text

/-- Reads parts up to the ending of what encloses them, and gives the place of the ending. -/
abbrev NodeReader := Enclosure → Place → Except ReadFault (List Node × Place)

/-! ### Tags -/

/-- A character that an element's name may hold. -/
def isElementNamePart (c : Char) : Bool :=
  isAsciiAlphanumeric c || ['-', ':', '.', '_', '$'].contains c

/-- Elements without content. -/
def voidElements : List (List Char) :=
  ["area", "base", "br", "col", "embed", "hr", "img", "input", "keygen", "link", "meta", "param",
    "source", "track", "wbr"].map String.toList

/-- Elements whose content is text up to the closing tag. -/
def rawTextElements : List (List Char) :=
  ["script", "style", "textarea"].map String.toList

/-- The name in the closing tag that a text starts with. -/
def closingName (t : List Char) : List Char :=
  (t.drop 2).takeWhile fun c => !isAsciiBlank c && c != '>'

/-- Whether an ending closes what encloses it. -/
def Enclosure.close (enclosure : Enclosure) (ending : Ending) (p : Place) :
    Except ReadFault Unit :=
  match enclosure, ending with
  | .document, .text | .element _, .tag | .block, .clause => .ok ()
  | .element name, .text => p.fail (.openElement (String.ofList name))
  | .block, .text => p.fail .openBlock
  | _, .tag => p.fail (.strayClosingTag (String.ofList (closingName p.rest)))
  | _, .clause => p.fail .strayClause

/-- Behind the closing tag of an element, which stands at a place. -/
def readClosingTag (name : List Char) (p : Place) : Except ReadFault Place :=
  let found := closingName p.rest
  if found = name then
    let q := (p.after ('<' :: '/' :: name)).skipBlanks
    if q.rest.head? = some '>' then .ok (q.after ['>'])
    else p.fail (.openClosingTag (String.ofList name))
  else p.fail (.otherClosingTag (String.ofList name) (String.ofList found))

/-- What an element holds, up to its closing tag, and the place behind that tag. `opening` is the
place of the opening tag and `inside` the one behind it. -/
def readContent (children : NodeReader) (name : List Char) (selfClosing : Bool)
    (opening inside : Place) : Except ReadFault (Fragment × Place) :=
  let lower := name.map Char.toLower
  if selfClosing || voidElements.contains lower then .ok (⟨inside.spanTo inside, []⟩, inside)
  else if rawTextElements.contains lower then
    match splitAtFirst ('<' :: '/' :: name) inside.rest with
    | none => opening.fail (.openElement (String.ofList name))
    | some (data, _) => do
      let stop := inside.after data
      let q ← readClosingTag name stop
      return (⟨inside.spanTo stop, [.text (inside.spanTo stop) data]⟩, q)
  else do
    let (nodes, stop) ← children (.element name) inside
    let q ← readClosingTag name stop
    return (⟨inside.spanTo stop, nodes⟩, q)

/-- An element. -/
def readElement (read : ExpressionReader) (children : NodeReader) (p : Place) :
    Except ReadFault (Node × Place) := do
  let name := (p.after ['<']).run isElementNamePart
  let ((attributes, selfClosing), inside) ←
    readAttributes read p name (p.rest.length + 1) (p.after ('<' :: name))
  let (fragment, q) ← readContent children name selfClosing p inside
  return (.element ⟨p.spanTo q, .ofName name, name, attributes, fragment, selfClosing⟩, q)

/-! ### Blocks -/

/-- What stands in the braces of a block's opening clause or of a tag. -/
structure Header where
  /-- The word behind the sign. -/
  word : List Char
  /-- The code behind the word, without the blanks around it. -/
  code : List Char
  /-- The place of the code. -/
  span : Span
deriving DecidableEq, Repr

/-- The header in a text between braces that stands at an offset and starts with a sign. -/
def Header.ofCode (offset : Nat) (t : List Char) : Header :=
  let word := (t.drop 1).takeWhile isAsciiLetter
  let code := t.drop (1 + word.length)
  let start := offset + byteLength (t.take (1 + word.length))
  ⟨word, trim code, trimmedSpan code ⟨start, start + byteLength code⟩⟩

/-- Blocks that have branches. -/
def branchingBlocks : List (List Char) :=
  ["if", "each", "await", "key"].map String.toList

/-- The branches of a block up to its closing clause, and the place behind it. -/
def readBranches (children : NodeReader) (kind : List Char) :
    (fuel : Nat) → Place → Except ReadFault (List Fragment × Place)
  | 0, p => p.fail .tooDeep
  | fuel + 1, p => do
    let (nodes, clause) ← children .block p
    let branch : Fragment := ⟨p.spanTo clause, nodes⟩
    let (code, q) ← braced clause
    match code with
    | '/' :: word =>
      if trim word = kind then return ([branch], q)
      else clause.fail (.otherClosingClause (String.ofList kind) (String.ofList (trim word)))
    | _ =>
      let (branches, stop) ← readBranches children kind fuel q
      return (branch :: branches, stop)

/-- The place of the parameters in a snippet's header: between the first opening parenthesis and the
last closing one. -/
def parameterSpan (header : Header) : Span :=
  let before := header.code.takeWhile (· != '(')
  let behind := header.code.reverse.takeWhile (· != ')')
  let opening := header.span.start + byteLength before
  let closing :=
    header.span.start + byteLength (header.code.take (header.code.length - behind.length - 1))
  if header.code.contains '(' && header.code.contains ')' && opening < closing then
    ⟨opening + 1, closing⟩
  else ⟨header.span.stop, header.span.stop⟩

/-- A snippet. `inside` is the place behind its opening clause, which stands at `p`. -/
def readSnippet (children : NodeReader) (header : Header) (p inside : Place) :
    Except ReadFault (Node × Place) := do
  let name := header.code.takeWhile fun c => isAsciiAlphanumeric c || c = '_' || c = '$'
  if name.isEmpty then .error (.markup .unnamedSnippet header.span.start)
  let (nodes, clause) ← children .block inside
  if !clause.startsWith ['{', '/'] then clause.fail .snippetClause
  let (code, q) ← braced clause
  let found := trim (code.drop 1)
  if found != "snippet".toList then
    clause.fail (.otherClosingClause "snippet" (String.ofList found))
  return (.snippet ⟨p.spanTo q, name, parameterSpan header, ⟨inside.spanTo clause, nodes⟩⟩, q)

/-- A block of any kind. -/
def readBlock (children : NodeReader) (p : Place) :
    Except ReadFault (Node × Place) := do
  let (code, inside) ← braced p
  let header := Header.ofCode (p.offset + 1) code
  if header.word = "snippet".toList then readSnippet children header p inside
  else if branchingBlocks.contains header.word then
    let (branches, q) ← readBranches children header.word (inside.rest.length + 1) inside
    return (.block ⟨p.spanTo q, header.word, header.span, branches⟩, q)
  else p.fail (.unknownBlock (String.ofList header.word))

/-! ### Other parts -/

/-- A comment. -/
def readComment (p : Place) : Except ReadFault (Node × Place) :=
  let inside := p.after "<!--".toList
  match splitAtFirst "-->".toList inside.rest with
  | some (data, _) =>
    let q := inside.after (data ++ "-->".toList)
    .ok (.comment (p.spanTo q) data, q)
  | none => p.fail .openComment

/-- A tag in braces. -/
def readTag (p : Place) : Except ReadFault (Node × Place) := do
  let (code, q) ← braced p
  let header := Header.ofCode (p.offset + 1) code
  return (.tag (p.spanTo q) header.word header.span, q)

/-- Code in braces. -/
def readExpressionTag (p : Place) : Except ReadFault (Node × Place) := do
  let (code, q) ← braced p
  return (.expression (p.spanTo q) ⟨p.offset + 1, p.offset + 1 + byteLength code⟩, q)

/-- The text up to the next brace or tag. -/
def textRun : List Char → List Char
  | [] => []
  | '{' :: _ => []
  | '<' :: c :: t =>
    if isAsciiLetter c || c = '/' || c = '!' then [] else '<' :: textRun (c :: t)
  | c :: t => c :: textRun t

/-- Plain text, of at least one character. -/
def readText (p : Place) : Node × Place :=
  let data := p.rest.take 1 ++ textRun (p.rest.drop 1)
  let q := p.after data
  (.text (p.spanTo q) data, q)

/-- A part of a form that has begun. -/
def readNode (read : ExpressionReader) (children : NodeReader) (form : NodeForm)
    (p : Place) : Except ReadFault (Node × Place) :=
  match form with
  | .comment => readComment p
  | .element => readElement read children p
  | .block => readBlock children p
  | .tag => readTag p
  | .expression => readExpressionTag p
  | .text => .ok (readText p)

/-- The parts up to the ending of what encloses them. -/
def readNodes (read : ExpressionReader) : (fuel : Nat) → NodeReader
  | 0, _, p => p.fail .tooDeep
  | fuel + 1, enclosure, p =>
    match beginning p.rest with
    | .ending ending => do
      enclosure.close ending p
      return ([], p)
    | .node form => do
      let (node, q) ← readNode read (readNodes read fuel) form p
      let (nodes, stop) ← readNodes read fuel enclosure q
      return (node :: nodes, stop)

/-- The parts of a whole text. -/
def readTemplate (read : ExpressionReader) (t : List Char) : Except ReadFault (List Node) :=
  (readNodes read (t.length + 1) .document (Place.start t)).map Prod.fst

end SvelteStories.Markup
