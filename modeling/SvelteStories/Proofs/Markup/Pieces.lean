/-
Templates that are put together from pieces:

* `Piece`: a text, and the parts that are to be read from it wherever it stands;
* `Piece.ReadBefore`: these parts are read indeed, whatever encloses them, and the reader goes on
  behind them. `Piece.Readable` says so of a piece that something follows which ends text,
  `Piece.Closed` of one that anything may follow and that ends text itself;
* `Standing`, `OpeningTag`, `Clause`, `BlockClauses`, `SnippetClauses`: markup that is read on its
  own, and tags and clauses that may enclose markup. Each of them carries why it is read;
* `closed_codeTag`, `OpeningTag.closed_around`, `BlockClauses.closed_around`,
  `SnippetClauses.closed_around`: code in braces is closed, and so is a readable piece once it is
  enclosed.
-/
import SvelteStories.Proofs.Markup.ReadBack
import SvelteStories.Proofs.Markup.Relocation

namespace SvelteStories.Markup

open Place

/-! ### Pieces -/

/-- A text, and the outlines of the parts that are to be read from it. -/
structure Piece where
  /-- The text. -/
  text : List Char
  /-- The outlines of the parts, for each offset at which the text may stand. -/
  parts : Nat → List Node

namespace Piece

/-- A piece behind another one. -/
def append (x y : Piece) : Piece :=
  ⟨x.text ++ y.text, fun offset => x.parts offset ++ y.parts (offset + byteLength x.text)⟩

/-- Wherever a piece stands before a text of a form, its parts are read, whatever encloses them, and
the reader goes on behind them. -/
def ReadBefore (read : ExpressionReader) (form : List Char → Prop) (x : Piece) : Prop :=
  ∀ ⦃p q fuel⦄, p.Reads x.text q → form q.rest → p.rest.length < fuel →
    ∃ nodes rest, outlines id nodes = x.parts p.offset ∧ q.rest.length < rest
      ∧ ∀ enclosure others r, readNodes read rest enclosure q = .ok (others, r) →
        readNodes read fuel enclosure p = .ok (nodes ++ others, r)

/-- A piece is read where something follows that ends text. -/
def Readable (read : ExpressionReader) (x : Piece) : Prop :=
  x.ReadBefore read fun r => textRun r = []

/-- A piece is read whatever follows, and it ends text. -/
structure Closed (read : ExpressionReader) (x : Piece) : Prop where
  /-- It is read before anything. -/
  reads : x.ReadBefore read fun _ => True
  /-- Text before it ends. -/
  endsText : ∀ r, textRun (x.text ++ r) = []

section

variable {read : ExpressionReader} {x y : Piece} {p q : Place}

lemma ReadBefore.append {form form' : List Char → Prop} (hx : x.ReadBefore read form)
    (hy : y.ReadBefore read form') (h : ∀ r, form' r → form (y.text ++ r)) :
    (x.append y).ReadBefore read form' := by
  intro p q fuel hreads hq hfuel
  obtain ⟨m, hm, hbehind⟩ := reads_append_iff.mp hreads
  obtain ⟨nodes, fuel₁, hnodes, hfuel₁, hgoes⟩ := hx hm (hbehind.1 ▸ h _ hq) hfuel
  obtain ⟨others, fuel₂, hothers, hfuel₂, hgoes'⟩ := hy hbehind hq hfuel₁
  refine ⟨nodes ++ others, fuel₂, ?_, hfuel₂, fun enclosure rest r hrest => ?_⟩
  · rw [outlines_append, hnodes, hothers, hm.2]
    rfl
  · rw [List.append_assoc]
    exact hgoes _ _ _ (hgoes' _ _ _ hrest)

/-- A readable piece is read up to the ending of what encloses it. -/
lemma Readable.readNodes (enclosure : Enclosure) {fuel : Nat} (hx : x.Readable read)
    (h : p.Reads x.text q) (hq : beginning q.rest = .ending enclosure.ending)
    (hfuel : p.rest.length < fuel) :
    ∃ nodes, Markup.readNodes read fuel enclosure p = .ok (nodes, q)
      ∧ outlines id nodes = x.parts p.offset := by
  have hends : textRun q.rest = [] := textRun_eq_nil (by simp [hq])
  obtain ⟨nodes, rest, hnodes, hrest, hgoes⟩ := hx h hends hfuel
  obtain ⟨rest, rfl⟩ := Nat.exists_eq_add_one_of_ne_zero (Nat.ne_zero_of_lt hrest)
  refine ⟨nodes, ?_, hnodes⟩
  have hclose : enclosure.close enclosure.ending q = .ok () := by cases enclosure <;> rfl
  have hnothing : Markup.readNodes read (rest + 1) enclosure q = .ok ([], q) := by
    simp only [Markup.readNodes, hq, hclose, ok_bind]
    rfl
  simpa using hgoes enclosure [] q hnothing

/-- A readable piece is a template. -/
lemma Readable.readTemplate (hx : x.Readable read) :
    ∃ nodes, Markup.readTemplate read x.text = .ok nodes ∧ outlines id nodes = x.parts 0 := by
  have hreads : (start x.text).Reads x.text ⟨byteLength x.text, []⟩ :=
    ⟨by simp [start], by simp [start]⟩
  obtain ⟨nodes, hnodes, hparts⟩ := hx.readNodes .document hreads rfl
    (Nat.lt_succ_self x.text.length)
  exact ⟨nodes, by rw [Markup.readTemplate, hnodes]; rfl, hparts⟩

lemma Closed.readable (hx : x.Closed read) : x.Readable read :=
  fun _ _ _ h _ hfuel => hx.reads h trivial hfuel

/-- A piece with one part is closed if that part is told by the beginning of its text and is read to
the end of it. -/
lemma closed_of_readNode {s : List Char} {n : Nat → Node} (form : NodeForm) (hform : form ≠ .text)
    (hbegins : ∀ r, beginning (s ++ r) = .node form)
    (hread : ∀ ⦃p q fuel⦄, p.Reads s q → p.rest.length ≤ fuel →
      ∃ node, readNode read (Markup.readNodes read fuel) form p = .ok (node, q)
        ∧ node.outline id = n p.offset) :
    Closed read ⟨s, fun offset => [n offset]⟩ := by
  refine ⟨fun p q fuel h _ hfuel => ?_, fun r => textRun_eq_nil ?_⟩
  · obtain ⟨fuel, rfl⟩ := Nat.exists_eq_add_one_of_ne_zero (Nat.ne_zero_of_lt hfuel)
    obtain ⟨node, hnode, houtline⟩ := hread h (Nat.le_of_lt_succ hfuel)
    have hbegins' := hbegins q.rest
    rw [← h.1] at hbegins'
    have hlength : q.rest.length < p.rest.length := by
      cases s with
      | nil => cases hbegins []
      | cons c s => exact h.length_lt
    refine ⟨[node], fuel, by rw [outlines, outlines, houtline], by omega,
      fun enclosure others r hothers => ?_⟩
    simp only [Markup.readNodes, hbegins', hnode, ok_bind, hothers]
    rfl
  · rw [hbegins]
    simpa using hform

end

end Piece

/-! ### Code in braces -/

/-- Code in braces. -/
def codeTag (code : List Char) : Piece :=
  ⟨inBraces code, fun offset => [.expression ⟨offset, offset + byteLength (inBraces code)⟩
    ⟨offset + 1, offset + 1 + byteLength code⟩]⟩

/-- Code in braces is an expression tag, unless a sign behind the brace says that it is something
else. -/
lemma closed_codeTag {read : ExpressionReader} {code : List Char} (hcode : Code code)
    (hsign : ∀ c ∈ ['#', ':', '@', '/'], code.head? ≠ some c) : (codeTag code).Closed read := by
  refine Piece.closed_of_readNode .expression (by decide) (fun r => ?_)
    fun p q fuel h _ => ?_
  · rw [inBraces, List.cons_append]
    refine beginning_of_brace fun c hc => ?_
    cases code with
    | nil =>
        rintro ⟨rfl⟩
        exact absurd hc (by decide)
    | cons d code => exact hsign c hc
  · rw [readNode, readExpressionTag, braced_eq_ok h hcode, ok_bind]
    exact ⟨_, rfl, by simp [Node.outline, spanTo, h.2]⟩

/-! ### Markup that is read on its own -/

/-- Markup that is read on its own. -/
structure Standing (read : ExpressionReader) where
  /-- The markup. -/
  text : List Char
  /-- Its parts. -/
  nodes : List Node
  /-- They are what is read. -/
  isRead : readTemplate read text = .ok nodes

/-- What is read from such markup elsewhere. -/
def Standing.piece {read : ExpressionReader} (s : Standing read) : Piece :=
  ⟨s.text, fun offset => outlines (· + offset) s.nodes⟩

section

variable {read : ExpressionReader} {x : Piece} {p q : Place}

/-- A text moves to where it is read again. -/
lemma copied_start {s : List Char} (h : p.Reads s q) :
    Copied (· + p.offset) (start s) ⟨byteLength s, []⟩ p q :=
  ⟨s, ⟨by simp [start], by simp [start]⟩, h, fun n _ => by simp only [start]; omega⟩

lemma eq_of_readNodes_nil {enclosure : Enclosure} {fuel : Nat}
    (h : readNodes read fuel enclosure p = .ok ([], q)) : p = q := by
  obtain ⟨_, -, ⟨_, -, -, -, rfl⟩ | ⟨_, _, _, _, -, -, -, hcons⟩⟩ := readNodes_eq_ok_iff.mp h
  · rfl
  · cases hcons

/-- Markup that is read on its own is read elsewhere, too, if something follows that ends text. -/
lemma Standing.readable (hread : read.PlaceFree) (s : Standing read) : s.piece.Readable read := by
  intro p q fuel h hq hfuel
  have hread' := s.isRead
  rw [readTemplate, map_eq_ok_iff] at hread'
  obtain ⟨⟨nodes, r⟩, hnodes, hsame⟩ := hread'
  obtain ⟨hreads, hend⟩ := sound_readNodes s.text read _ (.refl _) hnodes
  obtain rfl : r = ⟨byteLength s.text, []⟩ := by
    obtain ⟨u, hu⟩ := hreads.reaches
    have hrest : r.rest = [] := hend
    obtain rfl : s.text = u := by simpa [start, hrest] using hu.1
    have hoffset : r.offset = byteLength s.text := by simpa [start] using hu.2
    rw [← hoffset, ← hrest]
  rw [← List.append_nil nodes] at hnodes
  obtain ⟨stop, -, ⟨_, hstop⟩, hcopy⟩ := readNodes_append hread (.refl _) hnodes
  obtain rfl := eq_of_readNodes_nil hstop
  obtain ⟨nodes', rest, houtlines, hrest, hgoes⟩ :=
    hcopy (copied_start h) (.inr ⟨rfl, hq⟩) hfuel
  exact ⟨nodes', rest, houtlines.trans (congrArg (outlines (· + p.offset)) hsame), hrest, hgoes⟩

/-- A closed piece between markup that is read on its own. -/
def Piece.between (before : Standing read) (x : Piece) (behind : Standing read) : Piece :=
  before.piece.append (x.append behind.piece)

lemma Piece.Closed.between (hread : read.PlaceFree) (before : Standing read) (hx : x.Closed read)
    (behind : Standing read) : (Piece.between before x behind).Readable read := by
  refine (before.readable hread).append (hx.reads.append (behind.readable hread) fun _ _ => trivial)
    fun r _ => ?_
  rw [Piece.append, List.append_assoc]
  exact hx.endsText _

/-! ### Elements -/

/-- The opening tag of an element that may hold parts. -/
structure OpeningTag (read : ExpressionReader) where
  /-- The name of the element. -/
  name : List Char
  /-- The text behind the name. -/
  behind : List Char
  /-- What stands in the tag. -/
  attributes : List AttributeNode
  /-- The name is one of an element. -/
  isName : IsElementName name
  /-- An element of the name may hold something. -/
  notVoid : name.map Char.toLower ∉ voidElements
  /-- It may hold more than text. -/
  notRaw : name.map Char.toLower ∉ rawTextElements
  /-- The name ends where it does. -/
  ends : ∀ c, behind.head? = some c → isElementNamePart c = false
  /-- The tag is read to its end, and does not close itself. -/
  isRead : readAttributes read (start ('<' :: name ++ behind)) name
    (('<' :: name ++ behind).length + 1) ((start ('<' :: name ++ behind)).after ('<' :: name))
      = .ok ((attributes, false), ⟨byteLength ('<' :: name ++ behind), []⟩)

namespace OpeningTag

/-- The text of a tag. -/
def text (tag : OpeningTag read) : List Char :=
  '<' :: tag.name ++ tag.behind

/-- An element around a piece. -/
def around (tag : OpeningTag read) (x : Piece) : Piece :=
  let s := tag.text ++ (x.text ++ closingTag tag.name)
  ⟨s, fun offset =>
    let inside := offset + byteLength tag.text
    [.element ⟨⟨offset, offset + byteLength s⟩, .ofName tag.name, tag.name,
      tag.attributes.map (AttributeNode.outline (· + offset)),
      ⟨⟨inside, inside + byteLength x.text⟩, x.parts inside⟩, false⟩]⟩

lemma run_start (tag : OpeningTag read) :
    ((start tag.text).after ['<']).run isElementNamePart = tag.name := by
  have hreads : ((start tag.text).after ['<']).Reads tag.name
      (((start tag.text).after ['<']).after tag.name) :=
    reads_after (u := tag.behind) (by simp [start, after, text])
  refine hreads.run_eq tag.isName.forall fun c hc => tag.ends c ?_
  rw [← hc]
  simp [start, after, text]

/-- An element holds what is read between its tags. -/
lemma closed_around (hread : read.PlaceFree) (tag : OpeningTag read) (hx : x.Readable read) :
    (tag.around x).Closed read := by
  refine Piece.closed_of_readNode .element (by decide) (fun r => ?_)
    fun p q fuel h hfuel => ?_
  · obtain ⟨c, rest, hname, hletter, -⟩ := tag.isName
    simp only [text, hname, List.cons_append]
    exact beginning_of_letter hletter
  · obtain ⟨inside, htag, hbehind⟩ := reads_append_iff.mp h
    obtain ⟨stop, hcontent, hclosing⟩ := reads_append_iff.mp hbehind
    obtain ⟨hname, attributes, hattributes, hsame⟩ := openingTag_copied hread p rfl tag.run_start
      tag.isRead (copied_start htag) (Nat.lt_succ_self p.rest.length)
    have hending : beginning stop.rest = .ending (Enclosure.element tag.name).ending := by
      rw [hclosing.1]
      rfl
    have hlength : inside.rest.length < p.rest.length := htag.length_lt
    obtain ⟨nodes, hnodes, hparts⟩ := hx.readNodes (.element tag.name) hcontent hending
      (Nat.lt_of_lt_of_le hlength hfuel)
    have hfragment : readContent (readNodes read fuel) tag.name false p inside
        = .ok (⟨inside.spanTo stop, nodes⟩, q) := by
      simp only [readContent, hnodes, readClosingTag_markup hclosing tag.isName, ok_bind]
      simp [tag.notVoid, tag.notRaw, pure, Except.pure]
    simp only [readNode, readElement, hname, hattributes, hfragment, ok_bind]
    refine ⟨_, rfl, ?_⟩
    simp [Node.outline, Element.outline, Fragment.outline, spanTo, hsame, hparts, h.2, hcontent.2,
      htag.2]

lemma not_isElementNamePart_head {c : Char} (h : ['>'].head? = some c) :
    isElementNamePart c = false := by
  obtain rfl := Option.some.inj h
  decide

/-- Behind the name the end of a tag is read. -/
lemma readAttributes_end (read : ExpressionReader) (name : List Char) :
    readAttributes read (start ('<' :: name ++ ['>'])) name (('<' :: name ++ ['>']).length + 1)
        ((start ('<' :: name ++ ['>'])).after ('<' :: name))
      = .ok (([], false), ⟨byteLength ('<' :: name ++ ['>']), []⟩) := by
  have hwhole : (start ('<' :: name ++ ['>'])).Reads ('<' :: name ++ ['>'])
      ⟨byteLength ('<' :: name ++ ['>']), []⟩ := by
    simp [Reads, start]
  obtain ⟨p, hname, hend⟩ := reads_append_iff.mp hwhole
  have hskip : p.skipBlanks = p := skipBlanks_eq_self fun c hc => by
    obtain rfl : '>' = c := by simpa [hend.1] using hc
    decide
  rw [hname.after_eq, readAttributes, hskip, hend.1, ← hend.after_eq]
  rfl

/-- An opening tag without attributes. -/
def ofName (read : ExpressionReader) {name : List Char} (isName : IsElementName name)
    (notVoid : name.map Char.toLower ∉ voidElements)
    (notRaw : name.map Char.toLower ∉ rawTextElements) : OpeningTag read :=
  ⟨name, ['>'], [], isName, notVoid, notRaw, fun _ h => not_isElementNamePart_head h,
    readAttributes_end read name⟩

end OpeningTag

/-! ### Blocks and snippets -/

/-- A clause that begins another branch of a block. -/
structure Clause where
  /-- The code behind its sign. -/
  code : List Char
  /-- It is code with its sign. -/
  isCode : Code (':' :: code)

/-- The text of a clause. -/
def Clause.text (c : Clause) : List Char :=
  inBraces (':' :: c.code)

/-- The clauses that open and close a block or a snippet. -/
structure Clauses where
  /-- The code behind the sign of the opening clause. -/
  opening : List Char
  /-- The code behind the slash of the closing clause. -/
  closing : List Char
  /-- The one is code with its sign. -/
  isOpening : Code ('#' :: opening)
  /-- So is the other. -/
  isClosing : Code ('/' :: closing)
  /-- The one closes what the other opens. -/
  closes : trim closing = (Header.ofCode 0 ('#' :: opening)).word

namespace Clauses

/-- What stands in the opening clause at an offset. -/
def header (c : Clauses) (offset : Nat) : Header :=
  Header.ofCode (offset + 1) ('#' :: c.opening)

/-- What is opened and closed. -/
def kind (c : Clauses) : List Char :=
  (c.header 0).word

/-- The text of the opening clause. -/
def before (c : Clauses) : List Char :=
  inBraces ('#' :: c.opening)

/-- The text of the closing clause. -/
def behind (c : Clauses) : List Char :=
  inBraces ('/' :: c.closing)

end Clauses

/-- The clauses that open and close a block of branches. -/
structure BlockClauses extends Clauses where
  /-- A block of the kind has branches. -/
  isBranching : toClauses.kind ∈ branchingBlocks

/-- The clauses that open and close a snippet. -/
structure SnippetClauses extends Clauses where
  /-- They say so. -/
  isSnippet : toClauses.kind = "snippet".toList
  /-- The snippet has a name. -/
  isNamed : (toClauses.header 0).code.takeWhile isSnippetNamePart ≠ []

/-- The text of branches with the clauses between them. -/
def branchesText : Piece → List (Clause × Piece) → List Char
  | x, [] => x.text
  | x, (c, y) :: others => x.text ++ (c.text ++ branchesText y others)

/-- The branches that are to be read from that text at an offset. -/
def branchFragments (offset : Nat) : Piece → List (Clause × Piece) → List Fragment
  | x, [] => [⟨⟨offset, offset + byteLength x.text⟩, x.parts offset⟩]
  | x, (c, y) :: others =>
    ⟨⟨offset, offset + byteLength x.text⟩, x.parts offset⟩
      :: branchFragments (offset + byteLength x.text + byteLength c.text) y others

/-- A block around its branches. -/
def BlockClauses.around (c : BlockClauses) (x : Piece) (others : List (Clause × Piece)) : Piece :=
  let s := c.before ++ (branchesText x others ++ c.behind)
  ⟨s, fun offset => [.block ⟨⟨offset, offset + byteLength s⟩, c.kind, (c.header offset).span,
    branchFragments (offset + byteLength c.before) x others⟩]⟩

/-- A snippet around what it renders. -/
def SnippetClauses.around (c : SnippetClauses) (x : Piece) : Piece :=
  let s := c.before ++ (x.text ++ c.behind)
  ⟨s, fun offset =>
    let inside := offset + byteLength c.before
    [.snippet ⟨⟨offset, offset + byteLength s⟩,
      (c.header 0).code.takeWhile isSnippetNamePart, parameterSpan (c.header offset),
      ⟨⟨inside, inside + byteLength x.text⟩, x.parts inside⟩⟩]⟩

lemma length_le_length_branchesText (x : Piece) (others : List (Clause × Piece)) :
    others.length ≤ (branchesText x others).length := by
  induction others generalizing x with
  | nil => simp
  | cons b others ih =>
      obtain ⟨c, y⟩ := b
      have hlength := ih y
      simp only [branchesText, Clause.text, inBraces, List.length_cons, List.length_append]
      omega

/-- The branches of a block are read if each of them is. -/
lemma readBranches_pieces {c : Clauses} {others : List (Clause × Piece)} {fuel limit : Nat}
    (hx : x.Readable read) (hothers : ∀ b ∈ others, b.2.Readable read)
    (h : p.Reads (branchesText x others ++ c.behind) q) (hlimit : p.rest.length < limit)
    (hfuel : others.length < fuel) :
    ∃ branches, readBranches (readNodes read limit) c.kind fuel p = .ok (branches, q)
      ∧ branchOutlines id branches = branchFragments p.offset x others := by
  induction others generalizing p x fuel with
  | nil =>
      obtain ⟨fuel, rfl⟩ := Nat.exists_eq_add_one_of_ne_zero (Nat.ne_zero_of_lt hfuel)
      obtain ⟨clause, hbranch, hclause⟩ := reads_append_iff.mp h
      have hending : beginning clause.rest = .ending Enclosure.block.ending := by
        simp [hclause.1, Clauses.behind, inBraces, beginning, Enclosure.ending]
      obtain ⟨nodes, hnodes, hparts⟩ := hx.readNodes .block hbranch hending hlimit
      have hkind : trim c.closing = c.kind := c.closes
      refine ⟨[⟨p.spanTo clause, nodes⟩], ?_, ?_⟩
      · simp [readBranches, hnodes, braced_eq_ok hclause c.isClosing, hkind, pure, Except.pure]
      · have hstop := hbranch.2
        rw [branchesText] at hstop
        simp [branchOutlines, branchFragments, Fragment.outline, spanTo, hstop, hparts]
  | cons b others ih =>
      obtain ⟨d, y⟩ := b
      obtain ⟨hy, hrest⟩ := List.forall_mem_cons.mp hothers
      obtain ⟨fuel, rfl⟩ := Nat.exists_eq_add_one_of_ne_zero (Nat.ne_zero_of_lt hfuel)
      rw [branchesText, List.append_assoc, List.append_assoc] at h
      obtain ⟨clause, hbranch, hbehind⟩ := reads_append_iff.mp h
      obtain ⟨next, hclause, hnext⟩ := reads_append_iff.mp hbehind
      have hending : beginning clause.rest = .ending Enclosure.block.ending := by
        simp [hclause.1, Clause.text, inBraces, beginning, Enclosure.ending]
      obtain ⟨nodes, hnodes, hparts⟩ := hx.readNodes .block hbranch hending hlimit
      have hlength := (hbranch.trans hclause).reaches.length_le
      obtain ⟨branches, hbranches, houtlines⟩ :=
        ih hy hrest hnext (by omega) (by simpa using hfuel)
      refine ⟨⟨p.spanTo clause, nodes⟩ :: branches, ?_, ?_⟩
      · simp [readBranches, hnodes, braced_eq_ok hclause d.isCode, hbranches, pure, Except.pure]
      · rw [branchOutlines, branchFragments, houtlines, hclause.2, hbranch.2]
        simp [Fragment.outline, spanTo, hparts, hbranch.2]

/-- What begins with an opening clause begins a block. -/
lemma Clauses.beginning_append (c : Clauses) (s : List Char) :
    beginning (c.before ++ s) = .node .block := by
  simp [Clauses.before, inBraces, beginning]

/-- A block holds what is read between its clauses. -/
lemma BlockClauses.closed_around (c : BlockClauses) {others : List (Clause × Piece)}
    (hx : x.Readable read) (hothers : ∀ b ∈ others, b.2.Readable read) :
    (c.around x others).Closed read := by
  refine Piece.closed_of_readNode .block (by decide) (fun r => ?_) fun p q fuel h hfuel => ?_
  · rw [List.append_assoc]
    exact c.beginning_append _
  · obtain ⟨inside, hopening, hbehind⟩ := reads_append_iff.mp h
    have hlength : inside.rest.length < p.rest.length := hopening.length_lt
    have hshort : others.length < inside.rest.length + 1 := by
      have hlength := length_le_length_branchesText x others
      simp only [hbehind.1, List.length_append]
      omega
    obtain ⟨branches, hbranches, houtlines⟩ :=
      readBranches_pieces hx hothers hbehind (Nat.lt_of_lt_of_le hlength hfuel) hshort
    have hheader : Header.ofCode (p.offset + 1) ('#' :: c.opening) = c.header p.offset := rfl
    have hword : (c.header p.offset).word = c.kind := rfl
    have hkind : c.kind ≠ "snippet".toList := (branchingBlocks_spec _ c.isBranching).2.2
    have hbranching : branchingBlocks.contains c.kind = true :=
      List.contains_iff_mem.mpr c.isBranching
    simp only [readNode, readBlock, braced_eq_ok hopening c.isOpening, ok_bind, hheader, hword,
      if_neg hkind, if_pos hbranching, hbranches]
    exact ⟨_, rfl, by simp [Node.outline, Block.outline, spanTo, houtlines, h.2, hopening.2]⟩

/-- So does a snippet. -/
lemma SnippetClauses.closed_around (c : SnippetClauses) (hx : x.Readable read) :
    (c.around x).Closed read := by
  refine Piece.closed_of_readNode .block (by decide) (fun r => ?_) fun p q fuel h hfuel => ?_
  · rw [List.append_assoc]
    exact c.beginning_append _
  · obtain ⟨inside, hopening, hbehind⟩ := reads_append_iff.mp h
    obtain ⟨clause, hbody, hclosing⟩ := reads_append_iff.mp hbehind
    have hlength : inside.rest.length < p.rest.length := hopening.length_lt
    have hending : beginning clause.rest = .ending Enclosure.block.ending := by
      simp [hclosing.1, Clauses.behind, inBraces, beginning, Enclosure.ending]
    obtain ⟨nodes, hnodes, hparts⟩ := hx.readNodes .block hbody hending
      (Nat.lt_of_lt_of_le hlength hfuel)
    have hheader : Header.ofCode (p.offset + 1) ('#' :: c.opening) = c.header p.offset := rfl
    have hword : (c.header p.offset).word = "snippet".toList := c.isSnippet
    have hstarts : clause.startsWith ['{', '/'] = true := by
      simp [startsWith, hclosing.1, Clauses.behind, inBraces]
    have hcloses : trim c.closing = "snippet".toList := c.closes.trans c.isSnippet
    have hsnippet : readSnippet (readNodes read fuel) (c.header p.offset) p inside
        = .ok (.snippet ⟨p.spanTo q, (c.header 0).code.takeWhile isSnippetNamePart,
          parameterSpan (c.header p.offset), ⟨inside.spanTo clause, nodes⟩⟩, q) := by
      have hname : ((c.header p.offset).code.takeWhile
          fun d => isAsciiAlphanumeric d || d = '_' || d = '$')
            = (c.header 0).code.takeWhile isSnippetNamePart := rfl
      simp only [readSnippet, hname, hnodes, ok_bind, hstarts,
        braced_eq_ok hclosing c.isClosing, List.drop_one, List.tail_cons, hcloses]
      simp [c.isNamed, pure, Except.pure]
    simp only [readNode, readBlock, braced_eq_ok hopening c.isOpening, ok_bind, hheader,
      if_pos hword, hsnippet]
    exact ⟨_, rfl, by
      simp [Node.outline, Snippet.outline, Fragment.outline, spanTo, hparts, h.2, hbody.2,
        hopening.2]⟩

end

end SvelteStories.Markup
