/-
Trees that lose nothing of their text:

* `Tiles`: spans that follow one another without a gap and without an overlap;
* `Node.Lossless`: a part of a template tells, together with the parts inside it, what the text has
  at its place;
* `NodeReader.Sound`: a reader gives only such parts, and they cover what it goes over. There is a
  lemma for each form of parts, which supposes it of the reader of the parts inside;
* `sound_readNodes`: the reader of templates is sound, by induction on the depth that it may reach.
-/
import SvelteStories.Markup.Template
import SvelteStories.Proofs.Markup.Reading

namespace SvelteStories.Markup

open Place

/-! ### Lossless trees -/

/-- Spans follow one another from one offset to another one: each begins where the one before it
ends. -/
def Tiles : List Span → (start stop : Nat) → Prop
  | [], start, stop => start = stop
  | s :: spans, start, stop => s.start = start ∧ s.start ≤ s.stop ∧ Tiles spans s.stop stop

/-- The parts of a fragment cover its place. -/
def Fragment.Tiled (f : Fragment) : Prop :=
  Tiles (f.nodes.map Node.span) f.span.start f.span.stop

/-- A closing tag of a name. -/
def IsClosingTag (name s : List Char) : Prop :=
  ∃ blanks, s = '<' :: '/' :: (name ++ (blanks ++ ['>'])) ∧ ∀ c ∈ blanks, isAsciiBlank c = true

/-- A clause that closes a block of a kind. -/
def IsClosingClause (kind s : List Char) : Prop :=
  ∃ word, s = '{' :: '/' :: (word ++ ['}']) ∧ trim word = kind

/-- The end of an element. One that closes itself or is void ends where its empty content stands,
any other one with the closing tag of its name, which begins where its content ends. -/
def Element.EndsIn (t : List Char) (e : Element) : Prop :=
  if e.selfClosing || voidElements.contains (e.name.map Char.toLower) then
    e.fragment.nodes = [] ∧ e.fragment.span.stop = e.span.stop
  else
    ∃ closing, slice? t ⟨e.fragment.span.stop, e.span.stop⟩ = some closing
      ∧ IsClosingTag e.name closing

/-- The end of a block or of a snippet: a clause of its kind, which begins where a fragment ends. -/
def EndsInClause (t kind : List Char) (last : Fragment) (s : Span) : Prop :=
  ∃ closing, slice? t ⟨last.span.stop, s.stop⟩ = some closing ∧ IsClosingClause kind closing

/-- A part of a template that loses nothing of a text. -/
inductive Node.Lossless (t : List Char) : Node → Prop
  /-- Plain text is the slice at its place. -/
  | text {span : Span} {data : List Char} : slice? t span = some data → Lossless t (.text span data)
  /-- A comment is the slice at its place without the signs around it. -/
  | comment {span : Span} {data : List Char} :
      slice? t span = some ("<!--".toList ++ data ++ "-->".toList) → Lossless t (.comment span data)
  /-- An element begins with its name, holds parts that cover the place of its content, and has its
  end behind that. -/
  | element {e : Element} {behind : List Char} :
      slice? t e.span = some ('<' :: (e.name ++ behind)) →
      e.fragment.Tiled → (∀ n ∈ e.fragment.nodes, Lossless t n) → e.EndsIn t →
      Lossless t (.element e)
  /-- Code has its own slice between the braces. -/
  | expression {span code : Span} {s : List Char} : slice? t code = some s →
      slice? t span = some ('{' :: (s ++ ['}'])) → Lossless t (.expression span code)
  /-- A snippet holds parts that cover the place of its body, and ends with its clause. -/
  | snippet {s : Snippet} : s.body.Tiled → (∀ n ∈ s.body.nodes, Lossless t n) →
      EndsInClause t "snippet".toList s.body s.span → Lossless t (.snippet s)
  /-- So does a block, with the parts of all its branches. -/
  | block {b : Block} {last : Fragment} : (∀ f ∈ b.branches, f.Tiled) →
      (∀ f ∈ b.branches, ∀ n ∈ f.nodes, Lossless t n) → b.branches.getLast? = some last →
      EndsInClause t b.kind last b.span → Lossless t (.block b)
  /-- A tag begins with its word. -/
  | tag {span code : Span} {kind behind : List Char} :
      slice? t span = some ('{' :: '@' :: (kind ++ behind)) → Lossless t (.tag span kind code)

/-! ### Sound readers -/

/-- From one place to another stands a part of a template. -/
structure ReadsNode (t : List Char) (p : Place) (n : Node) (q : Place) : Prop where
  /-- A text stands there. -/
  reaches : p.Reaches q
  /-- This is the place of the part. -/
  span : n.span = p.spanTo q
  /-- The part loses nothing of it. -/
  lossless : n.Lossless t

/-- From one place to another stand parts of a template. -/
structure ReadsNodes (t : List Char) (p : Place) (nodes : List Node) (q : Place) : Prop where
  /-- A text stands there. -/
  reaches : p.Reaches q
  /-- The parts cover it. -/
  tiles : Tiles (nodes.map Node.span) p.offset q.offset
  /-- None of them loses anything of it. -/
  lossless : ∀ n ∈ nodes, n.Lossless t

lemma ReadsNodes.nil (t : List Char) (p : Place) : ReadsNodes t p [] p :=
  ⟨.refl p, rfl, by simp⟩

lemma ReadsNodes.cons {t : List Char} {p q r : Place} {n : Node} {nodes : List Node}
    (h : ReadsNode t p n q) (h' : ReadsNodes t q nodes r) : ReadsNodes t p (n :: nodes) r := by
  refine ⟨h.reaches.trans h'.reaches, ?_, ?_⟩
  · rw [List.map_cons, Tiles, h.span]
    exact ⟨rfl, h.reaches.le, h'.tiles⟩
  · exact List.forall_mem_cons.mpr ⟨h.lossless, h'.lossless⟩

/-- What stands where a run of parts ends. -/
def Enclosure.EndsAt : Enclosure → Place → Prop
  | .document, p => p.rest = []
  | .element _, p => ['<', '/'] <+: p.rest
  | .block, _ => True

/-- A reader gives parts that cover what it goes over and lose nothing of it. -/
def NodeReader.Sound (t : List Char) (children : NodeReader) : Prop :=
  ∀ ⦃enclosure p nodes q⦄, (start t).Reaches p → children enclosure p = .ok (nodes, q) →
    ReadsNodes t p nodes q ∧ enclosure.EndsAt q

section

variable {t : List Char} {p q : Place} {n : Node}

/-! ### Text, comments, code and tags -/

lemma isPrefix_textRun (t : List Char) : textRun t <+: t := by
  induction t using textRun.induct with
  | case1 => exact List.nil_prefix
  | case2 => exact List.nil_prefix
  | case3 c t h => simp [textRun, h]
  | case4 c t h ih => simpa [textRun, h] using ih
  | case5 c t _ _ ih => simpa [textRun] using ih

lemma readsNode_readText (hp : (start t).Reaches p) :
    ReadsNode t p (readText p).1 (readText p).2 := by
  have hstarts : p.rest.take 1 ++ textRun (p.rest.drop 1) <+: p.rest := by
    cases p.rest <;> simp [textRun, isPrefix_textRun]
  have hreads := reads_of_startsWith hstarts
  exact ⟨hreads.reaches, rfl, .text (slice?_of_reads hp hreads)⟩

lemma readsNode_readComment (hp : (start t).Reaches p) (hopen : "<!--".toList <+: p.rest)
    (h : readComment p = .ok (n, q)) : ReadsNode t p n q := by
  simp only [readComment] at h
  split at h
  · rename_i data rest hsplit
    simp only [Except.ok.injEq, Prod.mk.injEq] at h
    obtain ⟨rfl, rfl⟩ := h
    obtain ⟨hinside, hclose⟩ := eq_append_of_splitAtFirst hsplit
    have hdata : data ++ "-->".toList <+: (p.after "<!--".toList).rest := by
      rw [hinside]
      exact (List.prefix_append_right_inj data).mpr hclose
    have hreads := (reads_of_startsWith hopen).trans (reads_of_startsWith hdata)
    rw [← List.append_assoc] at hreads
    exact ⟨hreads.reaches, rfl, .comment (slice?_of_reads hp hreads)⟩
  · simp at h

lemma readsNode_readExpressionTag (hp : (start t).Reaches p)
    (h : readExpressionTag p = .ok (n, q)) : ReadsNode t p n q := by
  simp only [readExpressionTag, bind_eq_ok_iff, pure_eq_ok_iff, Prod.mk.injEq] at h
  obtain ⟨⟨code, q⟩, hcode, rfl, rfl⟩ := h
  have hreads := (reads_braced hcode).1
  have hbrace : p.Reads ['{'] (p.after ['{']) := reads_after hreads.1
  have hinside : (p.after ['{']).Reads code ((p.after ['{']).after code) := by
    refine reads_after (u := '}' :: q.rest) ?_
    simp [after, hreads.1]
  have hslice := slice?_of_reads (hp.trans hbrace.reaches) hinside
  exact ⟨hreads.reaches, rfl, .expression hslice (slice?_of_reads hp hreads)⟩

/-- The sign behind an opening brace is part of the code in the braces. -/
lemma exists_cons_of_reads {code : List Char} {c : Char} (hc : c ≠ '}')
    (h : p.Reads ('{' :: (code ++ ['}'])) q) (hopen : ['{', c] <+: p.rest) :
    ∃ behind, code = c :: behind := by
  obtain ⟨rest, hrest⟩ := hopen
  have heq := hrest.trans h.1
  cases code with
  | nil =>
      simp only [List.cons_append, List.nil_append, List.cons.injEq, true_and] at heq
      exact absurd heq.1 hc
  | cons d code =>
      simp only [List.cons_append, List.nil_append, List.cons.injEq, true_and] at heq
      exact ⟨code, by rw [heq.1]⟩

lemma readsNode_readTag (hp : (start t).Reaches p) (hopen : ['{', '@'] <+: p.rest)
    (h : readTag p = .ok (n, q)) : ReadsNode t p n q := by
  simp only [readTag, bind_eq_ok_iff, pure_eq_ok_iff, Prod.mk.injEq] at h
  obtain ⟨⟨code, q⟩, hcode, rfl, rfl⟩ := h
  have hreads := (reads_braced hcode).1
  obtain ⟨code, rfl⟩ := exists_cons_of_reads (by decide) hreads hopen
  have hword : code = code.takeWhile isAsciiLetter ++ code.dropWhile isAsciiLetter :=
    List.takeWhile_append_dropWhile.symm
  have hslice := slice?_of_reads hp hreads
  rw [hword, List.cons_append, List.append_assoc] at hslice
  exact ⟨hreads.reaches, rfl, .tag hslice⟩

/-! ### Elements -/

/-- The name in a closing tag stands behind the signs that it opens with. -/
lemma isPrefix_closingName {s : List Char} (hopen : ['<', '/'] <+: s) :
    '<' :: '/' :: closingName s <+: s := by
  obtain ⟨rest, rfl⟩ := hopen
  simpa [closingName] using List.takeWhile_prefix _

/-- A closing tag is one of its name. -/
lemma reads_readClosingTag {name : List Char} (hopen : ['<', '/'] <+: p.rest)
    (h : readClosingTag name p = .ok q) :
    ∃ closing, p.Reads closing q ∧ IsClosingTag name closing := by
  simp only [readClosingTag] at h
  split_ifs at h with hname hclose
  · obtain rfl := Except.ok.inj h
    have hstarts : '<' :: '/' :: name <+: p.rest := hname ▸ isPrefix_closingName hopen
    have hreads := (reads_of_startsWith hstarts).trans
      ((reads_skipBlanks _).trans (reads_head hclose))
    refine ⟨_, hreads, _, rfl, fun c hc => ?_⟩
    exact List.all_eq_true.mp List.all_takeWhile c hc
  · simp at h
  · simp at h

/-- What an element holds loses nothing, and its end stands behind it. -/
lemma readContent_spec {children : NodeReader} {name : List Char} {selfClosing : Bool}
    {opening inside : Place} {f : Fragment} (hchildren : children.Sound t)
    (hp : (start t).Reaches inside)
    (h : readContent children name selfClosing opening inside = .ok (f, q)) :
    inside.Reaches q ∧ f.Tiled ∧ (∀ n ∈ f.nodes, n.Lossless t)
      ∧ ∀ span kind attributes, span.stop = q.offset →
        Element.EndsIn t ⟨span, kind, name, attributes, f, selfClosing⟩ := by
  simp only [readContent] at h
  split_ifs at h with hempty hraw
  · -- no content
    simp only [Except.ok.injEq, Prod.mk.injEq] at h
    obtain ⟨rfl, rfl⟩ := h
    refine ⟨.refl _, rfl, by simp, fun span _ _ hstop => ?_⟩
    rw [Element.EndsIn, if_pos hempty]
    exact ⟨rfl, hstop.symm⟩
  · -- text up to the closing tag
    split at h
    · simp at h
    · rename_i data rest hsplit
      simp only [bind_eq_ok_iff, pure_eq_ok_iff, Prod.mk.injEq] at h
      obtain ⟨q, hclosing, rfl, rfl⟩ := h
      obtain ⟨hrest, hopen⟩ := eq_append_of_splitAtFirst hsplit
      have hdata := reads_after hrest
      have hstop : ['<', '/'] <+: (inside.after data).rest := by
        rw [← List.append_cancel_left (hrest.symm.trans hdata.1)]
        exact (List.prefix_append ['<', '/'] name).trans hopen
      obtain ⟨closing, hreads, htag⟩ := reads_readClosingTag hstop hclosing
      refine ⟨(hdata.trans hreads).reaches, ⟨rfl, hdata.reaches.le, rfl⟩, ?_,
        fun span _ _ hspan => ?_⟩
      · simpa using Node.Lossless.text (slice?_of_reads hp hdata)
      · rw [Element.EndsIn, if_neg hempty, hspan]
        exact ⟨closing, slice?_of_reads (hp.trans hdata.reaches) hreads, htag⟩
  · -- parts up to the closing tag
    rw [bind_eq_ok_iff] at h
    obtain ⟨⟨nodes, stop⟩, hnodes, h⟩ := h
    simp only [bind_eq_ok_iff, pure_eq_ok_iff, Prod.mk.injEq] at h
    obtain ⟨q, hclosing, rfl, rfl⟩ := h
    obtain ⟨hread, hstop⟩ := hchildren hp hnodes
    obtain ⟨closing, hreads, htag⟩ := reads_readClosingTag hstop hclosing
    refine ⟨hread.reaches.trans hreads.reaches, hread.tiles, hread.lossless,
      fun span _ _ hspan => ?_⟩
    rw [Element.EndsIn, if_neg hempty, hspan]
    exact ⟨closing, slice?_of_reads (hp.trans hread.reaches) hreads, htag⟩

/-- An angle bracket and the name of the element that it opens. -/
lemma reads_elementName (h : p.rest.head? = some '<') :
    p.Reads ('<' :: (p.after ['<']).run isElementNamePart)
      (p.after ('<' :: (p.after ['<']).run isElementNamePart)) := by
  refine reads_of_startsWith ?_
  rw [(reads_head h).1]
  exact (List.prefix_append_right_inj ['<']).mpr (List.takeWhile_prefix _)

lemma readsNode_readElement {read : ExpressionReader} {children : NodeReader}
    (hchildren : children.Sound t) (hp : (start t).Reaches p) (hopen : p.rest.head? = some '<')
    (h : readElement read children p = .ok (n, q)) : ReadsNode t p n q := by
  simp only [readElement, bind_eq_ok_iff, pure_eq_ok_iff, Prod.mk.injEq] at h
  obtain ⟨⟨⟨attributes, selfClosing⟩, inside⟩, hattributes, ⟨f, q⟩, hcontent, rfl, rfl⟩ := h
  have hname := reads_elementName hopen
  have hinside := (hp.trans hname.reaches).trans (readAttributes_reaches hattributes)
  obtain ⟨hq, htiled, hnodes, hend⟩ := readContent_spec hchildren hinside hcontent
  obtain ⟨behind, hbehind⟩ := (readAttributes_reaches hattributes).trans hq
  have hreads := hname.trans hbehind
  refine ⟨hreads.reaches, rfl, ?_⟩
  exact .element (slice?_of_reads hp hreads) htiled hnodes (hend _ _ _ rfl)

/-! ### Snippets and blocks -/

/-- The clause that closes a block or a snippet. -/
lemma endsInClause_of_braced {kind code word : List Char} (hp : (start t).Reaches p)
    (h : braced p = .ok (code, q)) (hcode : code = '/' :: word) (hword : trim word = kind)
    {last : Fragment} {s : Span} (hlast : last.span.stop = p.offset) (hs : s.stop = q.offset) :
    EndsInClause t kind last s := by
  subst hcode
  have hslice := slice?_of_reads hp (reads_braced h).1
  rw [EndsInClause, hlast, hs]
  exact ⟨_, hslice, word, rfl, hword⟩

/-- The branches of a block lose nothing, and the last one ends where the closing clause begins. -/
lemma readBranches_spec {children : NodeReader} {kind : List Char} {fuel : Nat}
    {branches : List Fragment} (hchildren : children.Sound t) (hp : (start t).Reaches p)
    (h : readBranches children kind fuel p = .ok (branches, q)) :
    p.Reaches q ∧ (∀ f ∈ branches, f.Tiled) ∧ (∀ f ∈ branches, ∀ n ∈ f.nodes, n.Lossless t)
      ∧ ∃ last, branches.getLast? = some last
        ∧ ∀ s : Span, s.stop = q.offset → EndsInClause t kind last s := by
  induction fuel generalizing p branches with
  | zero => simp [readBranches] at h
  | succ fuel ih =>
      rw [readBranches, bind_eq_ok_iff] at h
      obtain ⟨⟨nodes, clause⟩, hnodes, h⟩ := h
      rw [bind_eq_ok_iff] at h
      obtain ⟨⟨code, behind⟩, hcode, h⟩ := h
      obtain ⟨hread, -⟩ := hchildren hp hnodes
      have hclause := hp.trans hread.reaches
      have hbehind := (reads_braced hcode).1.reaches
      dsimp only at h
      split at h
      · rename_i word
        split_ifs at h with hkind
        · simp only [pure_eq_ok_iff, Prod.mk.injEq] at h
          obtain ⟨rfl, rfl⟩ := h
          have htiled : (⟨p.spanTo clause, nodes⟩ : Fragment).Tiled := hread.tiles
          refine ⟨hread.reaches.trans hbehind, by simpa using htiled,
            by simpa using hread.lossless, _, rfl, fun s hs => ?_⟩
          exact endsInClause_of_braced hclause hcode rfl hkind rfl hs
        · simp at h
      · simp only [bind_eq_ok_iff, pure_eq_ok_iff, Prod.mk.injEq] at h
        obtain ⟨⟨branches, stop⟩, hbranches, rfl, rfl⟩ := h
        obtain ⟨hreaches, htiled, hlossless, last, hlast, hend⟩ :=
          ih (hclause.trans hbehind) hbranches
        refine ⟨hread.reaches.trans (hbehind.trans hreaches), ?_, ?_, last, ?_, hend⟩
        · exact List.forall_mem_cons.mpr ⟨hread.tiles, htiled⟩
        · exact List.forall_mem_cons.mpr ⟨hread.lossless, hlossless⟩
        · rw [List.getLast?_cons, hlast]
          rfl

lemma readsNode_readSnippet {children : NodeReader} {header : Header} {inside : Place}
    (hchildren : children.Sound t) (hp : (start t).Reaches p) (hinside : p.Reaches inside)
    (h : readSnippet children header p inside = .ok (n, q)) : ReadsNode t p n q := by
  simp only [readSnippet] at h
  split_ifs at h
  · exact absurd h error_bind_ne_ok
  rw [bind_eq_ok_iff] at h
  obtain ⟨⟨nodes, clause⟩, hnodes, h⟩ := h
  dsimp only at h
  split_ifs at h with hopen
  · exact absurd h error_bind_ne_ok
  rw [bind_eq_ok_iff] at h
  obtain ⟨⟨code, q'⟩, hcode, h⟩ := h
  dsimp only at h
  split_ifs at h with hword
  · exact absurd h error_bind_ne_ok
  simp only [pure_eq_ok_iff, Prod.mk.injEq] at h
  obtain ⟨rfl, rfl⟩ := h
  obtain ⟨hread, -⟩ := hchildren (hp.trans hinside) hnodes
  have hclause := (hp.trans hinside).trans hread.reaches
  have hslash : ['{', '/'] <+: clause.rest := by
    simpa [startsWith, List.isPrefixOf_iff_prefix] using hopen
  obtain ⟨word, rfl⟩ := exists_cons_of_reads (by decide) (reads_braced hcode).1 hslash
  refine ⟨hinside.trans (hread.reaches.trans (reads_braced hcode).1.reaches), rfl, ?_⟩
  refine .snippet hread.tiles hread.lossless ?_
  exact endsInClause_of_braced hclause hcode rfl (by simpa using hword) rfl rfl

lemma readsNode_readBlock {children : NodeReader} (hchildren : children.Sound t)
    (hp : (start t).Reaches p) (h : readBlock children p = .ok (n, q)) : ReadsNode t p n q := by
  rw [readBlock, bind_eq_ok_iff] at h
  obtain ⟨⟨code, inside⟩, hcode, h⟩ := h
  have hinside := (reads_braced hcode).1.reaches
  dsimp only at h
  split_ifs at h with hsnippet hbranching
  · exact readsNode_readSnippet hchildren hp hinside h
  · simp only [bind_eq_ok_iff, pure_eq_ok_iff, Prod.mk.injEq] at h
    obtain ⟨⟨branches, q⟩, hbranches, rfl, rfl⟩ := h
    obtain ⟨hreaches, htiled, hlossless, last, hlast, hend⟩ :=
      readBranches_spec hchildren (hp.trans hinside) hbranches
    refine ⟨hinside.trans hreaches, rfl, ?_⟩
    exact .block htiled hlossless hlast (hend _ rfl)
  · simp at h

/-! ### Templates -/

/-- What a text has to begin with. -/
def Beginning.Agrees : Beginning → List Char → Prop
  | .ending .text, t => t = []
  | .ending .tag, t => ['<', '/'] <+: t
  | .ending .clause, t => t.head? = some '{'
  | .node .comment, t => "<!--".toList <+: t
  | .node .element, t => t.head? = some '<'
  | .node .tag, t => ['{', '@'] <+: t
  | .node .block, t | .node .expression, t => t.head? = some '{'
  | .node .text, _ => True

lemma agrees_beginning (t : List Char) : (beginning t).Agrees t := by
  rw [beginning.eq_def]
  split
  case h_4 c _ _ _ => cases isAsciiLetter c <;> simp [Beginning.Agrees]
  all_goals simp [Beginning.Agrees]

/-- An ending that closes what encloses it stands where it has to. -/
lemma Enclosure.endsAt_of_close {enclosure : Enclosure} {ending : Ending}
    (h : enclosure.close ending p = .ok ()) (hending : beginning p.rest = .ending ending) :
    enclosure.EndsAt p := by
  have hagrees := agrees_beginning p.rest
  rw [hending] at hagrees
  cases enclosure <;> cases ending <;> trivial

/-- What begins with a part loses nothing of it. -/
lemma readsNode_readNode {read : ExpressionReader} {children : NodeReader} {form : NodeForm}
    (hchildren : children.Sound t) (hp : (start t).Reaches p)
    (hform : beginning p.rest = .node form)
    (h : readNode read children form p = .ok (n, q)) : ReadsNode t p n q := by
  have hagrees := agrees_beginning p.rest
  rw [hform] at hagrees
  cases form with
  | comment => exact readsNode_readComment hp hagrees h
  | element => exact readsNode_readElement hchildren hp hagrees h
  | block => exact readsNode_readBlock hchildren hp h
  | tag => exact readsNode_readTag hp hagrees h
  | expression => exact readsNode_readExpressionTag hp h
  | text =>
      obtain ⟨rfl, rfl⟩ := Prod.mk.inj (Except.ok.inj h)
      exact readsNode_readText hp

/-- What the reader of templates does: it stops at the ending of what encloses the parts, or it reads
one part and goes on behind it. Either takes one step of its depth. -/
lemma readNodes_eq_ok_iff {read : ExpressionReader} {fuel : Nat} {enclosure : Enclosure}
    {nodes : List Node} :
    readNodes read fuel enclosure p = .ok (nodes, q) ↔ ∃ depth, fuel = depth + 1
      ∧ ((∃ ending, beginning p.rest = .ending ending ∧ enclosure.close ending p = .ok ()
          ∧ nodes = [] ∧ q = p)
        ∨ ∃ form n r others, beginning p.rest = .node form
          ∧ readNode read (readNodes read depth) form p = .ok (n, r)
          ∧ readNodes read depth enclosure r = .ok (others, q) ∧ nodes = n :: others) := by
  cases fuel with
  | zero => simp [readNodes]
  | succ fuel =>
      rw [readNodes]
      cases hbegins : beginning p.rest with
      | ending ending =>
          simp only [bind_eq_ok_iff, pure_eq_ok_iff, Prod.mk.injEq]
          constructor
          · rintro ⟨⟨⟩, hclose, rfl, rfl⟩
            exact ⟨fuel, rfl, .inl ⟨ending, rfl, hclose, rfl, rfl⟩⟩
          · rintro ⟨_, ⟨⟩, ⟨_, ⟨⟩, hclose, rfl, rfl⟩ | ⟨_, _, _, _, ⟨⟩, -⟩⟩
            exact ⟨(), hclose, rfl, rfl⟩
      | node form =>
          simp only [bind_eq_ok_iff, pure_eq_ok_iff, Prod.mk.injEq]
          constructor
          · rintro ⟨⟨n, r⟩, hnode, ⟨others, _⟩, hothers, rfl, rfl⟩
            exact ⟨fuel, rfl, .inr ⟨form, n, r, others, rfl, hnode, hothers, rfl⟩⟩
          · rintro ⟨_, ⟨⟩, ⟨_, ⟨⟩, -⟩ | ⟨_, n, r, others, ⟨⟩, hnode, hothers, rfl⟩⟩
            exact ⟨(n, r), hnode, (others, q), hothers, rfl, rfl⟩

/-- The first of some parts is read where they begin, and the others behind it. -/
lemma exists_of_readNodes_cons {read : ExpressionReader} {fuel : Nat} {enclosure : Enclosure}
    {nodes : List Node} (h : readNodes read fuel enclosure p = .ok (n :: nodes, q)) :
    ∃ depth form r, fuel = depth + 1 ∧ beginning p.rest = .node form
      ∧ readNode read (readNodes read depth) form p = .ok (n, r)
      ∧ readNodes read depth enclosure r = .ok (nodes, q) := by
  obtain ⟨depth, rfl, ⟨_, -, -, hnil, -⟩ | ⟨form, n', r, others, hform, hnode, hothers, heq⟩⟩ :=
    readNodes_eq_ok_iff.mp h
  · cases hnil
  · obtain ⟨rfl, rfl⟩ := List.cons.inj heq
    exact ⟨depth, form, r, rfl, hform, hnode, hothers⟩

/-- The reader of templates is sound. -/
theorem sound_readNodes (t : List Char) (read : ExpressionReader) (fuel : Nat) :
    NodeReader.Sound t (readNodes read fuel) := by
  induction fuel with
  | zero => exact fun _ _ _ _ _ h => by simp [readNodes] at h
  | succ fuel ih =>
      intro enclosure p nodes q hp h
      obtain ⟨_, ⟨⟩, ⟨ending, hending, hclose, rfl, rfl⟩
        | ⟨form, n, r, others, hform, hnode, hothers, rfl⟩⟩ := readNodes_eq_ok_iff.mp h
      · exact ⟨.nil t q, Enclosure.endsAt_of_close hclose hending⟩
      · have hread := readsNode_readNode ih hp hform hnode
        obtain ⟨hrest, hend⟩ := ih (hp.trans hread.reaches) hothers
        exact ⟨.cons hread hrest, hend⟩

/-- Each part of a template has a property if reading a single part gives it, supposed that the parts
inside of it have the property. -/
lemma forall_mem_of_readNodes {P : Node → Prop} {read : ExpressionReader}
    (hstep : ∀ ⦃children form p n q⦄, NodeReader.Sound t children →
      (∀ ⦃enclosure p nodes q⦄, (start t).Reaches p → children enclosure p = .ok (nodes, q) →
        ∀ n ∈ nodes, P n) →
      (start t).Reaches p → beginning p.rest = .node form →
      readNode read children form p = .ok (n, q) → P n)
    (fuel : Nat) ⦃enclosure : Enclosure⦄ ⦃p : Place⦄ ⦃nodes : List Node⦄ ⦃q : Place⦄
    (hp : (start t).Reaches p) (h : readNodes read fuel enclosure p = .ok (nodes, q)) :
    ∀ n ∈ nodes, P n := by
  induction fuel generalizing enclosure p nodes q with
  | zero => simp [readNodes] at h
  | succ fuel ih =>
      obtain ⟨_, ⟨⟩, ⟨_, -, -, rfl, -⟩ | ⟨form, n, r, others, hform, hnode, hothers, rfl⟩⟩ :=
        readNodes_eq_ok_iff.mp h
      · exact fun _ hn => absurd hn List.not_mem_nil
      · have hsound := sound_readNodes t read fuel
        have hr := (readsNode_readNode hsound hp hform hnode).reaches
        exact List.forall_mem_cons.mpr
          ⟨hstep hsound ih hp hform hnode, ih (hp.trans hr) hothers⟩

end

end SvelteStories.Markup
