/-
The text under the stretches of a template:

* `IsLoud`, `IsQuiet`: at a place of a text something other than blanks stands, or nothing else;
* `Covers`: stretches follow one another, and each has the text that its kind asks for;
* `Node.Covered`, `NodeReader.Covers`: the stretches of what a reader gives cover its place. There is
  a lemma for each form of parts with others inside, which supposes it of the reader of these;
* `readTemplate_covers`: the stretches of each part of a template cover its place.
-/
import SvelteStories.Proofs.Markup.Document
import SvelteStories.Proofs.Story.Stretches

namespace SvelteStories

open Markup Markup.Place

/-! ### Loud and quiet places -/

/-- At an offset of a text a character stands. -/
def CharAt (t : List Char) (offset : Nat) (c : Char) : Prop :=
  ∃ before behind, t = before ++ c :: behind ∧ byteLength before = offset

/-- An offset lies in a span. -/
def Span.Holds (s : Span) (offset : Nat) : Prop :=
  s.start ≤ offset ∧ offset < s.stop

/-- Under a span a character stands that is not blank. -/
def IsLoud (t : List Char) (s : Span) : Prop :=
  ∃ offset c, s.Holds offset ∧ CharAt t offset c ∧ isBlank c = false

/-- Under a span no other characters than blanks stand. -/
def IsQuiet (t : List Char) (s : Span) : Prop :=
  ∀ offset c, s.Holds offset → CharAt t offset c → isBlank c = true

section

variable {t w : List Char} {s : Span} {c : Char} {p q : Place}

lemma IsLoud.lt (h : IsLoud t s) : s.start < s.stop := by
  obtain ⟨offset, c, ⟨hstart, hstop⟩, -⟩ := h
  omega

lemma isLoud_of_slice? (h : slice? t s = some w) (hc : c ∈ w) (hblank : isBlank c = false) :
    IsLoud t s := by
  obtain ⟨before, behind, ht, hstart, hstop⟩ := slice?_eq_some_iff.mp h
  obtain ⟨left, right, rfl⟩ := List.append_of_mem hc
  refine ⟨byteLength (before ++ left), c, ⟨?_, ?_⟩, ⟨before ++ left, right ++ behind, ?_, rfl⟩,
    hblank⟩
  · rw [byteLength_append]
    omega
  · have hpos := c.utf8Size_pos
    simp only [byteLength_append, byteLength_cons] at hstop ⊢
    omega
  · simpa using ht

lemma isQuiet_of_slice? (h : slice? t s = some w) (hw : ∀ c ∈ w, isBlank c = true) :
    IsQuiet t s := by
  obtain ⟨before, behind, ht, hstart, hstop⟩ := slice?_eq_some_iff.mp h
  rintro offset c ⟨hle, hlt⟩ ⟨left, right, hsplit, rfl⟩
  obtain ⟨m, rfl, hm⟩ := exists_append_of_byteLength_le (ht.symm.trans hsplit) (by omega)
  have hlength : byteLength m ≤ byteLength w := by
    rw [byteLength_append] at hlt
    omega
  obtain ⟨k, rfl, hk⟩ := exists_append_of_byteLength_le hm.symm hlength
  cases k with
  | nil =>
      simp only [byteLength_append, List.append_nil] at hlt hstop
      omega
  | cons d k =>
      obtain rfl : c = d := by simpa using congrArg List.head? hk
      exact hw c (List.mem_append_right _ List.mem_cons_self)

lemma isLoud_of_reads (hp : (start t).Reaches p) (h : p.Reads (c :: w) q)
    (hblank : isBlank c = false) : IsLoud t (p.spanTo q) :=
  isLoud_of_slice? (slice?_of_reads hp h) List.mem_cons_self hblank

end

/-! ### Stretches that cover a text -/

/-- A stretch has the text that its kind asks for. -/
def Stretch.Fits (t : List Char) (s : Stretch) : Prop :=
  match s.kind with
  | .comment _ | .loud => IsLoud t s.span
  | .story e => e.span.start = s.span.start ∧ IsLoud t s.span
  | .quiet => IsQuiet t s.span

/-- Stretches cover a text from one offset to another one. -/
structure Covers (t : List Char) (l : List Stretch) (start stop : Nat) : Prop where
  /-- They follow one another. -/
  tiles : Tiles (l.map Stretch.span) start stop
  /-- Each has its text. -/
  fits : ∀ s ∈ l, s.Fits t

section

variable {t : List Char} {l l' : List Stretch} {s : Span} {a b c : Nat}

lemma tiles_append_iff {spans spans' : List Span} :
    Tiles (spans ++ spans') a c ↔ ∃ b, Tiles spans a b ∧ Tiles spans' b c := by
  induction spans generalizing a with
  | nil => simp [Tiles]
  | cons s spans ih =>
      simp only [List.cons_append, Tiles, ih]
      constructor
      · rintro ⟨hstart, hle, b, h, h'⟩
        exact ⟨b, ⟨hstart, hle, h⟩, h'⟩
      · rintro ⟨b, ⟨hstart, hle, h⟩, h'⟩
        exact ⟨hstart, hle, b, h, h'⟩

lemma Covers.nil (t : List Char) (a : Nat) : Covers t [] a a :=
  ⟨rfl, fun _ h => absurd h List.not_mem_nil⟩

lemma Covers.append (h : Covers t l a b) (h' : Covers t l' b c) : Covers t (l ++ l') a c := by
  refine ⟨?_, fun s hs => (List.mem_append.mp hs).elim (h.fits s) (h'.fits s)⟩
  rw [List.map_append]
  exact tiles_append_iff.mpr ⟨b, h.tiles, h'.tiles⟩

lemma Covers.singleton {kind : StretchKind} (h : Stretch.Fits t ⟨s, kind⟩)
    (hle : s.start ≤ s.stop) : Covers t [⟨s, kind⟩] s.start s.stop :=
  ⟨⟨rfl, hle, rfl⟩, fun _ hs => List.mem_singleton.mp hs ▸ h⟩

lemma Covers.loud (h : IsLoud t s) : Covers t [⟨s, .loud⟩] s.start s.stop :=
  .singleton h (Nat.le_of_lt h.lt)

/-- Before stretches that cover a text, another one. -/
lemma Covers.cons_loud (h : IsLoud t ⟨a, b⟩) (h' : Covers t l b c) :
    Covers t (⟨⟨a, b⟩, .loud⟩ :: l) a c :=
  (Covers.loud h).append h'

/-- What an element begins with. -/
lemma Covers.head {story : Option (List Char)} {e : Markup.Element} (h : IsLoud t s)
    (hstart : e.span.start = s.start) : Covers t [⟨s, e.head story⟩] s.start s.stop := by
  refine .singleton ?_ (Nat.le_of_lt h.lt)
  rw [Markup.Element.head]
  split_ifs
  · exact ⟨hstart, h⟩
  · exact h

/-- A text is quiet if it is blank, and loud if it is not. -/
lemma Covers.text {story : Option (List Char)} {data : List Char} (h : slice? t s = some data) :
    Covers t ((Node.text s data).stretches story) s.start s.stop := by
  have hle : s.start ≤ s.stop := by
    obtain ⟨before, behind, -, hstart, hstop⟩ := slice?_eq_some_iff.mp h
    omega
  refine .singleton ?_ hle
  split_ifs with hblank
  · exact isQuiet_of_slice? h (List.all_eq_true.mp hblank)
  · obtain ⟨c, hc, hloud⟩ : ∃ c ∈ data, isBlank c = false := by simpa using hblank
    exact isLoud_of_slice? h hc hloud

end

/-! ### Readers -/

/-- Whether a part of a template cannot hold others. -/
def Markup.Node.isLeaf : Node → Bool
  | .text _ _ | .comment _ _ | .expression _ _ | .tag _ _ _ => true
  | .element _ | .snippet _ | .block _ => false

/-- The stretches of a part of a template cover its place, whichever stories are looked for. -/
def Markup.Node.Covered (t : List Char) (n : Node) : Prop :=
  ∀ story, Covers t (n.stretches story) n.span.start n.span.stop

/-- A reader gives parts whose stretches cover their places. -/
def Markup.NodeReader.Covers (t : List Char) (children : NodeReader) : Prop :=
  ∀ ⦃enclosure p nodes q⦄, (start t).Reaches p → children enclosure p = .ok (nodes, q) →
    ∀ n ∈ nodes, n.Covered t

section

variable {t : List Char} {p q : Place} {n : Node} {children : NodeReader}
  {story : Option (List Char)}

/-- The stretches of parts one behind the other cover what the parts cover. -/
lemma covers_stretchesOf {nodes : List Node} {a b : Nat} (htiles : Tiles (nodes.map Node.span) a b)
    (h : ∀ n ∈ nodes, n.Covered t) (story : Option (List Char)) :
    Covers t (stretchesOf story nodes) a b := by
  induction nodes generalizing a with
  | nil =>
      obtain rfl : a = b := htiles
      exact .nil t a
  | cons n nodes ih =>
      obtain ⟨hn, hnodes⟩ := List.forall_mem_cons.mp h
      obtain ⟨rfl, -, hrest⟩ := htiles
      exact (hn story).append (ih hrest hnodes)

/-- A part that holds no others is covered by its only stretch. -/
lemma covered_of_isLeaf (h : n.Lossless t) (hn : n.isLeaf = true) : n.Covered t := by
  intro story
  cases h with
  | text hslice => exact .text hslice
  | comment hslice =>
      have hloud := isLoud_of_slice? hslice (c := '<') (by simp) (by decide)
      exact .singleton hloud (Nat.le_of_lt hloud.lt)
  | expression _ hslice => exact .loud (isLoud_of_slice? hslice List.mem_cons_self (by decide))
  | tag hslice => exact .loud (isLoud_of_slice? hslice List.mem_cons_self (by decide))
  | element _ _ _ _ | snippet _ _ _ | block _ _ _ _ => exact absurd hn Bool.false_ne_true

/-- Comments, code, tags and text hold no other parts. -/
lemma isLeaf_of_readNode {read : ExpressionReader} {form : NodeForm}
    (h : readNode read children form p = .ok (n, q)) (helement : form ≠ .element)
    (hblock : form ≠ .block) : n.isLeaf = true := by
  cases form with
  | comment =>
      simp only [readNode, readComment] at h
      split at h
      · obtain ⟨rfl, -⟩ := Prod.mk.inj (Except.ok.inj h)
        rfl
      · simp at h
  | tag =>
      simp only [readNode, readTag, bind_eq_ok_iff, pure_eq_ok_iff, Prod.mk.injEq] at h
      obtain ⟨_, -, rfl, -⟩ := h
      rfl
  | expression =>
      simp only [readNode, readExpressionTag, bind_eq_ok_iff, pure_eq_ok_iff,
        Prod.mk.injEq] at h
      obtain ⟨_, -, rfl, -⟩ := h
      rfl
  | text =>
      obtain ⟨rfl, -⟩ := Prod.mk.inj (Except.ok.inj h)
      rfl
  | element => exact absurd rfl helement
  | block => exact absurd rfl hblock

/-- Behind what an element holds its closing tag stands, if it holds anything. -/
lemma readContent_covers {name : List Char} {selfClosing : Bool} {opening inside : Place}
    {f : Fragment} (hsound : children.Sound t) (hcovers : children.Covers t)
    (hp : (start t).Reaches inside)
    (h : readContent children name selfClosing opening inside = .ok (f, q)) :
    f.nodes = [] ∨ f.span.start = inside.offset ∧ IsLoud t ⟨f.span.stop, q.offset⟩
      ∧ ∀ story, Covers t (stretchesOf story f.nodes) f.span.start f.span.stop := by
  simp only [readContent] at h
  split_ifs at h with hempty hraw
  · simp only [Except.ok.injEq, Prod.mk.injEq] at h
    obtain ⟨rfl, -⟩ := h
    exact Or.inl rfl
  · split at h
    · simp at h
    · rename_i data rest hsplit
      simp only [bind_eq_ok_iff, pure_eq_ok_iff, Prod.mk.injEq] at h
      obtain ⟨q, hclosing, rfl, rfl⟩ := h
      obtain ⟨hrest, hopen⟩ := eq_append_of_splitAtFirst hsplit
      have hdata := reads_after hrest
      have hstop : ['<', '/'] <+: (inside.after data).rest := by
        rw [← List.append_cancel_left (hrest.symm.trans hdata.1)]
        exact (List.prefix_append ['<', '/'] name).trans hopen
      obtain ⟨closing, hreads, _, rfl, -⟩ := reads_readClosingTag hstop hclosing
      have hloud := isLoud_of_reads (hp.trans hdata.reaches) hreads (by decide)
      refine Or.inr ⟨rfl, hloud, fun story => ?_⟩
      rw [stretchesOf, stretchesOf, List.append_nil]
      exact .text (slice?_of_reads hp hdata)
  · rw [bind_eq_ok_iff] at h
    obtain ⟨⟨nodes, stop⟩, hnodes, h⟩ := h
    simp only [bind_eq_ok_iff, pure_eq_ok_iff, Prod.mk.injEq] at h
    obtain ⟨q, hclosing, rfl, rfl⟩ := h
    obtain ⟨hread, hstop⟩ := hsound hp hnodes
    obtain ⟨closing, hreads, _, rfl, -⟩ := reads_readClosingTag hstop hclosing
    have hloud := isLoud_of_reads (hp.trans hread.reaches) hreads (by decide)
    exact Or.inr ⟨rfl, hloud, covers_stretchesOf hread.tiles (hcovers hp hnodes)⟩

lemma readElement_covers {read : ExpressionReader} (hsound : children.Sound t)
    (hcovers : children.Covers t) (hp : (start t).Reaches p) (hopen : p.rest.head? = some '<')
    (h : readElement read children p = .ok (n, q)) :
    Covers t (n.stretches story) p.offset q.offset := by
  simp only [readElement, bind_eq_ok_iff, pure_eq_ok_iff, Prod.mk.injEq] at h
  obtain ⟨⟨⟨attributes, selfClosing⟩, inside⟩, hattributes, ⟨f, q⟩, hcontent, rfl, rfl⟩ := h
  have hname : p.Reads ('<' :: (p.after ['<']).run isElementNamePart)
      (p.after ('<' :: (p.after ['<']).run isElementNamePart)) := by
    have hhead := reads_head hopen
    refine reads_of_startsWith ?_
    rw [hhead.1]
    simpa [run] using List.takeWhile_prefix _
  obtain ⟨behind, hbehind⟩ := readAttributes_reaches hattributes
  have hopening := hname.trans hbehind
  have hinside := hp.trans hopening.reaches
  obtain ⟨rest, hrest⟩ := (readContent_spec hsound hinside hcontent).1
  rw [Node.stretches, Markup.Element.stretches_eq]
  rcases readContent_covers hsound hcovers hinside hcontent with hnil | ⟨hstart, hclose, hcover⟩
  · rw [if_pos hnil]
    exact .head (isLoud_of_reads hp (hopening.trans hrest) (by decide)) rfl
  · have hloud : IsLoud t ⟨p.offset, f.span.start⟩ :=
      hstart ▸ isLoud_of_reads hp hopening (by decide)
    split_ifs with hnil
    · exact .head (isLoud_of_reads hp (hopening.trans hrest) (by decide)) rfl
    · exact (Covers.head hloud rfl).append ((hcover _).append (.loud hclose))

lemma readBranches_covers {kind : List Char} {fuel : Nat} {branches : List Fragment} {start : Nat}
    (hsound : children.Sound t) (hcovers : children.Covers t) (hp : (Place.start t).Reaches p)
    (hstart : IsLoud t ⟨start, p.offset⟩)
    (h : readBranches children kind fuel p = .ok (branches, q)) :
    Covers t (stretchesOfBranches story start q.offset branches) start q.offset := by
  induction fuel generalizing p branches start with
  | zero => simp [readBranches] at h
  | succ fuel ih =>
      rw [readBranches, bind_eq_ok_iff] at h
      obtain ⟨⟨nodes, clause⟩, hnodes, h⟩ := h
      rw [bind_eq_ok_iff] at h
      obtain ⟨⟨code, behind⟩, hcode, h⟩ := h
      have hread := (hsound hp hnodes).1
      have hclause := (reads_braced hcode).1
      have hloud := isLoud_of_reads (hp.trans hread.reaches) hclause (by decide)
      have hcover := covers_stretchesOf hread.tiles (hcovers hp hnodes) story
      dsimp only at h
      split at h
      · split_ifs at h
        · simp only [pure_eq_ok_iff, Prod.mk.injEq] at h
          obtain ⟨rfl, rfl⟩ := h
          rw [stretchesOfBranches, stretchesOfBranches]
          exact .cons_loud hstart (hcover.append (.loud hloud))
        · simp at h
      · simp only [bind_eq_ok_iff, pure_eq_ok_iff, Prod.mk.injEq] at h
        obtain ⟨⟨branches, stop⟩, hbranches, rfl, rfl⟩ := h
        rw [stretchesOfBranches]
        have hrest := ih ((hp.trans hread.reaches).trans hclause.reaches) hloud hbranches
        exact .cons_loud hstart (hcover.append hrest)

lemma readSnippet_covers {header : Header} {inside : Place} (hsound : children.Sound t)
    (hcovers : children.Covers t) (hinside : (start t).Reaches inside)
    (hopening : IsLoud t (p.spanTo inside))
    (h : readSnippet children header p inside = .ok (n, q)) :
    Covers t (n.stretches story) p.offset q.offset := by
  simp only [readSnippet] at h
  split_ifs at h
  · exact absurd h error_bind_ne_ok
  rw [bind_eq_ok_iff] at h
  obtain ⟨⟨nodes, clause⟩, hnodes, h⟩ := h
  dsimp only at h
  split_ifs at h
  · exact absurd h error_bind_ne_ok
  rw [bind_eq_ok_iff] at h
  obtain ⟨⟨code, behind⟩, hcode, h⟩ := h
  dsimp only at h
  split_ifs at h
  · exact absurd h error_bind_ne_ok
  simp only [pure_eq_ok_iff, Prod.mk.injEq] at h
  obtain ⟨rfl, rfl⟩ := h
  have hread := (hsound hinside hnodes).1
  have hclose := isLoud_of_reads (hinside.trans hread.reaches) (reads_braced hcode).1 (by decide)
  have hcover := covers_stretchesOf hread.tiles (hcovers hinside hnodes) none
  rw [Node.stretches, Markup.Snippet.stretches_eq, stretchesOfBranches, stretchesOfBranches]
  exact .cons_loud hopening (hcover.append (.loud hclose))

lemma readBlock_covers (hsound : children.Sound t) (hcovers : children.Covers t)
    (hp : (start t).Reaches p) (h : readBlock children p = .ok (n, q)) :
    Covers t (n.stretches story) p.offset q.offset := by
  rw [readBlock, bind_eq_ok_iff] at h
  obtain ⟨⟨code, inside⟩, hcode, h⟩ := h
  have hreads := (reads_braced hcode).1
  have hinside := hp.trans hreads.reaches
  have hopening := isLoud_of_reads hp hreads (by decide)
  dsimp only at h
  split_ifs at h
  · exact readSnippet_covers hsound hcovers hinside hopening h
  · simp only [bind_eq_ok_iff, pure_eq_ok_iff, Prod.mk.injEq] at h
    obtain ⟨⟨branches, q⟩, hbranches, rfl, rfl⟩ := h
    rw [Node.stretches, Markup.Block.stretches_eq]
    exact readBranches_covers hsound hcovers hinside hopening hbranches
  · simp at h

/-- A part is covered if the parts inside are. -/
lemma readNode_covers {read : ExpressionReader} {form : NodeForm} (hsound : children.Sound t)
    (hcovers : children.Covers t) (hp : (start t).Reaches p)
    (hform : beginning p.rest = .node form)
    (h : readNode read children form p = .ok (n, q)) : n.Covered t := by
  have hagrees := agrees_beginning p.rest
  rw [hform] at hagrees
  obtain ⟨-, hspan, hlossless⟩ := readsNode_readNode hsound hp hform h
  by_cases hleaf : form ≠ .element ∧ form ≠ .block
  · exact covered_of_isLeaf hlossless (isLeaf_of_readNode h hleaf.1 hleaf.2)
  · intro story
    rw [hspan]
    cases form with
    | element => exact readElement_covers hsound hcovers hp hagrees h
    | block => exact readBlock_covers hsound hcovers hp h
    | comment | tag | expression | text => exact absurd (by decide) hleaf

end

/-- The reader of templates gives parts whose stretches cover their places. -/
theorem covers_readNodes (t : List Char) (read : ExpressionReader) (fuel : Nat) :
    (readNodes read fuel).Covers t :=
  forall_mem_of_readNodes (fun _ _ _ _ _ hsound hcovers hp hform hnode =>
    readNode_covers hsound hcovers hp hform hnode) fuel

/-- So does the reader of whole texts. -/
theorem readTemplate_covers {read : ExpressionReader} {t : List Char} {nodes : List Node}
    (h : readTemplate read t = .ok nodes) : ∀ n ∈ nodes, n.Covered t := by
  rw [readTemplate, map_eq_ok_iff] at h
  obtain ⟨⟨nodes, q⟩, hnodes, rfl⟩ := h
  exact covers_readNodes t read _ (.refl _) hnodes

end SvelteStories
