/-
All elements of a tree:

* `Node.Every`: a property of all elements in a part of a template, however deep they stand;
* `NodeReader.Gives`: a reader gives only parts all of whose elements have a property. There is a
  lemma for each form of parts that holds others;
* `gives_readNodes`: so does the reader of templates, if reading an element gives the property;
* `readDocument_openingTags`: every opening tag of a component file is read without loss.
-/
import SvelteStories.Proofs.Markup.TagText

namespace SvelteStories.Markup

open Place

/-- All elements in a part of a template have a property. -/
inductive Node.Every (P : Element → Prop) : Node → Prop
  /-- Text holds none. -/
  | text {span : Span} {data : List Char} : Every P (.text span data)
  /-- Neither does a comment. -/
  | comment {span : Span} {data : List Char} : Every P (.comment span data)
  /-- An element is one, and holds others. -/
  | element {e : Element} : P e → (∀ n ∈ e.fragment.nodes, Every P n) → Every P (.element e)
  /-- Code holds none. -/
  | expression {span code : Span} : Every P (.expression span code)
  /-- A snippet holds those of its body. -/
  | snippet {s : Snippet} : (∀ n ∈ s.body.nodes, Every P n) → Every P (.snippet s)
  /-- A block holds those of its branches. -/
  | block {b : Block} : (∀ f ∈ b.branches, ∀ n ∈ f.nodes, Every P n) → Every P (.block b)
  /-- A tag in braces holds none. -/
  | tag {span code : Span} {kind : List Char} : Every P (.tag span kind code)

/-- A reader gives only parts all of whose elements have a property. -/
def NodeReader.Gives (t : List Char) (P : Element → Prop) (children : NodeReader) : Prop :=
  ∀ ⦃enclosure p nodes q⦄, (start t).Reaches p → children enclosure p = .ok (nodes, q) →
    ∀ n ∈ nodes, n.Every P

section

variable {t : List Char} {P : Element → Prop} {read : ExpressionReader} {children : NodeReader}
  {p q : Place} {n : Node}

section

variable (hsound : children.Sound t) (hgives : children.Gives t P)

include hgives

lemma every_readContent {name : List Char} {selfClosing : Bool} {opening inside : Place}
    {f : Fragment} (hp : (start t).Reaches inside)
    (h : readContent children name selfClosing opening inside = .ok (f, q)) :
    ∀ n ∈ f.nodes, n.Every P := by
  simp only [readContent] at h
  split_ifs at h
  · obtain ⟨rfl, -⟩ := Prod.mk.inj (Except.ok.inj h)
    simp
  · split at h
    · simp at h
    · simp only [bind_eq_ok_iff, pure_eq_ok_iff, Prod.mk.injEq] at h
      obtain ⟨_, -, rfl, -⟩ := h
      simpa using Node.Every.text
  · simp only [bind_eq_ok_iff, pure_eq_ok_iff, Prod.mk.injEq] at h
    obtain ⟨⟨nodes, stop⟩, hnodes, _, -, rfl, -⟩ := h
    exact hgives hp hnodes

lemma every_readSnippet {header : Header} {inside : Place} (hp : (start t).Reaches inside)
    (h : readSnippet children header p inside = .ok (n, q)) : n.Every P := by
  simp only [readSnippet] at h
  split_ifs at h
  · exact absurd h error_bind_ne_ok
  rw [bind_eq_ok_iff] at h
  obtain ⟨⟨nodes, clause⟩, hnodes, h⟩ := h
  dsimp only at h
  split_ifs at h
  · exact absurd h error_bind_ne_ok
  rw [bind_eq_ok_iff] at h
  obtain ⟨⟨code, q'⟩, -, h⟩ := h
  dsimp only at h
  split_ifs at h
  · exact absurd h error_bind_ne_ok
  obtain ⟨rfl, -⟩ := Prod.mk.inj (pure_eq_ok_iff.mp h)
  exact .snippet (hgives hp hnodes)

include hsound

lemma every_readBranches {kind : List Char} {fuel : Nat} {branches : List Fragment}
    (hp : (start t).Reaches p) (h : readBranches children kind fuel p = .ok (branches, q)) :
    ∀ f ∈ branches, ∀ n ∈ f.nodes, n.Every P := by
  induction fuel generalizing p branches with
  | zero => simp [readBranches] at h
  | succ fuel ih =>
      rw [readBranches, bind_eq_ok_iff] at h
      obtain ⟨⟨nodes, clause⟩, hnodes, h⟩ := h
      rw [bind_eq_ok_iff] at h
      obtain ⟨⟨code, behind⟩, hcode, h⟩ := h
      have hfirst := hgives hp hnodes
      have hclause := hp.trans (hsound hp hnodes).1.reaches
      dsimp only at h
      split at h
      · split_ifs at h
        · obtain ⟨rfl, -⟩ := Prod.mk.inj (pure_eq_ok_iff.mp h)
          simpa using hfirst
        · simp at h
      · simp only [bind_eq_ok_iff, pure_eq_ok_iff, Prod.mk.injEq] at h
        obtain ⟨⟨branches, stop⟩, hbranches, rfl, rfl⟩ := h
        have hrest := ih (hclause.trans (reads_braced hcode).1.reaches) hbranches
        exact List.forall_mem_cons.mpr ⟨hfirst, hrest⟩

lemma every_readBlock (hp : (start t).Reaches p) (h : readBlock children p = .ok (n, q)) :
    n.Every P := by
  rw [readBlock, bind_eq_ok_iff] at h
  obtain ⟨⟨code, inside⟩, hcode, h⟩ := h
  have hinside := hp.trans (reads_braced hcode).1.reaches
  dsimp only at h
  split_ifs at h
  · exact every_readSnippet hgives hinside h
  · simp only [bind_eq_ok_iff, pure_eq_ok_iff, Prod.mk.injEq] at h
    obtain ⟨⟨branches, stop⟩, hbranches, rfl, -⟩ := h
    exact .block (every_readBranches hsound hgives hinside hbranches)
  · simp at h

end

/-- Reading an element gives it a property. -/
def ReadingGives (t : List Char) (read : ExpressionReader) (P : Element → Prop) : Prop :=
  ∀ ⦃children p e q⦄, (start t).Reaches p → p.rest.head? = some '<' →
    readElement read children p = .ok (.element e, q) → P e

lemma every_readNode {form : NodeForm} (hP : ReadingGives t read P) (hsound : children.Sound t)
    (hgives : children.Gives t P) (hp : (start t).Reaches p)
    (hform : beginning p.rest = .node form) (h : readNode read children form p = .ok (n, q)) :
    n.Every P := by
  have hagrees := agrees_beginning p.rest
  rw [hform] at hagrees
  cases form with
  | comment =>
      simp only [readNode, readComment] at h
      split at h
      · obtain ⟨rfl, -⟩ := Prod.mk.inj (Except.ok.inj h)
        exact .comment
      · simp at h
  | element =>
      have helement := h
      simp only [readNode, readElement, bind_eq_ok_iff, pure_eq_ok_iff, Prod.mk.injEq] at h
      obtain ⟨⟨⟨attributes, selfClosing⟩, inside⟩, hattributes, ⟨f, q⟩, hcontent, rfl, rfl⟩ := h
      have hinside := (hp.trans (reads_elementName hagrees).reaches).trans
        (readAttributes_reaches hattributes)
      exact .element (hP hp hagrees helement) (every_readContent hgives hinside hcontent)
  | block => exact every_readBlock hsound hgives hp h
  | tag =>
      simp only [readNode, readTag, bind_eq_ok_iff, pure_eq_ok_iff, Prod.mk.injEq] at h
      obtain ⟨_, -, rfl, -⟩ := h
      exact .tag
  | expression =>
      simp only [readNode, readExpressionTag, bind_eq_ok_iff, pure_eq_ok_iff, Prod.mk.injEq] at h
      obtain ⟨_, -, rfl, -⟩ := h
      exact .expression
  | text =>
      obtain ⟨rfl, -⟩ := Prod.mk.inj (Except.ok.inj h)
      exact .text

/-- The reader of templates gives all elements a property that reading one gives. -/
lemma gives_readNodes (hP : ReadingGives t read P) (fuel : Nat) :
    NodeReader.Gives t P (readNodes read fuel) :=
  forall_mem_of_readNodes (fun _ _ _ _ _ hsound hgives hp hform hnode =>
    every_readNode hP hsound hgives hp hform hnode) fuel

end

end SvelteStories.Markup

namespace SvelteStories

open Markup

/-- **Opening tags.** In a component file that is read, every element has its name, all that stands in
its opening tag and the end of the tag one behind the other, with nothing but ASCII blanks between
them; and each attribute is what is written at its place. A quoted value is the text and the code
between the quotes. -/
theorem readDocument_openingTags {source : Source} {doc : Document}
    (h : readDocument source = .ok doc) :
    ∃ nodes, readTemplate readAttributeExpression source.text = .ok nodes
      ∧ doc.fragment.nodes = nodes.filter (fun n =>
          (n.elementNamed? "script").isNone && (n.elementNamed? "style").isNone)
      ∧ ∀ n ∈ nodes, n.Every (Element.OpensIn source readAttributeExpression) := by
  obtain ⟨nodes, hnodes, -, -, -, hfragment⟩ := readDocument_lossless h
  refine ⟨nodes, hnodes, by rw [hfragment], ?_⟩
  rw [readTemplate, map_eq_ok_iff] at hnodes
  obtain ⟨⟨nodes, q⟩, hread, rfl⟩ := hnodes
  refine gives_readNodes (fun _ _ _ _ hp hopen helement => ?_) _ (.refl _) hread
  exact opensIn_readElement hp hopen helement

/-- A component file with all kinds of quoted values, a directive, a spread and an element that
closes itself behind a value without quotes. -/
def taggedComponent : Source :=
  ⟨"Tagged.svelte", ("<A\n b=\"c\x7b d \x7de\x7bf\x7d\"".toList
    ++ " g='' h = \"\x7b i \x7d\" on:j \x7b...k\x7d >".toList
    ++ "<l m='n' o=p/></A>".toList)⟩

theorem taggedComponent_openingTags :
    ∃ doc, readDocument taggedComponent = .ok doc ∧ ∃ nodes,
      readTemplate readAttributeExpression taggedComponent.text = .ok nodes
      ∧ doc.fragment.nodes = nodes.filter (fun n =>
          (n.elementNamed? "script").isNone && (n.elementNamed? "style").isNone)
      ∧ ∀ n ∈ nodes, n.Every (Element.OpensIn taggedComponent readAttributeExpression) := by
  have hok : (readDocument taggedComponent).isOk = true := by
    unfold taggedComponent
    repeat rewrite [String.toList_ofList]
    decide +kernel
  cases hdoc : readDocument taggedComponent with
  | error _ => simp [hdoc, Except.isOk, Except.toBool] at hok
  | ok doc => exact ⟨doc, rfl, readDocument_openingTags hdoc⟩

end SvelteStories
