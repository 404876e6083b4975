/-
Components with markup between their tags:

* `readDocument_component`: a component holds the parts of the markup between its tags;
* `components_misread`: the names of elements that may hold nothing, or nothing but text, are told
  without regard to the case of letters. Components of these names are read as such elements, though
  a capital letter says that they are none.
-/
import SvelteStories.Proofs.Markup.Pieces

namespace SvelteStories

namespace Markup

/-- What is left of a tree with one element says what the element is. -/
lemma eq_of_outlines_element {nodes parts : List Node} {span content : Span} {kind : ElementKind}
    {name : List Char} {selfClosing : Bool}
    (h : outlines id nodes
      = [.element ⟨span, kind, name, [], ⟨content, parts⟩, selfClosing⟩]) :
    ∃ inner, nodes = [.element ⟨span, kind, name, [], ⟨content, inner⟩, selfClosing⟩]
      ∧ outlines id inner = parts := by
  rw [outlines_eq_map, List.map_eq_singleton_iff] at h
  obtain ⟨n, rfl, hn⟩ := h
  cases n with
  | element e =>
      obtain ⟨span', kind', name', attributes, ⟨content', inner⟩, selfClosing'⟩ := e
      simp only [Node.outline, Element.outline, Fragment.outline, Span.mapEnds_id,
        Node.element.injEq, Element.mk.injEq, Fragment.mk.injEq, List.map_eq_nil_iff] at hn
      obtain ⟨rfl, rfl, rfl, rfl, ⟨rfl, hinner⟩, rfl⟩ := hn
      exact ⟨inner, rfl, hinner⟩
  | text _ _ | comment _ _ | expression _ _ | snippet _ | block _ | tag _ _ _ =>
      simp [Node.outline] at hn

end Markup

open Markup

/-- Markup between the tags of an element without attributes. -/
def enclosed (name markup : List Char) : List Char :=
  '<' :: name ++ '>' :: (markup ++ closingTag name)

/-- A component holds the parts of the markup between its tags, unless its name is, up to the case
of letters, that of an element that holds nothing, or nothing but text. -/
theorem readDocument_component (filename : String) {name markup : List Char} {nodes : List Node}
    (hname : IsElementName name) (hkind : ElementKind.ofName name = .component)
    (hvoid : name.map Char.toLower ∉ voidElements) (hraw : name.map Char.toLower ∉ rawTextElements)
    (h : readTemplate readAttributeExpression markup = .ok nodes) :
    ∃ inner, readDocument ⟨filename, enclosed name markup⟩
        = .ok ⟨⟨filename, enclosed name markup⟩, ⟨none, none⟩, [],
          ⟨⟨0, byteLength (enclosed name markup)⟩,
            [.element ⟨⟨0, byteLength (enclosed name markup)⟩, .component, name, [],
              ⟨⟨byteLength name + 2, byteLength name + 2 + byteLength markup⟩, inner⟩, false⟩]⟩⟩
      ∧ outlines id inner = outlines (· + (byteLength name + 2)) nodes := by
  let tag := OpeningTag.ofName readAttributeExpression hname hvoid hraw
  let content : Standing readAttributeExpression := ⟨markup, nodes, h⟩
  have hclosed := tag.closed_around placeFree_readAttributeExpression
    (content.readable placeFree_readAttributeExpression)
  have htext : (tag.around content.piece).text = enclosed name markup := by
    simp [tag, content, enclosed, OpeningTag.around, OpeningTag.text, OpeningTag.ofName,
      Standing.piece]
  have hinside : byteLength tag.text = byteLength name + 2 := by
    have hopen : '<'.utf8Size = 1 := by decide
    have hclose : '>'.utf8Size = 1 := by decide
    simp only [tag, OpeningTag.text, OpeningTag.ofName, byteLength_append, byteLength_cons,
      byteLength_nil, hopen, hclose]
    omega
  obtain ⟨all, hall, hparts⟩ := hclosed.readable.readTemplate
  rw [htext] at hall
  have helement : outlines id all = [.element ⟨⟨0, byteLength (enclosed name markup)⟩, .component,
      name, [], ⟨⟨byteLength name + 2, byteLength name + 2 + byteLength markup⟩,
        outlines (· + (byteLength name + 2)) nodes⟩, false⟩] := by
    rw [hparts]
    simp only [OpeningTag.around, Nat.zero_add, hinside] at htext ⊢
    rw [htext, ← hkind]
    rfl
  obtain ⟨inner, rfl, hinner⟩ := eq_of_outlines_element helement
  refine ⟨inner, readDocument_of_readTemplate filename hall ?_, hinner⟩
  -- the names of scripts and styles are among those of elements that hold text
  refine List.forall_mem_singleton.mpr ⟨if_neg ?_, if_neg ?_⟩
  all_goals
    rintro rfl
    exact hraw (by decide)

/-- An element and code. -/
def elementAndCode : List Char :=
  "<p>a</p>\x7bb\x7d".toList

/-- A component with an element and code between its tags. -/
theorem readDocument_story :
    IsElementName "Story".toList ∧ ElementKind.ofName "Story".toList = .component
      ∧ "Story".toList.map Char.toLower ∉ voidElements
      ∧ "Story".toList.map Char.toLower ∉ rawTextElements
      ∧ ∃ nodes, readTemplate readAttributeExpression elementAndCode = .ok nodes
        ∧ ∃ inner, readDocument ⟨"A.svelte", enclosed "Story".toList elementAndCode⟩
            = .ok ⟨⟨"A.svelte", enclosed "Story".toList elementAndCode⟩, ⟨none, none⟩, [],
              ⟨⟨0, byteLength (enclosed "Story".toList elementAndCode)⟩,
                [.element ⟨⟨0, byteLength (enclosed "Story".toList elementAndCode)⟩, .component,
                  "Story".toList, [], ⟨⟨byteLength "Story".toList + 2,
                    byteLength "Story".toList + 2 + byteLength elementAndCode⟩, inner⟩, false⟩]⟩⟩
          ∧ outlines id inner = outlines (· + (byteLength "Story".toList + 2)) nodes := by
  have hname : IsElementName "Story".toList :=
    ⟨'S', "tory".toList, by decide, by decide, by decide⟩
  have hok : (readTemplate readAttributeExpression elementAndCode).isOk = true := by
    decide +kernel
  cases hnodes : readTemplate readAttributeExpression elementAndCode with
  | error _ =>
      rw [hnodes] at hok
      exact absurd hok Bool.false_ne_true
  | ok nodes =>
      exact ⟨hname, by decide, by decide, by decide, nodes, rfl,
        readDocument_component "A.svelte" hname (by decide) (by decide) (by decide) hnodes⟩

/-- A component of the name of an element that holds nothing is not read if it holds something. One
of the name of an element that holds text has code as its text. -/
theorem components_misread :
    (IsElementName "Link".toList ∧ ElementKind.ofName "Link".toList = .component
      ∧ (readTemplate readAttributeExpression "a".toList).isOk = true
      ∧ ∀ d, readDocument ⟨"A.svelte", enclosed "Link".toList "a".toList⟩ ≠ .ok d)
    ∧ (IsElementName "Style".toList ∧ ElementKind.ofName "Style".toList = .component
      ∧ readTemplate readAttributeExpression "\x7ba\x7d".toList
        = .ok [.expression ⟨0, 3⟩ ⟨1, 2⟩]
      ∧ ∃ d, readDocument ⟨"A.svelte", enclosed "Style".toList "\x7ba\x7d".toList⟩ = .ok d
        ∧ d.fragment.nodes = [.element ⟨⟨0, 18⟩, .component, "Style".toList, [],
          ⟨⟨7, 10⟩, [.text ⟨7, 10⟩ "\x7ba\x7d".toList]⟩, false⟩]) := by
  refine ⟨⟨⟨'L', "ink".toList, by decide, by decide, by decide⟩, by decide, by decide +kernel,
    fun d hd => ?_⟩, ⟨'S', "tyle".toList, by decide, by decide, by decide⟩, by decide,
    rfl, _, rfl, rfl⟩
  have hfails : (readDocument ⟨"A.svelte", enclosed "Link".toList "a".toList⟩).isOk = false := by
    decide +kernel
  rw [hd] at hfails
  cases hfails

end SvelteStories
