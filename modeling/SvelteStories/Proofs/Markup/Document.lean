/-
Component files without their scripts and styles:

* `readDocument_of_readTemplate`: a component file that has none holds the parts of its template;
* `readTemplate_lossless`: the parts of a template cover its text and lose nothing of it;
* `readDocument_lossless`: so do those of a component file, before its scripts and its styles are
  taken out.
-/
import SvelteStories.Markup.Document
import SvelteStories.Proofs.Markup.Lossless

namespace SvelteStories

open Markup

namespace Markup

/-- The parts of a template cover its text and lose nothing of it. -/
theorem readTemplate_lossless {read : ExpressionReader} {t : List Char} {nodes : List Node}
    (h : readTemplate read t = .ok nodes) :
    Tiles (nodes.map Node.span) 0 (byteLength t) ∧ ∀ n ∈ nodes, n.Lossless t := by
  rw [readTemplate, map_eq_ok_iff] at h
  obtain ⟨⟨nodes, q⟩, hnodes, rfl⟩ := h
  obtain ⟨hread, hend⟩ := sound_readNodes t read _ (.refl _) hnodes
  have hstop : q.offset = byteLength t := by
    obtain ⟨s, hs, hoffset⟩ := hread.reaches
    rw [hend, List.append_nil] at hs
    subst hs
    simpa [Place.start] using hoffset
  exact ⟨hstop ▸ hread.tiles, hread.lossless⟩

/-- A part that is no script and no style. -/
def Node.IsTemplate (n : Node) : Prop :=
  n.elementNamed? "script" = none ∧ n.elementNamed? "style" = none

/-- A component file without scripts and styles holds the parts of its template. -/
lemma readDocument_of_readTemplate (name : String) {t : List Char} {nodes : List Node}
    (h : readTemplate readAttributeExpression t = .ok nodes) (hnodes : ∀ n ∈ nodes, n.IsTemplate) :
    readDocument ⟨name, t⟩
      = .ok ⟨⟨name, t⟩, ⟨none, none⟩, [], ⟨⟨0, byteLength t⟩, nodes⟩⟩ := by
  have hscripts : nodes.filterMap (Node.elementNamed? "script") = [] :=
    List.filterMap_eq_nil_iff.mpr fun n hn => (hnodes n hn).1
  have hstyles : nodes.filterMap (Node.elementNamed? "style") = [] :=
    List.filterMap_eq_nil_iff.mpr fun n hn => (hnodes n hn).2
  have hkept : nodes.filter (fun n =>
      (n.elementNamed? "script").isNone && (n.elementNamed? "style").isNone) = nodes :=
    List.filter_eq_self.mpr fun n hn => by simp [(hnodes n hn).1, (hnodes n hn).2]
  simp only [readDocument, h, Except.mapError, ok_bind, hscripts, hstyles, hkept, List.foldlM_nil]
  rfl

end Markup

/-- The parts of a component file cover its text and lose nothing of it. What the file keeps are
these parts without the scripts and styles among them. -/
theorem readDocument_lossless {source : Source} {doc : Document}
    (h : readDocument source = .ok doc) :
    ∃ nodes, readTemplate readAttributeExpression source.text = .ok nodes
      ∧ Tiles (nodes.map Node.span) 0 source.length
      ∧ (∀ n ∈ nodes, n.Lossless source.text)
      ∧ doc.styles = (nodes.filterMap (Node.elementNamed? "style")).map Element.span
      ∧ doc.fragment = ⟨⟨0, source.length⟩, nodes.filter fun n =>
          (n.elementNamed? "script").isNone && (n.elementNamed? "style").isNone⟩ := by
  simp only [readDocument, bind_eq_ok_iff, mapError_eq_ok_iff, pure_eq_ok_iff] at h
  obtain ⟨nodes, hnodes, scripts, -, rfl⟩ := h
  obtain ⟨htiles, hlossless⟩ := readTemplate_lossless hnodes
  exact ⟨nodes, hnodes, htiles, hlossless, rfl, rfl⟩

/-- A component file with an element, a script, a void element, a block of two branches, a comment
and code. -/
def mixedComponent : Source :=
  ⟨"Mixed.svelte", ("<p title='a'>b</p ><script></script>".toList
    ++ "\x7b#if c\x7d<br>\x7b:else\x7d<!--d-->\x7be\x7d\x7b/if \x7d".toList)⟩

theorem mixedComponent_lossless :
    ∃ doc, readDocument mixedComponent = .ok doc ∧ ∃ nodes,
      readTemplate readAttributeExpression mixedComponent.text = .ok nodes
      ∧ Tiles (nodes.map Node.span) 0 mixedComponent.length
      ∧ (∀ n ∈ nodes, n.Lossless mixedComponent.text)
      ∧ doc.styles = (nodes.filterMap (Node.elementNamed? "style")).map Element.span
      ∧ doc.fragment = ⟨⟨0, mixedComponent.length⟩, nodes.filter fun n =>
          (n.elementNamed? "script").isNone && (n.elementNamed? "style").isNone⟩ := by
  have hok : (readDocument mixedComponent).isOk = true := by decide +kernel
  cases hdoc : readDocument mixedComponent with
  | error _ => simp [hdoc, Except.isOk, Except.toBool] at hok
  | ok doc => exact ⟨doc, rfl, readDocument_lossless hdoc⟩

end SvelteStories
