/-
Component files in which the text of the module script is replaced:

* `Scripts.add_related`, `foldlM_add_related`: the scripts of two files that hold scripts of the same
  roles;
* `Document.Relocated`: a document whose template stands elsewhere in a file, with the same text under
  it;
* `readDocument_replaceScript`: a file in which the text of the module script is replaced by another
  script is read again, and its template is relocated.
-/
import SvelteStories.Proofs.Markup.Replacement
import SvelteStories.Proofs.Script.Moved
import SvelteStories.Proofs.Story.Walk

namespace SvelteStories

open Script Markup

/-- Two lists that become the same one, element by element. -/
lemma forall₂_of_map_eq {α β γ : Type} {f : α → γ} {g : β → γ} {as : List α} {bs : List β}
    (h : bs.map g = as.map f) : List.Forall₂ (fun a b => a ∈ as ∧ g b = f a) as bs := by
  have hlength : as.length = bs.length := by simpa using (congrArg List.length h).symm
  refine List.forall₂_iff_get.mpr ⟨hlength, fun i ha hb => ⟨List.get_mem _ _, ?_⟩⟩
  have hi := congrArg (·[i]?) h
  simpa [ha, hb] using hi

namespace Markup

variable {m : Nat → Nat} {e e' : Element}

/-! ### Script elements that are moved -/

lemma Node.elementNamed?_outline (name : String) (n : Node) :
    (n.outline m).elementNamed? name = (n.elementNamed? name).map (Element.outline m) := by
  cases n with
  | element e =>
      obtain ⟨span, kind, label, attributes, fragment, selfClosing⟩ := e
      simp only [outline, Element.outline, elementNamed?]
      split_ifs <;> rfl
  | _ => rfl

lemma filterMap_elementNamed?_outlines (name : String) (nodes : List Node) :
    (outlines m nodes).filterMap (Node.elementNamed? name)
      = (nodes.filterMap (Node.elementNamed? name)).map (Element.outline m) := by
  rw [outlines_eq_map, List.filterMap_map, List.map_filterMap]
  exact congrArg (List.filterMap · nodes) (funext (Node.elementNamed?_outline name))

/-- Two opening tags that are the same but for their places have the same named attributes. -/
lemma map_outline_namedAttributes
    (h : e'.attributes.map (AttributeNode.outline id) = e.attributes.map (AttributeNode.outline m)) :
    e'.namedAttributes.map (Attribute.outline id) = e.namedAttributes.map (Attribute.outline m) := by
  have hnamed (m : Nat → Nat) (e : Element) : e.namedAttributes.map (Attribute.outline m)
      = ({ e with attributes := e.attributes.map (AttributeNode.outline m) }).namedAttributes := by
    rw [Element.namedAttributes, Element.namedAttributes, List.map_filterMap, List.filterMap_map]
    refine congrArg (List.filterMap · e.attributes) (funext fun a => ?_)
    cases a <;> rfl
  rw [hnamed, hnamed, Element.namedAttributes, Element.namedAttributes, h]

/-- What is told of named attributes without their places is told of two such tags alike. -/
lemma any_namedAttributes {p : Attribute → Bool}
    (hp : ∀ (m : Nat → Nat) (a : Attribute), p (a.outline m) = p a)
    (h : e'.attributes.map (AttributeNode.outline id) = e.attributes.map (AttributeNode.outline m)) :
    e'.namedAttributes.any p = e.namedAttributes.any p := by
  have hany (m : Nat → Nat) (as : List Attribute) :
      as.any p = (as.map (Attribute.outline m)).any p := by
    rw [List.any_map]
    exact congrArg as.any (funext fun a => (hp m a).symm)
  rw [hany id e'.namedAttributes, hany m e.namedAttributes, map_outline_namedAttributes h]

lemma Attribute.marksModule_outline (m : Nat → Nat) (a : Attribute) :
    (a.outline m).marksModule = a.marksModule := by
  obtain ⟨span, name, value⟩ := a
  cases value <;> rfl

lemma Attribute.marksTypes_outline (m : Nat → Nat) (a : Attribute) :
    (a.outline m).marksTypes = a.marksTypes := by
  obtain ⟨span, name, value⟩ := a
  cases value <;> rfl

lemma Element.scriptRole_eq
    (h : e'.attributes.map (AttributeNode.outline id) = e.attributes.map (AttributeNode.outline m)) :
    e'.scriptRole = e.scriptRole := by
  rw [scriptRole, scriptRole, any_namedAttributes Attribute.marksModule_outline h]

lemma Element.scriptLanguage_eq
    (h : e'.attributes.map (AttributeNode.outline id) = e.attributes.map (AttributeNode.outline m)) :
    e'.scriptLanguage = e.scriptLanguage := by
  rw [scriptLanguage, scriptLanguage, any_namedAttributes Attribute.marksTypes_outline h]

/-! ### Scripts -/

section

variable {source source' : Source} {b : ScriptBlock}

/-- Elements with the same outline have the same opening tag, and their content stands where it is
moved to. -/
lemma Element.parts_of_outline_eq (h : e'.outline id = e.outline m) :
    e'.attributes.map (AttributeNode.outline id) = e.attributes.map (AttributeNode.outline m)
      ∧ e'.fragment.span = e.fragment.span.mapEnds m := by
  obtain ⟨span, kind, name, attributes, ⟨place, nodes⟩, selfClosing⟩ := e
  obtain ⟨span', kind', name', attributes', ⟨place', nodes'⟩, selfClosing'⟩ := e'
  simp only [outline, Fragment.outline, Element.mk.injEq, Fragment.mk.injEq,
    Span.mapEnds_id] at h
  exact ⟨h.2.2.2.1, h.2.2.2.2.1.1⟩

/-- A script that stands elsewhere in another file is read there. -/
lemma readScript_relocated (hsame : e'.outline id = e.outline m)
    (hslice : source'.slice (e.fragment.span.mapEnds m) = source.slice e.fragment.span)
    (h : readScript source e = .ok b) :
    ∃ b', readScript source' e' = .ok b' ∧ b'.role = b.role := by
  obtain ⟨items, hitems, rfl⟩ := readScript_eq_ok_iff.mp h
  obtain ⟨hattributes, hspan⟩ := Element.parts_of_outline_eq hsame
  obtain ⟨items', hitems'⟩ := parseModule_moved hitems e'.fragment.span.start
  rw [← hslice, ← hspan, ← Element.scriptLanguage_eq hattributes] at hitems'
  exact ⟨_, readScript_eq_ok_iff.mpr ⟨items', hitems', rfl⟩, Element.scriptRole_eq hattributes⟩

/-- The script of the module is one of those that are added. -/
lemma exists_of_foldlM_add {es : List Element} {scripts scripts' : Scripts}
    (h : es.foldlM (Scripts.add source) scripts = .ok scripts')
    (hb : scripts'.ofModule = some b) :
    scripts.ofModule = some b
      ∨ ∃ e ∈ es, readScript source e = .ok b ∧ b.role = .ofModule := by
  induction es generalizing scripts with
  | nil =>
      obtain rfl := Except.ok.inj h
      exact Or.inl hb
  | cons e es ih =>
      rw [List.foldlM_cons, bind_eq_ok_iff] at h
      obtain ⟨scripts₁, hadd, h⟩ := h
      rcases ih h with hfirst | ⟨e', he', hread, hrole⟩
      · simp only [Scripts.add, bind_eq_ok_iff] at hadd
        obtain ⟨script, hread, hadd⟩ := hadd
        split at hadd
        · rename_i hrole
          split_ifs at hadd
          obtain rfl := Except.ok.inj hadd
          obtain rfl := Option.some.inj hfirst
          exact Or.inr ⟨e, List.mem_cons_self, hread, hrole⟩
        · split_ifs at hadd
          obtain rfl := Except.ok.inj hadd
          exact Or.inl hfirst
      · exact Or.inr ⟨e', List.mem_cons_of_mem _ he', hread, hrole⟩

/-- The scripts of two files are there or not there alike, and a relation holds between them. -/
structure Scripts.Related (R : ScriptBlock → ScriptBlock → Prop) (s s' : Scripts) : Prop where
  /-- The scripts of the modules. -/
  ofModule : Option.Rel R s.ofModule s'.ofModule
  /-- The scripts of the instances. -/
  ofInstance : Option.Rel R s.ofInstance s'.ofInstance

/-- Two script elements are read as scripts of the same role that a relation holds between. -/
def RelatedScripts (source source' : Source) (R : ScriptBlock → ScriptBlock → Prop)
    (e e' : Element) : Prop :=
  ∀ b, readScript source e = .ok b →
    ∃ b', readScript source' e' = .ok b' ∧ b'.role = b.role ∧ R b b'

variable {R : ScriptBlock → ScriptBlock → Prop}

lemma isSome_eq_of_rel {α β : Type} {R : α → β → Prop} {a : Option α} {b : Option β}
    (h : Option.Rel R a b) : b.isSome = a.isSome := by
  cases h <;> rfl

lemma Scripts.add_related {s s' r : Scripts} (h : RelatedScripts source source' R e e')
    (hs : s.Related R s') (hadd : s.add source e = .ok r) :
    ∃ r', s'.add source' e' = .ok r' ∧ r.Related R r' := by
  simp only [Scripts.add, bind_eq_ok_iff] at hadd
  obtain ⟨b, hb, hadd⟩ := hadd
  obtain ⟨b', hb', hrole, hrelated⟩ := h b hb
  simp only [Scripts.add, hb', ok_bind, hrole]
  split at hadd
  · split_ifs at hadd with hnone
    obtain rfl := Except.ok.inj hadd
    rw [if_neg (by rwa [isSome_eq_of_rel hs.ofModule])]
    exact ⟨_, rfl, .some hrelated, hs.ofInstance⟩
  · split_ifs at hadd with hnone
    obtain rfl := Except.ok.inj hadd
    rw [if_neg (by rwa [isSome_eq_of_rel hs.ofInstance])]
    exact ⟨_, rfl, hs.ofModule, .some hrelated⟩

/-- Script elements that are read alike make scripts that are alike. -/
lemma foldlM_add_related {es es' : List Element} {s s' r : Scripts}
    (h : List.Forall₂ (RelatedScripts source source' R) es es') (hs : s.Related R s')
    (hread : es.foldlM (Scripts.add source) s = .ok r) :
    ∃ r', es'.foldlM (Scripts.add source') s' = .ok r' ∧ r.Related R r' := by
  induction h generalizing s s' with
  | nil =>
      obtain rfl := Except.ok.inj hread
      exact ⟨s', rfl, hs⟩
  | cons he _ ih =>
      rw [List.foldlM_cons, bind_eq_ok_iff] at hread
      obtain ⟨s₁, hadd, hread⟩ := hread
      obtain ⟨s₁', hadd', hs₁⟩ := Scripts.add_related he hs hadd
      obtain ⟨r', hread', hr⟩ := ih hs₁ hread
      exact ⟨r', by rw [List.foldlM_cons, hadd', ok_bind, hread'], hr⟩

/-- An element of a name is one of the parts that it is taken from. -/
lemma elementNamed?_eq_some_iff {name : String} {n : Node} :
    n.elementNamed? name = some e ↔ n = .element e ∧ e.name = name.toList := by
  cases n with
  | element e' =>
      rw [Node.elementNamed?]
      split_ifs with hname
      · rw [Option.some.injEq, Node.element.injEq]
        constructor
        · rintro rfl
          exact ⟨rfl, hname⟩
        · exact And.left
      · rw [Node.element.injEq]
        constructor
        · exact fun h => nomatch h
        · rintro ⟨rfl, h⟩
          exact absurd h hname
  | _ => simp [Node.elementNamed?]

/-- The text under places in a part of a template is kept in another text, where it is moved to. -/
def Node.KeepsText (m : Nat → Nat) (t t' : List Char) (n : Node) : Prop :=
  ∀ span s, n.span.contains span = true → slice? t span = some s →
    slice? t' (span.mapEnds m) = some s

/-- The scripts among parts of a template that stand elsewhere in another file are read there. -/
lemma forall₂_relatedScripts {nodes nodes' : List Node}
    (hsame : outlines id nodes' = outlines m nodes)
    (hnested : ∀ n ∈ nodes, n.Nested source.text)
    (hkeeps : ∀ n ∈ nodes, n.KeepsText m source.text source'.text)
    (hR : ∀ e, .element e ∈ nodes → ∀ b b', b.content = e.fragment.span → R b b') :
    List.Forall₂ (RelatedScripts source source' R)
      (nodes.filterMap (Node.elementNamed? "script"))
      (nodes'.filterMap (Node.elementNamed? "script")) := by
  have hscripts : (nodes'.filterMap (Node.elementNamed? "script")).map (Element.outline id)
      = (nodes.filterMap (Node.elementNamed? "script")).map (Element.outline m) := by
    rw [← filterMap_elementNamed?_outlines, ← filterMap_elementNamed?_outlines, hsame]
  refine (forall₂_of_map_eq hscripts).imp fun e e' hsame b hb => ?_
  obtain ⟨he, houtline⟩ := hsame
  obtain ⟨n, hn, hnamed⟩ := List.mem_filterMap.mp he
  obtain ⟨rfl, -⟩ := elementNamed?_eq_some_iff.mp hnamed
  have hencloses := (hnested _ hn).encloses
  obtain ⟨w, hw⟩ := hencloses.fragmentsInText e.fragment (List.mem_singleton_self _)
  have hw' := hkeeps _ hn _ w (hencloses.contains e.fragment (List.mem_singleton_self _)) hw
  obtain ⟨b', hb', hrole⟩ := readScript_relocated houtline
    (by rw [Source.slice, Source.slice, hw, hw']) hb
  obtain ⟨_, -, rfl⟩ := readScript_eq_ok_iff.mp hb
  exact ⟨b', hb', hrole, hR e hn _ b' rfl⟩

end

/-! ### Templates in their files -/

/-- A document whose template stands elsewhere in a file, with the same text under it. -/
structure Document.Relocated (m : Nat → Nat) (d d' : Document) : Prop where
  /-- The template is the same but for its places, which are moved. -/
  outlines : outlines id d'.fragment.nodes = outlines m d.fragment.nodes
  /-- The text under it is kept. -/
  keepsText : ∀ n ∈ d.fragment.nodes, n.KeepsText m d.source.text d'.source.text

/-- Whether a part of a template is neither a script nor a style. -/
def Node.isKept (n : Node) : Bool :=
  (n.elementNamed? "script").isNone && (n.elementNamed? "style").isNone

lemma Node.isKept_outline (n : Node) : (n.outline m).isKept = n.isKept := by
  simp only [isKept, elementNamed?_outline, Option.isNone_map]

lemma outlines_filter_isKept (nodes : List Node) :
    outlines m (nodes.filter Node.isKept) = (outlines m nodes).filter Node.isKept := by
  rw [outlines_eq_map, outlines_eq_map, List.filter_map]
  exact congrArg (fun p => (nodes.filter p).map (Node.outline m))
    (funext fun n => n.isKept_outline.symm)

/-- A script among parts of a template is not kept. -/
lemma filter_isKept (nodes₁ nodes₂ : List Node) (hname : e.name = "script".toList) :
    (nodes₁ ++ .element e :: nodes₂).filter Node.isKept
      = (nodes₁ ++ nodes₂).filter Node.isKept := by
  have hscript : (Node.element e).isKept = false := by
    rw [Node.isKept, elementNamed?_eq_some_iff.mpr ⟨rfl, hname⟩]
    rfl
  rw [List.filter_append, List.filter_append, List.filter_cons_of_neg (by rw [hscript]; decide)]

/-- Of parts that follow one another, all but one stand apart from what that one holds. -/
lemma apart_of_tiles {t : List Char} {nodes₁ nodes₂ : List Node} {a b : Nat}
    (htiles : Tiles ((nodes₁ ++ .element e :: nodes₂).map Node.span) a b)
    (he : (Node.element e).Nested t) :
    ∀ n ∈ nodes₁ ++ nodes₂, n.span.Apart e.fragment.span := by
  have hcontent : e.span.contains e.fragment.span = true :=
    he.encloses.contains e.fragment (List.mem_singleton_self _)
  have hpairwise := List.pairwise_append.mp (List.pairwise_map.mp htiles.pairwise)
  intro n hn
  have hapart : n.span.Apart e.span := by
    rcases List.mem_append.mp hn with hn | hn
    · exact Or.inl (hpairwise.2.2 n hn _ List.mem_cons_self)
    · exact Or.inr ((List.pairwise_cons.mp hpairwise.2.1).1 n hn)
  exact hapart.mono (Span.contains_refl _) hcontent

/-- What an element that stands apart from a place holds stands elsewhere. -/
lemma ne_of_apart {t : List Char} {s : Span} (he : (Node.element e).Nested t)
    (hapart : e.span.Apart s) (hs : s.start < s.stop) : s ≠ e.fragment.span := by
  rintro rfl
  have hinside := he.encloses.contains e.fragment (List.mem_singleton_self _)
  rcases hapart.mono hinside (Span.contains_refl _) with hle | hle <;> omega

end Markup

section

variable {m : Nat → Nat} {source source' : Source} {d : Document} {e e' : Markup.Element}
  {nodes₁ nodes₂ nodes₁' nodes₂' : List Node} {script script' : ScriptBlock}

/-- The module script of a document is one of the parts of the template. -/
lemma exists_element_of_readDocument (h : readDocument source = .ok d)
    (hscript : d.scripts.ofModule = some script) :
    ∃ nodes₁ e nodes₂,
      readTemplate readAttributeExpression source.text = .ok (nodes₁ ++ .element e :: nodes₂)
        ∧ e.name = "script".toList ∧ readScript source e = .ok script := by
  simp only [readDocument, bind_eq_ok_iff, mapError_eq_ok_iff, pure_eq_ok_iff] at h
  obtain ⟨nodes, hnodes, scripts, hscripts, rfl⟩ := h
  obtain hnone | ⟨e, he, hread, -⟩ := exists_of_foldlM_add hscripts hscript
  · cases hnone
  obtain ⟨n, hn, hnamed⟩ := List.mem_filterMap.mp he
  obtain ⟨rfl, hname⟩ := elementNamed?_eq_some_iff.mp hnamed
  obtain ⟨nodes₁, nodes₂, rfl⟩ := List.append_of_mem hn
  exact ⟨nodes₁, e, nodes₂, hnodes, hname, hread⟩

/-- A file is read whose template is that of another file but for one script. -/
lemma readDocument_relocated (h : readDocument source = .ok d)
    (hscript : d.scripts.ofModule = some script)
    (hnodes : readTemplate readAttributeExpression source.text
      = .ok (nodes₁ ++ .element e :: nodes₂))
    (hnodes' : readTemplate readAttributeExpression source'.text
      = .ok (nodes₁' ++ .element e' :: nodes₂'))
    (hsame₁ : outlines id nodes₁' = outlines m nodes₁)
    (hsame₂ : outlines id nodes₂' = outlines m nodes₂)
    (hname : e.name = "script".toList) (hname' : e'.name = e.name)
    (hread : readScript source e = .ok script) (hread' : readScript source' e' = .ok script')
    (hrole : script'.role = script.role)
    (hlt : script.content.start < script.content.stop)
    (hapart : ∀ n ∈ nodes₁ ++ nodes₂, n.span.Apart script.content)
    (hkeeps : ∀ n ∈ nodes₁ ++ nodes₂, n.KeepsText m source.text source'.text) :
    ∃ d', readDocument source' = .ok d' ∧ d'.scripts.ofModule = some script'
      ∧ d.Relocated m d' := by
  have hnested := readTemplate_nested hnodes
  have hrelated {nodes nodes' : List Node} (hsame : outlines id nodes' = outlines m nodes)
      (hmem : nodes ⊆ nodes₁ ++ nodes₂) (hnested : ∀ n ∈ nodes, n.Nested source.text) :=
    forall₂_relatedScripts (R := fun b b' => b = script → b' = script') hsame hnested
      (fun n hn => hkeeps n (hmem hn)) fun e he b b' hb hscript =>
        absurd (hscript ▸ hb) (ne_of_apart (hnested _ he) (hapart _ (hmem he)) hlt)
  simp only [readDocument, hnodes, Except.mapError, ok_bind, bind_eq_ok_iff, pure_eq_ok_iff] at h
  obtain ⟨scripts, hscripts, rfl⟩ := h
  have hnone : Scripts.Related (fun b b' => b = script → b' = script') ⟨none, none⟩ ⟨none, none⟩ :=
    ⟨.none, .none⟩
  have hhere : RelatedScripts source source' (fun b b' => b = script → b' = script') e e' :=
    fun b hb => ⟨script', hread', hrole.trans (by rw [Except.ok.inj (hread.symm.trans hb)]),
      fun _ => rfl⟩
  have hall : List.Forall₂ (RelatedScripts source source' fun b b' => b = script → b' = script')
      ((nodes₁ ++ .element e :: nodes₂).filterMap (Node.elementNamed? "script"))
      ((nodes₁' ++ .element e' :: nodes₂').filterMap (Node.elementNamed? "script")) := by
    rw [List.filterMap_append, List.filterMap_append,
      List.filterMap_cons_some (elementNamed?_eq_some_iff.mpr ⟨rfl, hname⟩),
      List.filterMap_cons_some (elementNamed?_eq_some_iff.mpr ⟨rfl, hname'.trans hname⟩)]
    exact List.rel_append
      (hrelated hsame₁ (List.subset_append_left _ _) fun n hn =>
        hnested n (List.mem_append_left _ hn))
      (.cons hhere (hrelated hsame₂ (List.subset_append_right _ _) fun n hn =>
        hnested n (List.mem_append_right _ (List.mem_cons_of_mem _ hn))))
  obtain ⟨scripts', hscripts', hmodule, -⟩ := foldlM_add_related hall hnone hscripts
  have hmodule' : scripts'.ofModule = some script' := by
    rw [show scripts.ofModule = some script from hscript] at hmodule
    generalize scripts'.ofModule = found at hmodule
    cases hmodule with
    | some h => rw [h rfl]
  refine ⟨_, by simp only [readDocument, hnodes', Except.mapError, ok_bind, hscripts']; rfl, hmodule',
    ?_, ?_⟩
  · change outlines id ((nodes₁' ++ .element e' :: nodes₂').filter Node.isKept)
      = outlines m ((nodes₁ ++ .element e :: nodes₂).filter Node.isKept)
    rw [filter_isKept _ _ hname, filter_isKept _ _ (hname'.trans hname), outlines_filter_isKept,
      outlines_filter_isKept, outlines_append, outlines_append, hsame₁, hsame₂]
  · intro n hn
    have hn : n ∈ (nodes₁ ++ .element e :: nodes₂).filter Node.isKept := hn
    rw [filter_isKept _ _ hname] at hn
    exact hkeeps n (List.mem_of_mem_filter hn)

end

/-- A script in place of that of the module is read again, and what else is in the file is read as
before. -/
theorem readDocument_replaceScript {source : Source} {d : Document} {script : ScriptBlock}
    {data : List Char} {items : Program} (h : readDocument source = .ok d)
    (hscript : d.scripts.ofModule = some script)
    (hlt : script.content.start < script.content.stop) (hfree : ¬ "</script".toList <:+: data)
    (hparse : parseModule script.language.dialect script.content.start data = .ok items) :
    ∃ before old behind, source.text = before ++ (old ++ behind)
      ∧ script.content = ⟨byteLength before, byteLength before + byteLength old⟩
      ∧ ∃ d' script', readDocument ⟨source.filename, before ++ (data ++ behind)⟩ = .ok d'
        ∧ d'.scripts.ofModule = some script' ∧ script'.items = items
        ∧ d.Relocated (shifted (byteLength before) (byteLength old) (byteLength data)) d' := by
  obtain ⟨nodes₁, e, nodes₂, hnodes, hname, hread⟩ := exists_element_of_readDocument h hscript
  obtain ⟨_, -, hscript₀⟩ := readScript_eq_ok_iff.mp hread
  have hcontent : script.content = e.fragment.span := by rw [← hscript₀]
  have hlanguage : script.language = e.scriptLanguage := by rw [← hscript₀]
  have hrole : script.role = e.scriptRole := by rw [← hscript₀]
  clear hscript₀
  have hraw : rawTextElements.contains (e.name.map Char.toLower) = true := by
    rw [hname]
    decide
  obtain ⟨before, old, behind, htext, hspan, nodes₁', e', nodes₂', hnodes', hsame₁, hsame₂, hname',
    hattributes, hspan'⟩ := readTemplate_replaceText placeFree_readAttributeExpression hnodes hraw
      (hcontent ▸ hlt)
      (show ¬ '<' :: '/' :: e.name <:+: data by rw [hname]; exact hfree)
  have hplace := hcontent.trans hspan
  have hold : 0 < byteLength old := by
    rw [hplace] at hlt
    dsimp only at hlt
    omega
  have hapart := apart_of_tiles (readTemplate_lossless hnodes).1
    (readTemplate_nested hnodes (.element e) (List.mem_append_right _ List.mem_cons_self))
  rw [← hcontent] at hapart
  -- the new script has its text, and stands where the old one starts
  have hdata : (Source.mk source.filename (before ++ (data ++ behind))).slice e'.fragment.span
      = data := by
    rw [Source.slice, slice?_eq_some_iff.mpr ⟨before, behind, rfl, by rw [hspan'], by rw [hspan']⟩]
    rfl
  have hread' : readScript ⟨source.filename, before ++ (data ++ behind)⟩ e'
      = .ok ⟨e'.span, e'.fragment.span, e'.scriptRole, e'.scriptLanguage, items⟩ := by
    refine readScript_eq_ok_iff.mpr ⟨items, ?_, rfl⟩
    rw [hdata, Element.scriptLanguage_eq hattributes, ← hlanguage, hspan', ← hparse, hplace]
  have hkeeps : ∀ n ∈ nodes₁ ++ nodes₂,
      n.KeepsText (shifted (byteLength before) (byteLength old) (byteLength data)) source.text
        (before ++ (data ++ behind)) := by
    intro n hn span s hinside hs
    rw [htext] at hs
    refine slice?_shifted data hs hold ?_
    rw [← hplace]
    exact (hapart n hn).mono hinside (Span.contains_refl _)
  obtain ⟨d', hd', hmodule', hrelocated⟩ := readDocument_relocated h hscript hnodes hnodes' hsame₁
    hsame₂ hname hname' hread hread' ((Element.scriptRole_eq hattributes).trans hrole.symm) hlt
    hapart hkeeps
  exact ⟨before, old, behind, htext, hplace, d', _, hd', hmodule', rfl, hrelocated⟩

end SvelteStories
