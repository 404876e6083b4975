/-
Templates in which the text of an element is replaced:

* `shifted`: where a byte of a text stands once a text before it has been replaced by another one;
* `splitAtFirst_eq`: a closing tag is found behind a text that holds none;
* `readTemplate_replaceText`: a template in which the text of a script, say, is replaced by one that
  does not close the element is read as before, but for the places behind the text.
-/
import SvelteStories.Proofs.Markup.Relocation
import SvelteStories.Proofs.Text.Ranges

namespace SvelteStories

/-- The place of a byte behind the offset `n`, where `old` bytes were and `new` bytes are now. Up to
that offset nothing moves. -/
def shifted (n old new offset : Nat) : Nat :=
  if offset ≤ n then offset else offset + new - old

lemma shifted_before {n old new offset : Nat} (h : offset ≤ n) :
    shifted n old new offset = offset :=
  if_pos h

lemma shifted_behind {old : Nat} (h : 0 < old) (n new offset : Nat) :
    shifted n old new (n + old + offset) = n + new + offset := by
  rw [shifted, if_neg (by omega)]
  omega

/-- Where a text has been replaced by another one, what stood apart from it has its slice where it
stands now. -/
lemma slice?_shifted {before old behind s : List Char} {span : Span} (new : List Char)
    (h : slice? (before ++ (old ++ behind)) span = some s) (hold : 0 < byteLength old)
    (hapart : span.Apart ⟨byteLength before, byteLength before + byteLength old⟩) :
    slice? (before ++ (new ++ behind))
      (span.mapEnds (shifted (byteLength before) (byteLength old) (byteLength new))) = some s := by
  obtain ⟨left, right, htext, hleft, hstop⟩ := slice?_eq_some_iff.mp h
  rcases hapart with hbefore | hbehind
  · -- nothing moves before the text
    obtain ⟨m, rfl, -⟩ := exists_append_of_byteLength_le
      (show left ++ s ++ right = before ++ (old ++ behind) by rw [List.append_assoc, ← htext])
      (by rw [byteLength_append]; dsimp only at hbefore; omega)
    have hkept : span.mapEnds (shifted (byteLength (left ++ s ++ m)) (byteLength old)
        (byteLength new)) = span := by
      simp only [byteLength_append, Span.mapEnds]
      rw [shifted_before (by omega), shifted_before (by omega)]
    rw [hkept]
    exact slice?_eq_some_iff.mpr ⟨left, m ++ (new ++ behind), by simp, hleft, hstop⟩
  · -- behind the text both ends are shifted by the same number of bytes
    dsimp only at hbehind
    obtain ⟨m, rfl, hright⟩ := exists_append_of_byteLength_le
      (show before ++ old ++ behind = left ++ (s ++ right) by rw [List.append_assoc, htext])
      (by rw [byteLength_append]; omega)
    simp only [byteLength_append] at hleft
    refine slice?_eq_some_iff.mpr ⟨before ++ new ++ m, right, by simp [hright], ?_, ?_⟩
    · rw [Span.mapEnds, ← hleft, shifted_behind hold]
      simp only [byteLength_append]
    · rw [Span.mapEnds, hstop, ← hleft, Nat.add_assoc (_ + _), shifted_behind hold,
        shifted_behind hold, Nat.add_assoc (_ + _)]

namespace Markup

open Script Place

/-! ### Searching for a closing tag -/

/-- A text whose first character is not among the others is found behind any text that does not hold
it. -/
lemma splitAtFirst_eq {c : Char} {sought content : List Char} (hc : c ∉ sought)
    (h : ¬ c :: sought <:+: content) (behind : List Char) :
    splitAtFirst (c :: sought) (content ++ (c :: sought ++ behind))
      = some (content, c :: sought ++ behind) := by
  induction content with
  | nil =>
      rw [List.nil_append, List.cons_append, splitAtFirst, if_pos]
      simp
  | cons d content ih =>
      rw [List.cons_append, splitAtFirst, if_neg, ih fun hinfix => h (List.infix_cons hinfix)]
      · rfl
      · rw [List.isPrefixOf_iff_prefix, List.cons_prefix_cons]
        rintro ⟨rfl, hprefix⟩
        obtain ⟨w, hw⟩ := hprefix
        rcases List.append_eq_append_iff.mp hw with ⟨m, hcontent, -⟩ | ⟨m, hsought, hm⟩
        · exact h (List.IsPrefix.isInfix ⟨m, by rw [hcontent, List.cons_append]⟩)
        · cases m with
          | nil =>
              rw [List.append_nil] at hsought
              exact h (List.IsPrefix.isInfix ⟨[], by rw [hsought, List.append_nil]⟩)
          | cons a m =>
              obtain rfl := (List.cons.inj hm).1
              exact hc (hsought ▸ List.mem_append_right _ List.mem_cons_self)

/-! ### Elements with text -/

section

variable {t : List Char} {m m' : Nat → Nat} {p q p' : Place} {read : ExpressionReader}
  {children : NodeReader} {e : Element}

/-- An element whose content is text up to its closing tag: the places behind its opening tag and
behind that text. -/
structure ReadsText (read : ExpressionReader) (p : Place) (e : Element) (inside stop q : Place) :
    Prop where
  /-- The opening tag starts with its sign. -/
  opens : p.rest.head? = some '<'
  /-- The name stands behind the sign. -/
  name : (p.after ['<']).run isElementNamePart = e.name
  /-- The opening tag is read. -/
  attributes : readAttributes read p e.name (p.rest.length + 1) (p.after ('<' :: e.name))
    = .ok ((e.attributes, e.selfClosing), inside)
  /-- The element may have content. -/
  holds : (e.selfClosing || voidElements.contains (e.name.map Char.toLower)) = false
  /-- The content is text. -/
  isRaw : rawTextElements.contains (e.name.map Char.toLower) = true
  /-- The text stands behind the opening tag. -/
  content : inside.Reaches stop
  /-- The closing tag stands behind the text. -/
  closes : ['<', '/'] <+: stop.rest
  /-- The closing tag is read. -/
  closing : readClosingTag e.name stop = .ok q
  /-- The place of the element. -/
  span : e.span = p.spanTo q
  /-- The place of the text. -/
  contentSpan : e.fragment.span = inside.spanTo stop

/-- An element with text ends behind its closing tag. -/
lemma readElement_text (hopen : p.rest.head? = some '<')
    (h : readElement read children p = .ok (.element e, q))
    (hraw : rawTextElements.contains (e.name.map Char.toLower) = true)
    (hdata : e.fragment.span.start < e.fragment.span.stop) :
    ∃ inside stop, ReadsText read p e inside stop q := by
  simp only [readElement, bind_eq_ok_iff, pure_eq_ok_iff, Prod.mk.injEq, Node.element.injEq] at h
  obtain ⟨⟨⟨attributes, selfClosing⟩, inside⟩, hattributes, ⟨f, q⟩, hcontent, rfl, rfl⟩ := h
  simp only [readContent] at hcontent
  split_ifs at hcontent with hempty
  · -- an element without content has no text
    simp only [Except.ok.injEq, Prod.mk.injEq] at hcontent
    obtain ⟨rfl, rfl⟩ := hcontent
    exact absurd hdata (Nat.lt_irrefl _)
  · split at hcontent
    · simp at hcontent
    · rename_i data rest hsplit
      simp only [bind_eq_ok_iff, pure_eq_ok_iff, Prod.mk.injEq] at hcontent
      obtain ⟨q, hclosing, rfl, rfl⟩ := hcontent
      obtain ⟨hrest, behind, rfl⟩ := eq_append_of_splitAtFirst hsplit
      have hread := reads_after hrest
      refine ⟨inside, inside.after data, hopen, rfl, hattributes, by simpa using hempty, hraw,
        hread.reaches, ?_, hclosing, rfl, rfl⟩
      rw [← List.append_cancel_left (hrest.symm.trans hread.1)]
      exact (List.prefix_append ['<', '/'] _).trans ⟨behind, rfl⟩

/-- The name of an element holds no sign that opens a tag. -/
lemma ReadsText.not_mem_name {inside stop : Place} (h : ReadsText read p e inside stop q) :
    '<' ∉ e.name := by
  intro hmem
  rw [← h.name] at hmem
  exact absurd (List.all_eq_true.mp List.all_takeWhile _ hmem) (by decide)

/-- An element with text, from tag to tag. -/
lemma ReadsText.reads {inside stop : Place} (h : ReadsText read p e inside stop q) :
    ∃ tag closing, p.Reads ('<' :: (e.name ++ (tag ++ ['>']))) inside
      ∧ stop.Reads ('<' :: '/' :: (e.name ++ closing)) q := by
  obtain ⟨-, hname, -, tag, htag⟩ := reads_openingTag h.opens h.name h.attributes
  obtain ⟨closing, hclosing, blanks, rfl, -⟩ := reads_readClosingTag h.closes h.closing
  exact ⟨tag, blanks ++ ['>'], hname.trans htag, hclosing⟩

lemma ReadsText.name_ne_nil {inside stop : Place} (h : ReadsText read p e inside stop q)
    (hform : beginning p.rest = .node .element) : e.name ≠ [] := by
  obtain ⟨c, u, hrest, hletter⟩ := element_cases hform
  have hpart : isElementNamePart c = true := by
    simp [isElementNamePart, isAsciiAlphanumeric, hletter]
  rw [← h.name, run, after, hrest]
  simp [hpart]

/-- The text of an element is replaced by another one that does not close the element. -/
lemma ReadsText.replaced (children' : NodeReader) {inside stop inside' stop' q' : Place}
    {data : List Char} (h : ReadsText read p e inside stop q) (hread : read.PlaceFree)
    (hfree : ¬ '<' :: '/' :: e.name <:+: data) (hin : Copied m p inside p' inside')
    (hdata : inside'.Reads data stop') (hout : Copied m' stop q stop' q') :
    ∃ e', readElement read children' p' = .ok (.element e', q') ∧ e'.name = e.name
      ∧ e'.attributes.map (AttributeNode.outline id) = e.attributes.map (AttributeNode.outline m)
      ∧ e'.fragment.span = inside'.spanTo stop' := by
  obtain ⟨hname, attributes', hattributes, hsame⟩ := openingTag_copied hread p' h.opens h.name
    h.attributes hin (Nat.lt_succ_self _)
  obtain ⟨tag, closing, -, hclosing⟩ := h.reads
  have hrest : inside'.rest = data ++ ('<' :: ('/' :: e.name) ++ (closing ++ q'.rest)) := by
    rw [hdata.1, (hout.reads hclosing).1]
    simp
  have hnot : '<' ∉ '/' :: e.name := by
    simpa using h.not_mem_name
  have hsplit := splitAtFirst_eq hnot hfree (closing ++ q'.rest)
  rw [← hrest] at hsplit
  have hcontent : readContent children' e.name e.selfClosing p' inside'
      = .ok (⟨inside'.spanTo stop', [.text (inside'.spanTo stop') data]⟩, q') := by
    rw [readContent, if_neg (by rw [h.holds]; exact Bool.false_ne_true), if_pos h.isRaw, hsplit]
    simp only [hdata.after_eq, readClosingTag_copied h.closes h.closing hout, ok_bind]
    rfl
  simp only [readElement, hname, hattributes, ok_bind, hcontent]
  exact ⟨_, rfl, rfl, hsame, rfl⟩

/-! ### Templates -/

/-- Only elements are read as elements. -/
lemma form_of_readNode {form : NodeForm} (h : readNode read children form p = .ok (.element e, q)) :
    form = .element := by
  cases form with
  | element => rfl
  | text => cases (Prod.mk.inj (Except.ok.inj h)).1
  | comment =>
      simp only [readNode, readComment] at h
      split at h <;> simp at h
  | tag =>
      simp only [readNode, readTag, bind_eq_ok_iff, pure_eq_ok_iff, Prod.mk.injEq] at h
      obtain ⟨_, -, h, -⟩ := h
      cases h
  | expression =>
      simp only [readNode, readExpressionTag, bind_eq_ok_iff, pure_eq_ok_iff, Prod.mk.injEq] at h
      obtain ⟨_, -, h, -⟩ := h
      cases h
  | block =>
      rw [readNode, readBlock, bind_eq_ok_iff] at h
      obtain ⟨⟨code, inside⟩, -, h⟩ := h
      dsimp only at h
      split_ifs at h
      · simp only [readSnippet] at h
        split_ifs at h
        · exact absurd h error_bind_ne_ok
        rw [bind_eq_ok_iff] at h
        obtain ⟨⟨nodes, clause⟩, -, h⟩ := h
        dsimp only at h
        split_ifs at h
        · exact absurd h error_bind_ne_ok
        rw [bind_eq_ok_iff] at h
        obtain ⟨⟨code, q₁⟩, -, h⟩ := h
        dsimp only at h
        split_ifs at h
        · exact absurd h error_bind_ne_ok
        · simp at h
      · simp only [bind_eq_ok_iff, pure_eq_ok_iff, Prod.mk.injEq] at h
        obtain ⟨_, -, h, -⟩ := h
        cases h
      · simp at h

/-- A part of a template that is an element with text in it: the element is read up to its closing
tag, and the other parts behind that. -/
lemma exists_readsText {fuel : Nat} {enclosure : Enclosure} {nodes : List Node} {r : Place}
    (h : readNodes read fuel enclosure p = .ok (.element e :: nodes, r))
    (hraw : rawTextElements.contains (e.name.map Char.toLower) = true)
    (hdata : e.fragment.span.start < e.fragment.span.stop) :
    ∃ depth inside stop q, beginning p.rest = .node .element ∧ ReadsText read p e inside stop q
      ∧ readNodes read depth enclosure q = .ok (nodes, r) := by
  obtain ⟨depth, form, q, -, hform, hnode, hothers⟩ := exists_of_readNodes_cons h
  obtain rfl := form_of_readNode hnode
  have hopen := agrees_beginning p.rest
  rw [hform] at hopen
  obtain ⟨inside, stop, htext⟩ := readElement_text hopen hnode hraw hdata
  exact ⟨depth, inside, stop, q, hform, htext, hothers⟩

/-- The opening tag is long enough to tell where a text before it ends. -/
lemma ReadsText.sameAhead {inside stop inside' : Place} (h : ReadsText read p e inside stop q)
    (hform : beginning p.rest = .node .element) (hin : Copied m p inside p' inside') :
    SameAhead p p' := by
  obtain ⟨tag, closing, htag, -⟩ := h.reads
  have hlength := htag.length_eq
  have hname := List.length_pos_iff.mpr (h.name_ne_nil hform)
  simp only [List.length_cons, List.length_append, List.length_nil] at hlength
  exact hin.take_eq (by omega)

/-- A text of a file is replaced by another one. What stands before it and behind it is copied. -/
lemma exists_copied_around {before old behind : List Char} {inside stop r : Place}
    (hbefore : (start t).Reads before inside) (hold : inside.Reads old stop)
    (hbehind : stop.Reads behind r) (hlt : 0 < byteLength old) (data : List Char) :
    ∃ inside' stop' r',
      Copied (shifted (byteLength before) (byteLength old) (byteLength data)) (start t) inside
        (start (before ++ (data ++ behind))) inside'
      ∧ inside'.Reads data stop'
      ∧ Copied (shifted (byteLength before) (byteLength old) (byteLength data)) stop r stop' r'
      ∧ r'.rest = [] := by
  have hwhole : (start (before ++ (data ++ behind))).Reads (before ++ (data ++ behind))
      ⟨byteLength (before ++ (data ++ behind)), []⟩ := ⟨by simp [start], by simp [start]⟩
  obtain ⟨inside', hbefore', hrest⟩ := reads_append_iff.mp hwhole
  obtain ⟨stop', hdata, hbehind'⟩ := reads_append_iff.mp hrest
  have hinside : inside.offset = byteLength before := by simpa [start] using hbefore.2
  have hinside' : inside'.offset = byteLength before := by simpa [start] using hbefore'.2
  refine ⟨inside', stop', _, ⟨before, hbefore, hbefore', fun n hn => ?_⟩, hdata,
    ⟨behind, hbehind, hbehind', fun n _ => ?_⟩, rfl⟩
  · rw [start, start, Nat.zero_add, shifted_before hn]
  · rw [hold.2, hdata.2, hinside, hinside', shifted_behind hlt]

/-- The element is read with another text in it, and the parts behind it are read as before. -/
lemma ReadsText.readNodes_replaced {inside stop r inside' stop' r' : Place} {data : List Char}
    {depth depth' : Nat} {enclosure : Enclosure} {nodes : List Node}
    (h : ReadsText read p e inside stop q) (hread : read.PlaceFree)
    (hfree : ¬ '<' :: '/' :: e.name <:+: data) (hform : beginning p.rest = .node .element)
    (hq : (start t).Reaches q) (hothers : readNodes read depth enclosure q = .ok (nodes, r))
    (hin : Copied m p inside p' inside') (hdata : inside'.Reads data stop')
    (hbehind : Copied m stop r stop' r') (hends : SameAhead r r')
    (hdepth : p'.rest.length < depth' + 1) :
    ∃ e' nodes', readNodes read (depth' + 1) enclosure p' = .ok (.element e' :: nodes', r')
      ∧ outlines id nodes' = outlines m nodes ∧ e'.name = e.name
      ∧ e'.attributes.map (AttributeNode.outline id) = e.attributes.map (AttributeNode.outline m)
      ∧ e'.fragment.span = inside'.spanTo stop' := by
  obtain ⟨tag, closing, htag, hclosing⟩ := h.reads
  have hr : q.Reaches r := (sound_readNodes t read depth hq hothers).1.reaches
  obtain ⟨q', hout, hbehind⟩ := hbehind.split hclosing.reaches hr
  obtain ⟨e', hnode', hname, hattributes, hspan⟩ := h.replaced (readNodes read depth') hread hfree
    hin hdata hout
  have hshorter : q'.rest.length < depth' := by
    have hopening := (hin.reads htag).length_lt
    have hcontent := hdata.reaches.length_le
    have hclosing' := (hout.reads hclosing).length_lt
    omega
  obtain ⟨nodes', hnodes', hsame⟩ := readNodes_copied t m hread depth depth' hq hothers hbehind hends
    hshorter
  have hform' : beginning p'.rest = .node .element := by
    refine element_congr hform ?_
    have htake := congrArg (List.take 2) (h.sameAhead hform hin)
    rwa [List.take_take, List.take_take] at htake
  exact ⟨e', nodes', readNodes_eq_ok_iff.mpr
    ⟨depth', rfl, .inr ⟨.element, _, q', nodes', hform', hnode', hnodes', rfl⟩⟩,
    hsame, hname, hattributes, hspan⟩

/-- A template in which the text of an element is replaced by one that does not close the element is
read as before. What stands before the text keeps its place, and what stands behind it is shifted. -/
theorem readTemplate_replaceText {nodes₁ nodes₂ : List Node} {data : List Char}
    (hread : read.PlaceFree) (h : readTemplate read t = .ok (nodes₁ ++ .element e :: nodes₂))
    (hraw : rawTextElements.contains (e.name.map Char.toLower) = true)
    (hdata : e.fragment.span.start < e.fragment.span.stop)
    (hfree : ¬ '<' :: '/' :: e.name <:+: data) :
    ∃ before old behind, t = before ++ (old ++ behind)
      ∧ e.fragment.span = ⟨byteLength before, byteLength before + byteLength old⟩
      ∧ ∃ nodes₁' e' nodes₂',
        readTemplate read (before ++ (data ++ behind)) = .ok (nodes₁' ++ .element e' :: nodes₂')
        ∧ outlines id nodes₁'
          = outlines (shifted (byteLength before) (byteLength old) (byteLength data)) nodes₁
        ∧ outlines id nodes₂'
          = outlines (shifted (byteLength before) (byteLength old) (byteLength data)) nodes₂
        ∧ e'.name = e.name
        ∧ e'.attributes.map (AttributeNode.outline id) = e.attributes.map
          (AttributeNode.outline (shifted (byteLength before) (byteLength old) (byteLength data)))
        ∧ e'.fragment.span = ⟨byteLength before, byteLength before + byteLength data⟩ := by
  rw [readTemplate, map_eq_ok_iff] at h
  obtain ⟨⟨nodes, r⟩, hnodes, rfl⟩ := h
  have hend : r.rest = [] := (sound_readNodes t read _ (.refl _) hnodes).2
  obtain ⟨p, hp, ⟨fuel, hothers⟩, hcopy⟩ := readNodes_append hread (.refl _) hnodes
  obtain ⟨depth, inside, stop, q, hform, htext, hothers⟩ := exists_readsText hothers hraw hdata
  -- the text of the element, and what stands before it and behind it
  obtain ⟨tag, closing, htag, hclosing⟩ := htext.reads
  obtain ⟨old, hold⟩ := htext.content
  obtain ⟨before, hbefore⟩ := hp.trans htag.reaches
  have hq : (start t).Reaches q := hbefore.reaches.trans (hold.reaches.trans hclosing.reaches)
  obtain ⟨behind, hbehind⟩ :=
    hclosing.reaches.trans (sound_readNodes t read depth hq hothers).1.reaches
  have hwhole : t = before ++ (old ++ behind) := by
    simpa [start, hend] using (hbefore.trans (hold.trans hbehind)).1
  have hoffset : inside.offset = byteLength before := by simpa [start] using hbefore.2
  have hspan : e.fragment.span = ⟨byteLength before, byteLength before + byteLength old⟩ := by
    rw [htext.contentSpan, spanTo, hold.2, hoffset]
  have hlt : 0 < byteLength old := by
    simp only [hspan] at hdata
    omega
  refine ⟨before, old, behind, hwhole, hspan, ?_⟩
  -- the same places in the new text
  obtain ⟨inside', stop', r', hin, hdata', hout, hend'⟩ :=
    exists_copied_around hbefore hold hbehind hlt data
  have hoffset' : inside'.offset = byteLength before := by
    simpa [start] using (hin.reads hbefore).2
  generalize shifted (byteLength before) (byteLength old) (byteLength data) = m at hin hout ⊢
  -- the parts before the element, and the element with the parts behind it
  obtain ⟨p', hhead, htag'⟩ := hin.split hp htag.reaches
  obtain ⟨nodes₁', fuel', hsame₁, hfuel', hgoes⟩ :=
    hcopy hhead (.inl (htext.sameAhead hform htag')) (Nat.lt_succ_self _)
  obtain ⟨depth', rfl⟩ := Nat.exists_eq_add_one_of_ne_zero (Nat.ne_zero_of_lt hfuel')
  obtain ⟨e', nodes₂', hothers', hsame₂, hname', hattributes', hspan'⟩ :=
    htext.readNodes_replaced hread hfree hform hq hothers htag' hdata' hout
      (by rw [SameAhead, hend, hend']) hfuel'
  refine ⟨nodes₁', e', nodes₂', ?_, hsame₁, hsame₂, hname', hattributes', ?_⟩
  · rw [readTemplate, map_eq_ok_iff]
    exact ⟨_, hgoes _ _ _ hothers', rfl⟩
  · rw [hspan', spanTo, hdata'.2, hoffset']

end

end Markup

end SvelteStories
