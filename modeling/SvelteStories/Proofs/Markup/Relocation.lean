/-
Templates that stand in two files:

* `NodeReader.CopiedBy`: what one reader makes of a text another one makes of a copy of the text,
  but for the places, which are moved. There is a lemma for each form of parts, which supposes it of the
  readers of the parts inside;
* `readNodes_copied`: the reader of templates does so with any fuel that suffices for the copy, by
  induction on its own fuel;
* `readNodes_append`: parts can be taken from the beginning of a template, so that a template of
  which only the beginning is copied is read as a copy up to there;
* `placeFree_readAttributeExpression`: expressions in component files are read wherever they stand.

Three characters behind the copied text are enough to tell where its last part ends. Where nothing
followed a text, anything may follow its copy that ends plain text (`Place.EndsAlike`).
-/
import SvelteStories.Markup.Document
import SvelteStories.Proofs.Markup.Lossless
import SvelteStories.Proofs.Markup.Outline
import SvelteStories.Proofs.Script.Moved

namespace SvelteStories.Markup

open Script Place

/-- Behind two places the same three characters stand. -/
def Place.SameAhead (p p' : Place) : Prop :=
  p'.rest.take 3 = p.rest.take 3

/-- What one reader makes of a text in a file another one makes of a copy of the text, if no more
than `limit` characters follow its beginning. -/
def NodeReader.CopiedBy (t : List Char) (m : Nat → Nat) (limit : Nat)
    (children' children : NodeReader) : Prop :=
  ∀ ⦃enclosure p q p' q' nodes⦄, (start t).Reaches p → children enclosure p = .ok (nodes, q) →
    Copied m p q p' q' → SameAhead q q' → p'.rest.length < limit →
    ∃ nodes', children' enclosure p' = .ok (nodes', q') ∧ outlines id nodes' = outlines m nodes

section

variable {t : List Char} {m : Nat → Nat} {p q p' q' : Place} {n : Node} {read : ExpressionReader}
  {children children' : NodeReader} {limit : Nat}

lemma Place.Copied.eq_of_empty (h : Copied m p p p' q') : q' = p' := by
  have hreads := h.reads (.refl p)
  rw [← hreads.after_eq]
  rfl

/-! ### Text, comments, code and tags -/

/-- A run of plain text ends in a copy where it ended. -/
def SameRun (p q' : Place) : Prop :=
  textRun (textRun (p.rest.drop 1) ++ q'.rest) = textRun (p.rest.drop 1)

lemma readText_eq {c : Char} {u : List Char} (hrest : p.rest = c :: u) :
    readText p = (.text (p.spanTo (p.after (c :: textRun u))) (c :: textRun u),
      p.after (c :: textRun u)) := by
  simp [readText, hrest]

lemma reads_readText {c : Char} {u : List Char} (hrest : p.rest = c :: u) :
    p.Reads (c :: textRun u) (p.after (c :: textRun u)) := by
  obtain ⟨v, hv⟩ := isPrefix_textRun u
  exact reads_after (u := v) (by rw [hrest, List.cons_append, hv])

/-- A text ends alike in two files: the same three characters follow, or nothing followed in the one
file, and in the other one something that ends text. -/
def Place.EndsAlike (q q' : Place) : Prop :=
  SameAhead q q' ∨ q.rest = [] ∧ textRun q'.rest = []

lemma beginning_copied (hc : Copied m p q p' q') (hlt : q.rest.length < p.rest.length)
    (h : EndsAlike q q') : beginning p'.rest = beginning p.rest := by
  rcases h with hahead | ⟨hnil, hends⟩
  · exact beginning_congr (hc.take_eq_of_ahead hahead (by omega))
  · obtain ⟨s, hs, hs', -⟩ := hc
    rw [hnil] at hlt
    rw [hs'.1, hs.1, hnil, List.append_nil]
    refine beginning_append_of_ends (fun hempty => ?_) hends
    simp [hs.1, hempty, hnil] at hlt

lemma sameRun_of_endsAlike {q₁ q₁' : Place} (hne : p.rest ≠ []) (hq₁ : (readText p).2 = q₁)
    (hc : Copied m q₁ q q₁' q') (h : EndsAlike q q') : SameRun p q₁' := by
  obtain ⟨c, u, hrest⟩ := List.exists_cons_of_ne_nil hne
  rw [readText_eq hrest] at hq₁
  subst hq₁
  have hu : textRun u ++ (p.after (c :: textRun u)).rest = u :=
    (List.cons.inj (hrest.symm.trans (reads_readText hrest).1)).2.symm
  rw [SameRun, hrest, List.drop_one, List.tail_cons]
  rcases h with hahead | ⟨hnil, hends⟩
  · -- two characters tell where a run ends
    refine textRun_congr (t := (p.after (c :: textRun u)).rest) (by rw [hu]) ?_
    obtain ⟨s, hs, -⟩ := id hc
    exact hc.take_eq_of_ahead hahead (Nat.add_le_add (by omega) hs.reaches.length_le)
  · obtain ⟨s, hs, hs', -⟩ := hc
    rw [hs'.1, ← List.append_assoc]
    rw [hs.1, hnil, List.append_nil] at hu
    rw [hu, textRun_append_of_ends hends]

lemma readText_copied (hne : p.rest ≠ []) (hc : Copied m p (readText p).2 p' q')
    (hrun : SameRun p q') :
    (readText p').2 = q' ∧ (readText p').1.outline id = (readText p).1.outline m := by
  obtain ⟨c, u, hrest⟩ := List.exists_cons_of_ne_nil hne
  rw [readText_eq hrest] at hc ⊢
  rw [SameRun, hrest, List.drop_one, List.tail_cons] at hrun
  dsimp only at hc ⊢
  have hreads' := hc.reads (reads_readText hrest)
  have hread' : readText p' = (.text (p'.spanTo q') (c :: textRun u), q') := by
    simp [readText, hreads'.1, hrun, hreads'.after_eq]
  rw [hread']
  exact ⟨rfl, by simp [Node.outline, hc.spanTo_eq]⟩

lemma readComment_copied (hopen : "<!--".toList <+: p.rest) (h : readComment p = .ok (n, q))
    (hc : Copied m p q p' q') :
    ∃ n', readComment p' = .ok (n', q') ∧ n'.outline id = n.outline m := by
  simp only [readComment] at h
  split at h
  · rename_i data rest hsplit
    simp only [Except.ok.injEq, Prod.mk.injEq] at h
    obtain ⟨rfl, rfl⟩ := h
    have hsign := reads_of_startsWith hopen
    obtain ⟨hinside, behind, hrest⟩ := eq_append_of_splitAtFirst hsplit
    subst hrest
    have hdata := reads_after (s := data ++ "-->".toList) (u := behind)
      (by rw [hinside, List.append_assoc])
    obtain ⟨-, hbehind⟩ := hc.after hsign hdata.reaches
    have hdata' := hbehind.reads hdata
    rw [hinside] at hsplit
    have hsplit' := splitAtFirst_congr q'.rest hsplit
    rw [← List.append_assoc, ← hdata'.1] at hsplit'
    rw [readComment, hsplit']
    dsimp only
    rw [hdata'.after_eq]
    exact ⟨_, rfl, by simp [Node.outline, hc.spanTo_eq]⟩
  · simp at h

lemma readExpressionTag_copied (h : readExpressionTag p = .ok (n, q)) (hc : Copied m p q p' q') :
    ∃ n', readExpressionTag p' = .ok (n', q') ∧ n'.outline id = n.outline m := by
  simp only [readExpressionTag, bind_eq_ok_iff, pure_eq_ok_iff, Prod.mk.injEq] at h
  obtain ⟨⟨code, q⟩, hcode, rfl, rfl⟩ := h
  rw [readExpressionTag, hc.braced hcode, ok_bind]
  exact ⟨_, rfl, by
    simp [Node.outline, hc.spanTo_eq, (hc.movesTo_code hcode).mapEnds_whole]⟩

/-- Where the code behind the word of a header stands is told by the header alone. -/
lemma exists_span_ofCode (code : List Char) :
    ∃ k, (∀ offset, k + byteLength (Header.ofCode offset code).code ≤ byteLength code)
      ∧ ∀ offset, (Header.ofCode offset code).span
        = ⟨offset + k, offset + k + byteLength (Header.ofCode offset code).code⟩ := by
  simp only [Header.ofCode]
  generalize 1 + ((code.drop 1).takeWhile isAsciiLetter).length = n
  have hsplit := congrArg byteLength (List.take_append_drop n code)
  rw [byteLength_append] at hsplit
  obtain ⟨k, hk, heq⟩ := exists_trimmedSpan_eq (code.drop n)
  refine ⟨byteLength (code.take n) + k, fun _ => by omega, fun offset => ?_⟩
  rw [heq, ← Nat.add_assoc]

lemma mapEnds_span_ofCode {offset offset' : Nat} {code : List Char}
    (hm : MovesTo m (byteLength code) offset offset') :
    (Header.ofCode offset code).span.mapEnds m = (Header.ofCode offset' code).span := by
  obtain ⟨k, hk, heq⟩ := exists_span_ofCode code
  rw [heq, heq]
  exact (hm.part (hk offset)).mapEnds_whole

/-- The parameters of a snippet are moved with its header. -/
lemma mapEnds_parameterSpan {offset offset' : Nat} {code : List Char}
    (hm : MovesTo m (byteLength code) offset offset') :
    (parameterSpan (Header.ofCode offset code)).mapEnds m
      = parameterSpan (Header.ofCode offset' code) := by
  obtain ⟨k, hk, heq⟩ := exists_span_ofCode code
  have hm := hm.part (hk offset)
  have hcode : (Header.ofCode offset' code).code = (Header.ofCode offset code).code := rfl
  simp only [parameterSpan, heq, hcode]
  generalize (Header.ofCode offset code).code = t at hm ⊢
  generalize hn : t.length - (t.reverse.takeWhile (· != ')')).length - 1 = n
  have htake := congrArg byteLength (List.take_append_drop n t)
  rw [byteLength_append] at htake
  generalize byteLength (t.takeWhile (· != '(')) = i
  simp only [Nat.add_lt_add_iff_left]
  split_ifs with hfound
  · simp only [Bool.and_eq_true, decide_eq_true_eq] at hfound
    exact hm.mapEnds (i := i + 1) (j := byteLength (t.take n)) (by omega) (by omega)
  · exact hm.mapEnds (Nat.le_refl _) (Nat.le_refl _)

lemma readTag_copied (h : readTag p = .ok (n, q)) (hc : Copied m p q p' q') :
    ∃ n', readTag p' = .ok (n', q') ∧ n'.outline id = n.outline m := by
  simp only [readTag, bind_eq_ok_iff, pure_eq_ok_iff, Prod.mk.injEq] at h
  obtain ⟨⟨code, q⟩, hcode, rfl, rfl⟩ := h
  rw [readTag, hc.braced hcode, ok_bind]
  refine ⟨_, rfl, ?_⟩
  simp only [Node.outline, hc.spanTo_eq, Span.mapEnds_id,
    mapEnds_span_ofCode (hc.movesTo_code hcode)]
  rfl

/-! ### Elements -/

lemma readClosingTag_copied {name : List Char} (hopen : ['<', '/'] <+: p.rest)
    (h : readClosingTag name p = .ok q) (hc : Copied m p q p' q') :
    readClosingTag name p' = .ok q' := by
  obtain ⟨closing, hclosing, blanks, rfl, hblanks⟩ := reads_readClosingTag hopen h
  obtain ⟨q₀, hname, hbehind⟩ := reads_append_iff.mp
    (show p.Reads ('<' :: '/' :: name ++ (blanks ++ ['>'])) q from hclosing)
  obtain ⟨-, hq⟩ := hc.after hname hbehind.reaches
  have htag := hq.sameTag_of_endsTag ⟨blanks, hbehind⟩
  have hfound : closingName p'.rest = closingName p.rest := by
    have hsign := reads_of_startsWith hopen
    obtain ⟨rest, hrest⟩ := reads_append_iff.mp
      (show p.Reads (['<', '/'] ++ (name ++ (blanks ++ ['>']))) q from hclosing)
    rw [hrest.1.after_eq.symm] at hrest
    obtain ⟨-, hq⟩ := hc.after hsign hrest.2.reaches
    exact ((hq.sameTag_of_endsTag ⟨name ++ blanks, by simpa using hrest.2⟩).run
      (fun c => !isAsciiBlank c && c != '>') (by decide)).1
  simp only [readClosingTag, hname.after_eq] at h
  split_ifs at h with heq hclose
  · obtain rfl := Except.ok.inj h
    have hend := reads_head hclose
    have hclose' := (hq.skipBlanks htag hend.reaches).reads hend
    rw [readClosingTag]
    simp only [hfound, heq, if_true, hclose'.1, hclose'.after_eq, List.singleton_append,
      List.head?_cons]
  · simp at h
  · simp at h

lemma readContent_copied {name : List Char} {selfClosing : Bool} {opening inside inside' : Place}
    (opening' : Place) {f : Fragment} (hsound : children.Sound t)
    (hchildren : children'.CopiedBy t m limit children) (hp : (start t).Reaches inside)
    (h : readContent children name selfClosing opening inside = .ok (f, q))
    (hc : Copied m inside q inside' q') (hlimit : inside'.rest.length < limit) :
    ∃ f', readContent children' name selfClosing opening' inside' = .ok (f', q')
      ∧ f'.outline id = f.outline m := by
  simp only [readContent] at h
  split_ifs at h with hempty hraw
  · -- no content
    simp only [Except.ok.injEq, Prod.mk.injEq] at h
    obtain ⟨rfl, rfl⟩ := h
    obtain rfl := hc.eq_of_empty
    rw [readContent, if_pos hempty]
    exact ⟨_, rfl, by simp [Fragment.outline, outlines, hc.spanTo_eq]⟩
  · -- text up to the closing tag
    split at h
    · simp at h
    · rename_i data rest hsplit
      simp only [bind_eq_ok_iff, pure_eq_ok_iff, Prod.mk.injEq] at h
      obtain ⟨q, hclosing, rfl, rfl⟩ := h
      obtain ⟨hrest, behind, rfl⟩ := eq_append_of_splitAtFirst hsplit
      have hdata := reads_after hrest
      have hstop : ['<', '/'] <+: (inside.after data).rest := by
        rw [← List.append_cancel_left (hrest.symm.trans hdata.1)]
        exact ⟨name ++ behind, by simp⟩
      obtain ⟨closing, hreads, blanks, rfl, -⟩ := reads_readClosingTag hstop hclosing
      obtain ⟨hin, hout⟩ := hc.after hdata hreads.reaches
      have hrest' : inside'.rest = data ++ ('<' :: '/' :: name ++ (blanks ++ '>' :: q'.rest)) := by
        have hwhole := (hc.reads (hdata.trans hreads)).1
        simpa using hwhole
      rw [hrest] at hsplit
      have hsplit' := splitAtFirst_congr (blanks ++ '>' :: q'.rest) hsplit
      rw [← hrest'] at hsplit'
      rw [readContent, if_neg hempty, if_pos hraw, hsplit']
      simp only [readClosingTag_copied hstop hclosing hout, ok_bind]
      exact ⟨_, rfl, by simp [Fragment.outline, outlines, Node.outline, hin.spanTo_eq]⟩
  · -- parts up to the closing tag
    rw [bind_eq_ok_iff] at h
    obtain ⟨⟨nodes, stop⟩, hnodes, h⟩ := h
    simp only [bind_eq_ok_iff, pure_eq_ok_iff, Prod.mk.injEq] at h
    obtain ⟨q, hclosing, rfl, rfl⟩ := h
    obtain ⟨hread, hstop⟩ := hsound hp hnodes
    obtain ⟨closing, hreads, blanks, rfl, -⟩ := reads_readClosingTag hstop hclosing
    obtain ⟨stop', hin, hout⟩ := hc.split hread.reaches hreads.reaches
    have hahead : SameAhead stop stop' :=
      hout.take_eq (by have := hreads.length_eq; simp at this; omega)
    obtain ⟨nodes', hnodes', hsame⟩ := hchildren hp hnodes hin hahead hlimit
    rw [readContent, if_neg hempty, if_neg hraw, hnodes', ok_bind]
    simp only [readClosingTag_copied hstop hclosing hout, ok_bind]
    exact ⟨_, rfl, by simp [Fragment.outline, hin.spanTo_eq, hsame]⟩

/-- An opening tag, from its sign to its end. -/
lemma reads_openingTag {opening inside : Place} {name : List Char} {fuel : Nat}
    {attributes : List AttributeNode} {selfClosing : Bool} (hopen : p.rest.head? = some '<')
    (hname : (p.after ['<']).run isElementNamePart = name)
    (h : readAttributes read opening name fuel (p.after ('<' :: name))
      = .ok ((attributes, selfClosing), inside)) :
    p.Reads ['<'] (p.after ['<']) ∧ p.Reads ('<' :: name) (p.after ('<' :: name))
      ∧ (p.after ['<']).Reaches (p.after ('<' :: name)) ∧ (p.after ('<' :: name)).EndsTag inside := by
  have hsign := reads_head hopen
  have hrun := (p.after ['<']).reads_run isElementNamePart
  rw [hname] at hrun
  have hreads := hsign.trans hrun
  have hafter : (p.after ['<']).after name = p.after ('<' :: name) := hreads.after_eq.symm
  rw [hafter] at hrun hreads
  exact ⟨hsign, hreads, hrun.reaches, readAttributes_endsTag h⟩

/-- An opening tag that stands in two files belongs to the same element in both of them. -/
lemma openingTag_copied (hread : read.PlaceFree) {opening inside inside' : Place} (opening' : Place)
    {name : List Char} {fuel fuel' : Nat} {attributes : List AttributeNode} {selfClosing : Bool}
    (hopen : p.rest.head? = some '<') (hname : (p.after ['<']).run isElementNamePart = name)
    (h : readAttributes read opening name fuel (p.after ('<' :: name))
      = .ok ((attributes, selfClosing), inside))
    (hc : Copied m p inside p' inside') (hfuel : p'.rest.length < fuel') :
    (p'.after ['<']).run isElementNamePart = name
      ∧ ∃ attributes', readAttributes read opening' name fuel' (p'.after ('<' :: name))
          = .ok ((attributes', selfClosing), inside')
        ∧ attributes'.map (AttributeNode.outline id)
          = attributes.map (AttributeNode.outline m) := by
  obtain ⟨hsign, hreads, hrun, htag⟩ := reads_openingTag hopen hname h
  obtain ⟨-, hbehind⟩ := hc.after hsign (hrun.trans htag.reaches)
  have hsame := (hbehind.sameTag_of_endsTag (htag.of_reaches hrun)).run
    isElementNamePart (by decide)
  obtain ⟨hhead, hattributes⟩ := hc.after hreads htag.reaches
  refine ⟨hsame.1.trans hname, readAttributes_copied hread opening' h hattributes ?_⟩
  exact Nat.lt_of_le_of_lt (hhead.reads hreads).reaches.length_le hfuel

lemma readElement_copied (hread : read.PlaceFree) (hsound : children.Sound t)
    (hchildren : children'.CopiedBy t m limit children) (hp : (start t).Reaches p)
    (hopen : p.rest.head? = some '<') (h : readElement read children p = .ok (n, q))
    (hc : Copied m p q p' q') (hlimit : p'.rest.length ≤ limit) :
    ∃ n', readElement read children' p' = .ok (n', q') ∧ n'.outline id = n.outline m := by
  simp only [readElement, bind_eq_ok_iff, pure_eq_ok_iff, Prod.mk.injEq] at h
  obtain ⟨⟨⟨attributes, selfClosing⟩, inside⟩, hattributes, ⟨f, q⟩, hcontent, rfl, rfl⟩ := h
  dsimp only at hcontent hc ⊢
  generalize hname : (p.after ['<']).run isElementNamePart = name at hattributes hcontent ⊢
  obtain ⟨-, hreads, -, htag⟩ := reads_openingTag hopen hname hattributes
  have hin := hreads.reaches.trans htag.reaches
  have hrest := (readContent_spec hsound (hp.trans hin) hcontent).1
  obtain ⟨inside', hhead, hbehind⟩ := hc.split hin hrest
  obtain ⟨hname', attributes', hattributes', hsame⟩ := openingTag_copied hread p' hopen hname
    hattributes hhead (Nat.lt_succ_self _)
  have hlength : inside'.rest.length < limit := by
    obtain ⟨u, hu⟩ := htag.reaches
    have hshorter := (hhead.reads (hreads.trans hu)).length_lt
    omega
  obtain ⟨f', hcontent', hsame'⟩ :=
    readContent_copied p' hsound hchildren (hp.trans hin) hcontent hbehind hlength
  simp only [readElement, hname', hattributes', ok_bind, hcontent']
  exact ⟨_, rfl, by simp [Node.outline, Element.outline, hc.spanTo_eq, hsame, hsame']⟩

/-! ### Snippets and blocks -/

/-- The branches of a block take at least the braces of the closing clause. -/
lemma length_of_readBranches {kind : List Char} {fuel : Nat} {branches : List Fragment}
    (hsound : children.Sound t) (hp : (start t).Reaches p)
    (h : readBranches children kind fuel p = .ok (branches, q)) :
    q.rest.length + 2 ≤ p.rest.length := by
  cases fuel with
  | zero => simp [readBranches] at h
  | succ fuel =>
      have hspec := (readBranches_spec hsound hp h).1
      rw [readBranches, bind_eq_ok_iff] at h
      obtain ⟨⟨nodes, clause⟩, hnodes, h⟩ := h
      rw [bind_eq_ok_iff] at h
      obtain ⟨⟨code, behind⟩, hcode, h⟩ := h
      obtain ⟨hread, -⟩ := hsound hp hnodes
      have hlength := length_of_braced hcode
      have hclause := hread.reaches.length_le
      have hbehind : q.rest.length ≤ behind.rest.length := by
        dsimp only at h
        split at h
        · split_ifs at h
          · simp only [pure_eq_ok_iff, Prod.mk.injEq] at h
            exact h.2 ▸ Nat.le_refl _
          · simp at h
        · simp only [bind_eq_ok_iff, pure_eq_ok_iff, Prod.mk.injEq] at h
          obtain ⟨⟨branches, stop⟩, hbranches, -, rfl⟩ := h
          have hbehind := (hp.trans hread.reaches).trans (reads_braced hcode).1.reaches
          exact (readBranches_spec hsound hbehind hbranches).1.length_le
      omega

lemma readBranches_copied {kind : List Char} {fuel fuel' : Nat} {branches : List Fragment}
    (hsound : children.Sound t) (hchildren : children'.CopiedBy t m limit children)
    (hp : (start t).Reaches p) (h : readBranches children kind fuel p = .ok (branches, q))
    (hc : Copied m p q p' q') (hlimit : p'.rest.length < limit) (hfuel : p'.rest.length < fuel') :
    ∃ branches', readBranches children' kind fuel' p' = .ok (branches', q')
      ∧ branchOutlines id branches' = branchOutlines m branches := by
  induction fuel generalizing p p' branches fuel' with
  | zero => simp [readBranches] at h
  | succ fuel ih =>
      obtain ⟨fuel', rfl⟩ := Nat.exists_eq_add_one_of_ne_zero (Nat.ne_zero_of_lt hfuel)
      rw [readBranches, bind_eq_ok_iff] at h
      obtain ⟨⟨nodes, clause⟩, hnodes, h⟩ := h
      rw [bind_eq_ok_iff] at h
      obtain ⟨⟨code, behind⟩, hcode, h⟩ := h
      obtain ⟨hread, -⟩ := hsound hp hnodes
      have hclause := hp.trans hread.reaches
      have hbraces := (reads_braced hcode).1
      dsimp only at h
      split at h
      · -- the closing clause
        rename_i word
        split_ifs at h with hkind
        · simp only [pure_eq_ok_iff, Prod.mk.injEq] at h
          obtain ⟨rfl, rfl⟩ := h
          obtain ⟨clause', hin, hout⟩ := hc.split hread.reaches hbraces.reaches
          have hahead : SameAhead clause clause' := hout.take_eq (by
            have hlength := length_of_braced hcode
            simp only [List.length_cons] at hlength
            omega)
          obtain ⟨nodes', hnodes', hsame⟩ := hchildren hp hnodes hin hahead hlimit
          rw [readBranches, hnodes', ok_bind]
          simp only [hout.braced hcode, ok_bind, hkind, if_true]
          exact ⟨_, rfl, by simp [branchOutlines, Fragment.outline, hin.spanTo_eq, hsame]⟩
        · simp at h
      · -- a clause that begins another branch
        rename_i hcontinues
        simp only [bind_eq_ok_iff, pure_eq_ok_iff, Prod.mk.injEq] at h
        obtain ⟨⟨branches, stop⟩, hbranches, rfl, rfl⟩ := h
        have hbehind := hclause.trans hbraces.reaches
        have hrest := (readBranches_spec hsound hbehind hbranches).1
        obtain ⟨clause', hin, hout⟩ := hc.split hread.reaches (hbraces.reaches.trans hrest)
        obtain ⟨behind', hcode', hrest'⟩ := hout.split hbraces.reaches hrest
        have hahead : SameAhead clause clause' := hout.take_eq (by
          have hlength := length_of_braced hcode
          have hlength' := length_of_readBranches hsound hbehind hbranches
          dsimp only
          omega)
        obtain ⟨nodes', hnodes', hsame⟩ := hchildren hp hnodes hin hahead hlimit
        have hshorter : behind'.rest.length < p'.rest.length :=
          Nat.lt_of_lt_of_le (hcode'.reads hbraces).length_lt
            (hin.reaches).length_le
        obtain ⟨branches', hbranches', hsames⟩ :=
          ih hbehind hbranches hrest' (by omega) (show _ < fuel' by omega)
        rw [readBranches, hnodes', ok_bind]
        simp only [hcode'.braced hcode, ok_bind, hbranches']
        exact ⟨_, rfl, by simp [branchOutlines, Fragment.outline, hin.spanTo_eq, hsame, hsames]⟩

lemma readSnippet_copied {opening : List Char} {inside : Place} (hsound : children.Sound t)
    (hchildren : children'.CopiedBy t m limit children) (hp : (start t).Reaches p)
    (hopening : braced p = .ok (opening, inside))
    (h : readSnippet children (Header.ofCode (p.offset + 1) opening) p inside = .ok (n, q))
    (hc : Copied m p q p' q') (hlimit : p'.rest.length ≤ limit) :
    ∃ inside', braced p' = .ok (opening, inside')
      ∧ ∃ n', readSnippet children' (Header.ofCode (p'.offset + 1) opening) p' inside'
          = .ok (n', q')
        ∧ n'.outline id = n.outline m := by
  simp only [readSnippet] at h
  split_ifs at h with hname
  · exact absurd h error_bind_ne_ok
  rw [bind_eq_ok_iff] at h
  obtain ⟨⟨nodes, clause⟩, hnodes, h⟩ := h
  dsimp only at h
  split_ifs at h with hopen
  · exact absurd h error_bind_ne_ok
  rw [bind_eq_ok_iff] at h
  obtain ⟨⟨code, q₁⟩, hclosing, h⟩ := h
  dsimp only at h
  split_ifs at h with hword
  · exact absurd h error_bind_ne_ok
  simp only [pure_eq_ok_iff, Prod.mk.injEq] at h
  obtain ⟨rfl, rfl⟩ := h
  have hsign := (reads_braced hopening).1
  have hinside := hp.trans hsign.reaches
  obtain ⟨hread, -⟩ := hsound hinside hnodes
  have hbraces := (reads_braced hclosing).1
  have hslash : ['{', '/'] <+: clause.rest := by
    simpa [startsWith, List.isPrefixOf_iff_prefix] using hopen
  obtain ⟨word, rfl⟩ := exists_cons_of_reads (by decide) hbraces hslash
  obtain ⟨inside', hin, hbehind⟩ := hc.split hsign.reaches (hread.reaches.trans hbraces.reaches)
  obtain ⟨clause', hbody, hout⟩ := hbehind.split hread.reaches hbraces.reaches
  have hahead : SameAhead clause clause' := hout.take_eq (by
    have hlength := length_of_braced hclosing
    simp only [List.length_cons] at hlength
    omega)
  have hshorter := (hin.reads hsign).length_lt
  obtain ⟨nodes', hnodes', hsame⟩ := hchildren hinside hnodes hbody hahead (by omega)
  have hopen' : clause'.startsWith ['{', '/'] = true := by
    simp [startsWith, (hout.reads hbraces).1]
  refine ⟨inside', hin.braced hopening, ?_⟩
  have hheader : (Header.ofCode (p'.offset + 1) opening).code
      = (Header.ofCode (p.offset + 1) opening).code := rfl
  simp only [readSnippet, hheader, hnodes', ok_bind, hopen', hout.braced hclosing, hname, hword]
  exact ⟨_, rfl, by simp [Node.outline, Snippet.outline, Fragment.outline, hc.spanTo_eq,
    hbody.spanTo_eq, hsame, mapEnds_parameterSpan (hin.movesTo_code hopening)]⟩

lemma readBlock_copied (hsound : children.Sound t)
    (hchildren : children'.CopiedBy t m limit children) (hp : (start t).Reaches p)
    (h : readBlock children p = .ok (n, q)) (hc : Copied m p q p' q')
    (hlimit : p'.rest.length ≤ limit) :
    ∃ n', readBlock children' p' = .ok (n', q') ∧ n'.outline id = n.outline m := by
  rw [readBlock, bind_eq_ok_iff] at h
  obtain ⟨⟨code, inside⟩, hcode, h⟩ := h
  have hbraces := (reads_braced hcode).1
  have hinside := hp.trans hbraces.reaches
  dsimp only at h
  split_ifs at h with hsnippet hbranching
  · obtain ⟨inside', hcode', n', hread', hsame⟩ := readSnippet_copied hsound hchildren hp hcode h
      hc hlimit
    rw [readBlock, hcode', ok_bind]
    exact ⟨n', (if_pos hsnippet).trans hread', hsame⟩
  · simp only [bind_eq_ok_iff, pure_eq_ok_iff, Prod.mk.injEq] at h
    obtain ⟨⟨branches, q⟩, hbranches, rfl, rfl⟩ := h
    have hrest := (readBranches_spec hsound hinside hbranches).1
    obtain ⟨inside', hin, hout⟩ := hc.split hbraces.reaches hrest
    have hlength := (hin.reads hbraces).length_lt
    obtain ⟨branches', hbranches', hsame⟩ := readBranches_copied hsound hchildren hinside hbranches
      hout (by omega) (Nat.lt_succ_self inside'.rest.length)
    have hblock : readBlock children' p' =
        readBranches children' (Header.ofCode (p.offset + 1) code).word
          (inside'.rest.length + 1) inside' >>= fun read =>
        pure (.block ⟨p'.spanTo read.2, (Header.ofCode (p.offset + 1) code).word,
          (Header.ofCode (p'.offset + 1) code).span, read.1⟩, read.2) := by
      rw [readBlock, hin.braced hcode, ok_bind]
      exact (if_neg hsnippet).trans (if_pos hbranching)
    rw [hblock, hbranches', ok_bind]
    exact ⟨_, rfl, by simp [Node.outline, Block.outline, hc.spanTo_eq, hsame,
      mapEnds_span_ofCode (hin.movesTo_code hcode)]⟩
  · simp at h

/-! ### Templates -/

lemma rest_ne_nil_of_form {form : NodeForm} (hform : beginning p.rest = .node form) :
    p.rest ≠ [] := by
  intro hnil
  rw [hnil] at hform
  cases hform

/-- What begins with a part is read in both files. Only plain text needs to know what follows it. -/
lemma readNode_copied {form : NodeForm} (hread : read.PlaceFree) (hsound : children.Sound t)
    (hchildren : children'.CopiedBy t m limit children) (hp : (start t).Reaches p)
    (hform : beginning p.rest = .node form) (h : readNode read children form p = .ok (n, q))
    (hc : Copied m p q p' q') (hrun : form = .text → SameRun p q')
    (hlimit : p'.rest.length ≤ limit) :
    ∃ n', readNode read children' form p' = .ok (n', q') ∧ n'.outline id = n.outline m := by
  have hagrees := agrees_beginning p.rest
  rw [hform] at hagrees
  cases form with
  | comment => exact readComment_copied hagrees h hc
  | element => exact readElement_copied hread hsound hchildren hp hagrees h hc hlimit
  | block => exact readBlock_copied hsound hchildren hp h hc hlimit
  | tag => exact readTag_copied h hc
  | expression => exact readExpressionTag_copied h hc
  | text =>
      obtain ⟨rfl, rfl⟩ := Prod.mk.inj (Except.ok.inj h)
      obtain ⟨rfl, hsame⟩ := readText_copied (rest_ne_nil_of_form hform) hc (hrun rfl)
      exact ⟨_, rfl, hsame⟩

lemma readSnippet_reaches {header : Header} {inside : Place} (hsound : children.Sound t)
    (hp : (start t).Reaches inside) (h : readSnippet children header p inside = .ok (n, q)) :
    inside.Reaches q := by
  simp only [readSnippet] at h
  split_ifs at h
  · exact absurd h error_bind_ne_ok
  rw [bind_eq_ok_iff] at h
  obtain ⟨⟨nodes, clause⟩, hnodes, h⟩ := h
  dsimp only at h
  split_ifs at h
  · exact absurd h error_bind_ne_ok
  rw [bind_eq_ok_iff] at h
  obtain ⟨⟨code, q₁⟩, hcode, h⟩ := h
  dsimp only at h
  split_ifs at h
  · exact absurd h error_bind_ne_ok
  simp only [pure_eq_ok_iff, Prod.mk.injEq] at h
  obtain ⟨-, rfl⟩ := h
  exact (hsound hp hnodes).1.reaches.trans (reads_braced hcode).1.reaches

/-- A part takes at least one character. -/
lemma length_of_readNode {form : NodeForm} (hsound : children.Sound t) (hp : (start t).Reaches p)
    (hform : beginning p.rest = .node form) (h : readNode read children form p = .ok (n, q)) :
    q.rest.length < p.rest.length := by
  have hagrees := agrees_beginning p.rest
  rw [hform] at hagrees
  cases form with
  | text =>
      obtain ⟨c, u, hrest⟩ := List.exists_cons_of_ne_nil (rest_ne_nil_of_form hform)
      obtain ⟨-, rfl⟩ := Prod.mk.inj (Except.ok.inj h)
      simp only [after, hrest, List.take_succ_cons, List.take_zero, List.singleton_append,
        List.length_cons, List.drop_succ_cons, List.length_drop]
      omega
  | block =>
      rw [readNode, readBlock, bind_eq_ok_iff] at h
      obtain ⟨⟨code, inside⟩, hcode, h⟩ := h
      have hbraces := (reads_braced hcode).1
      refine Nat.lt_of_le_of_lt (Reaches.length_le ?_) hbraces.length_lt
      dsimp only at h
      split_ifs at h
      · exact readSnippet_reaches hsound (hp.trans hbraces.reaches) h
      · simp only [bind_eq_ok_iff, pure_eq_ok_iff, Prod.mk.injEq] at h
        obtain ⟨⟨branches, q⟩, hbranches, -, rfl⟩ := h
        exact (readBranches_spec hsound (hp.trans hbraces.reaches) hbranches).1
      · simp at h
  | tag =>
      simp only [readNode, readTag, bind_eq_ok_iff, pure_eq_ok_iff, Prod.mk.injEq] at h
      obtain ⟨⟨code, q⟩, hcode, -, rfl⟩ := h
      exact (reads_braced hcode).1.length_lt
  | expression =>
      simp only [readNode, readExpressionTag, bind_eq_ok_iff, pure_eq_ok_iff, Prod.mk.injEq] at h
      obtain ⟨⟨code, q⟩, hcode, -, rfl⟩ := h
      exact (reads_braced hcode).1.length_lt
  | comment =>
      have hsign := (reads_of_startsWith (show ['<', '!', '-', '-'] <+: p.rest from hagrees)).length_lt
      simp only [readNode, readComment] at h
      split at h
      · simp only [Except.ok.injEq, Prod.mk.injEq] at h
        obtain ⟨-, rfl⟩ := h
        refine Nat.lt_of_le_of_lt ?_ hsign
        exact List.length_drop .. ▸ Nat.sub_le _ _
      · simp at h
  | element =>
      simp only [readNode, readElement, bind_eq_ok_iff, pure_eq_ok_iff, Prod.mk.injEq] at h
      obtain ⟨⟨⟨attributes, selfClosing⟩, inside⟩, hattributes, ⟨f, q⟩, hcontent, -, rfl⟩ := h
      obtain ⟨-, hreads, -, htag⟩ := reads_openingTag hagrees rfl hattributes
      have hrest := (readContent_spec hsound (hp.trans (hreads.reaches.trans htag.reaches))
        hcontent).1
      exact Nat.lt_of_le_of_lt (htag.reaches.trans hrest).length_le hreads.length_lt

/-- What is gone over before a part is no reason for the part to be another one. -/
lemma step_copied (hread : read.PlaceFree) {form : NodeForm} {q₁ : Place}
    (hsound : children.Sound t) (hchildren : children'.CopiedBy t m limit children)
    (hp : (start t).Reaches p) (hform : beginning p.rest = .node form)
    (h : readNode read children form p = .ok (n, q₁)) (hq : q₁.Reaches q) (hc : Copied m p q p' q')
    (hends : EndsAlike q q') (hlimit : p'.rest.length ≤ limit) :
    ∃ n' q₁', beginning p'.rest = .node form ∧ readNode read children' form p' = .ok (n', q₁')
      ∧ n'.outline id = n.outline m ∧ Copied m q₁ q q₁' q' ∧ q₁'.rest.length < p'.rest.length := by
  have hreaches := (readsNode_readNode hsound hp hform h).reaches
  have hshorter := length_of_readNode hsound hp hform h
  obtain ⟨q₁', hin, hout⟩ := hc.split hreaches hq
  have hform' : beginning p'.rest = .node form := by
    rw [beginning_copied hc (Nat.lt_of_le_of_lt hq.length_le hshorter) hends, hform]
  have hrun : form = .text → SameRun p q₁' := by
    rintro rfl
    obtain ⟨-, hq₁⟩ := Prod.mk.inj (Except.ok.inj h)
    exact sameRun_of_endsAlike (rest_ne_nil_of_form hform) hq₁ hout hends
  obtain ⟨n', hnode', hsame⟩ :=
    readNode_copied hread hsound hchildren hp hform h hin hrun hlimit
  refine ⟨n', q₁', hform', hnode', hsame, hout, ?_⟩
  have hlength := hin.length_eq
  omega

/-- The reader of templates reads copies with any fuel that suffices for them. -/
theorem readNodes_copied (t : List Char) (m : Nat → Nat) (hread : read.PlaceFree)
    (fuel fuel' : Nat) : (readNodes read fuel').CopiedBy t m fuel' (readNodes read fuel) := by
  induction fuel generalizing fuel' with
  | zero => exact fun _ _ _ _ _ _ _ h => by simp [readNodes] at h
  | succ fuel ih =>
      intro enclosure p q p' q' nodes hp h hc hahead hlimit
      obtain ⟨fuel', rfl⟩ := Nat.exists_eq_add_one_of_ne_zero (Nat.ne_zero_of_lt hlimit)
      obtain ⟨_, ⟨⟩, ⟨ending, hending, hclose, rfl, rfl⟩
        | ⟨form, n, q₁, nodes, hform, hnode, hnodes, rfl⟩⟩ := readNodes_eq_ok_iff.mp h
      · have hp' := hc.eq_of_empty
        have hending' : beginning p'.rest = .ending ending := by
          refine ending_congr hending ?_
          have htake := congrArg (List.take 2) hahead
          rwa [List.take_take, List.take_take, hp'] at htake
        have hclose' : enclosure.close ending p' = .ok () := by
          cases enclosure <;> cases ending <;> first | rfl | cases hclose
        exact ⟨[], readNodes_eq_ok_iff.mpr
          ⟨fuel', rfl, .inl ⟨ending, hending', hclose', rfl, hp'⟩⟩, rfl⟩
      · have hsound := sound_readNodes t read fuel
        have hq := hp.trans (readsNode_readNode hsound hp hform hnode).reaches
        obtain ⟨n', q₁', hform', hnode', hsame, hout, hshorter⟩ := step_copied hread hsound
          (ih fuel') hp hform hnode (hsound hq hnodes).1.reaches hc (.inl hahead) (by omega)
        obtain ⟨nodes', hnodes', hsames⟩ := ih fuel' hq hnodes hout hahead (by omega)
        exact ⟨n' :: nodes', readNodes_eq_ok_iff.mpr
          ⟨fuel', rfl, .inr ⟨form, n', q₁', nodes', hform', hnode', hnodes', rfl⟩⟩,
          by rw [outlines, outlines, hsame, hsames]⟩

/-- Parts from the beginning of a template end at a place from which the others are read. Where a
copy of their text stands, copies of them are read up to there, whatever encloses them. -/
theorem readNodes_append (hread : read.PlaceFree) {fuel : Nat} {enclosure : Enclosure}
    {nodes others : List Node} {r : Place} (hp : (start t).Reaches p)
    (h : readNodes read fuel enclosure p = .ok (nodes ++ others, r)) :
    ∃ q, p.Reaches q ∧ (∃ fuel, readNodes read fuel enclosure q = .ok (others, r))
      ∧ ∀ ⦃m p' q' fuel'⦄, Copied m p q p' q' → EndsAlike q q' → p'.rest.length < fuel' →
        ∃ nodes' rest, outlines id nodes' = outlines m nodes ∧ q'.rest.length < rest
          ∧ ∀ enclosure' others' r', readNodes read rest enclosure' q' = .ok (others', r') →
            readNodes read fuel' enclosure' p' = .ok (nodes' ++ others', r') := by
  induction nodes generalizing p fuel with
  | nil =>
      refine ⟨p, .refl p, ⟨fuel, h⟩, fun m p' q' fuel' hc hends hfuel => ?_⟩
      rw [hc.eq_of_empty]
      exact ⟨[], fuel', rfl, hfuel, fun _ _ _ h' => h'⟩
  | cons n nodes ih =>
      obtain ⟨fuel, form, q₁, rfl, hform, hnode, hnodes⟩ := exists_of_readNodes_cons h
      have hsound := sound_readNodes t read fuel
      have hq₁ := (readsNode_readNode hsound hp hform hnode).reaches
      obtain ⟨q, hq, hothers, hcopy⟩ := ih (hp.trans hq₁) hnodes
      refine ⟨q, hq₁.trans hq, hothers, fun m p' q' fuel' hc hends hfuel => ?_⟩
      obtain ⟨fuel', rfl⟩ := Nat.exists_eq_add_one_of_ne_zero (Nat.ne_zero_of_lt hfuel)
      obtain ⟨n', q₁', hform', hnode', hsame, hout, hshorter⟩ := step_copied hread hsound
        (readNodes_copied t m hread fuel fuel') hp hform hnode hq hc hends (by omega)
      obtain ⟨nodes', rest, hsames, hrest, hgoes⟩ := hcopy hout hends (show _ < fuel' by omega)
      refine ⟨n' :: nodes', rest, by rw [outlines, outlines, hsame, hsames], hrest,
        fun enclosure' others' r' h' => ?_⟩
      exact readNodes_eq_ok_iff.mpr ⟨fuel', rfl,
        .inr ⟨form, n', q₁', nodes' ++ others', hform', hnode', hgoes enclosure' others' r' h', rfl⟩⟩

/-- The values of attributes are the same expressions wherever they stand. -/
lemma placeFree_readAttributeExpression : readAttributeExpression.PlaceFree :=
  fun _ offset' _ _ hvalue => parseExpression_moved hvalue offset'

end

end SvelteStories.Markup
