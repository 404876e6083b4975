/-
What is left of a tree of markup when it is moved to another file:

* `MovesTo`: a map of offsets moves some bytes behind one offset to those behind another one;
* `AttributeNode.outline`, `Node.outline`: what stands in an opening tag and a part of a template
  with their places moved by a map of offsets; inside the expressions of opening tags they are forgotten;
* `readAttributes_copied`: an opening tag that stands in two files is read in both of them, as the
  same one but for its places. There is a lemma for each thing that may stand in the tag.

Behind an attribute, blanks are looked through for an equals sign. So an attribute is not told by its
text alone, but it is by the text up to the end of the tag (`Place.SameTag`).
-/
import Mathlib.Data.List.Forall2
import SvelteStories.Proofs.Markup.Copied
import SvelteStories.Proofs.Script.Unplaced
import SvelteStories.Proofs.Text.Trim

namespace SvelteStories

/-- A span with both ends moved. -/
def Span.mapEnds (m : Nat → Nat) (s : Span) : Span :=
  ⟨m s.start, m s.stop⟩

@[simp] lemma Span.mapEnds_id (s : Span) : s.mapEnds id = s := rfl

/-- A map moves some bytes behind one offset to those behind another one. -/
def MovesTo (m : Nat → Nat) (length offset offset' : Nat) : Prop :=
  ∀ n ≤ length, offset' + n = m (offset + n)

section

variable {m : Nat → Nat} {length offset offset' : Nat}

/-- Parts of a text are moved with it. -/
lemma MovesTo.part (h : MovesTo m length offset offset') {k n : Nat} (hk : k + n ≤ length) :
    MovesTo m n (offset + k) (offset' + k) := by
  intro i hi
  rw [Nat.add_assoc, Nat.add_assoc]
  exact h (k + i) (by omega)

lemma MovesTo.mapEnds (h : MovesTo m length offset offset') {i j : Nat} (hi : i ≤ length)
    (hj : j ≤ length) :
    (⟨offset + i, offset + j⟩ : Span).mapEnds m = ⟨offset' + i, offset' + j⟩ := by
  rw [Span.mapEnds, h i hi, h j hj]

/-- The place of a whole text. -/
lemma MovesTo.mapEnds_whole (h : MovesTo m length offset offset') :
    (⟨offset, offset + length⟩ : Span).mapEnds m = ⟨offset', offset' + length⟩ :=
  h.mapEnds (Nat.zero_le _) (Nat.le_refl _)

/-- What is left of a text is moved with it. -/
lemma MovesTo.trimmedSpan {t : List Char} (h : MovesTo m (byteLength t) offset offset') :
    (SvelteStories.trimmedSpan t ⟨offset, offset + byteLength t⟩).mapEnds m
      = SvelteStories.trimmedSpan t ⟨offset', offset' + byteLength t⟩ := by
  obtain ⟨k, hk, heq⟩ := exists_trimmedSpan_eq t
  rw [heq, heq]
  exact (h.part hk).mapEnds_whole

end

namespace Markup

open Script Place

/-! ### Outlines -/

/-- A part of a quoted value, its places moved. -/
def ValuePart.outline (m : Nat → Nat) : ValuePart → ValuePart
  | text span data => .text (span.mapEnds m) data
  | expression span => .expression (span.mapEnds m)

/-- The value of an attribute, its places moved. -/
def AttributeValue.outline (m : Nat → Nat) : AttributeValue → AttributeValue
  | none => .none
  | text span data => .text (span.mapEnds m) data
  | expression span value => .expression (span.mapEnds m) value.unplaced
  | sequence parts => .sequence (parts.map (ValuePart.outline m))

/-- A named attribute, its places moved. -/
def Attribute.outline (m : Nat → Nat) (a : Attribute) : Attribute :=
  ⟨a.span.mapEnds m, a.name, a.value.outline m⟩

/-- What stands in an opening tag, its places moved. -/
def AttributeNode.outline (m : Nat → Nat) : AttributeNode → AttributeNode
  | plain a => .plain (a.outline m)
  | spread span code => .spread (span.mapEnds m) (code.mapEnds m)
  | directive span kind name value =>
    .directive (span.mapEnds m) kind name (value.map (Span.mapEnds m))

mutual

/-- A part of a template, its places moved. -/
def Node.outline (m : Nat → Nat) : Node → Node
  | .text span data => .text (span.mapEnds m) data
  | .comment span data => .comment (span.mapEnds m) data
  | .element e => .element (e.outline m)
  | .expression span code => .expression (span.mapEnds m) (code.mapEnds m)
  | .snippet s => .snippet (s.outline m)
  | .block b => .block (b.outline m)
  | .tag span kind code => .tag (span.mapEnds m) kind (code.mapEnds m)

/-- An element, its places moved. -/
def Element.outline (m : Nat → Nat) : Element → Element
  | ⟨span, kind, name, attributes, fragment, selfClosing⟩ =>
    ⟨span.mapEnds m, kind, name, attributes.map (AttributeNode.outline m), fragment.outline m,
      selfClosing⟩

/-- A snippet, its places moved. -/
def Snippet.outline (m : Nat → Nat) : Snippet → Snippet
  | ⟨span, name, parameters, body⟩ =>
    ⟨span.mapEnds m, name, parameters.mapEnds m, body.outline m⟩

/-- A block, its places moved. -/
def Block.outline (m : Nat → Nat) : Block → Block
  | ⟨span, kind, code, branches⟩ =>
    ⟨span.mapEnds m, kind, code.mapEnds m, branchOutlines m branches⟩

/-- A fragment, its places moved. -/
def Fragment.outline (m : Nat → Nat) : Fragment → Fragment
  | ⟨span, nodes⟩ => ⟨span.mapEnds m, outlines m nodes⟩

/-- Parts of a template, their places moved. -/
def outlines (m : Nat → Nat) : List Node → List Node
  | [] => []
  | n :: nodes => n.outline m :: outlines m nodes

/-- The branches of a block, their places moved. -/
def branchOutlines (m : Nat → Nat) : List Fragment → List Fragment
  | [] => []
  | f :: fs => f.outline m :: branchOutlines m fs

end

lemma outlines_eq_map (m : Nat → Nat) (nodes : List Node) :
    outlines m nodes = nodes.map (Node.outline m) := by
  induction nodes with
  | nil => rfl
  | cons n nodes ih => rw [outlines, ih, List.map_cons]

lemma outlines_append (m : Nat → Nat) (nodes others : List Node) :
    outlines m (nodes ++ others) = outlines m nodes ++ outlines m others := by
  simp only [outlines_eq_map, List.map_append]

lemma branchOutlines_eq_map (m : Nat → Nat) (branches : List Fragment) :
    branchOutlines m branches = branches.map (Fragment.outline m) := by
  induction branches with
  | nil => rfl
  | cons f branches ih => rw [branchOutlines, ih, List.map_cons]

/-! ### Places that are copied -/

section

variable {m : Nat → Nat} {p q p' q' : Place} {s code : List Char}

lemma Place.Copied.spanTo_eq (h : Copied m p q p' q') :
    p'.spanTo q' = (p.spanTo q).mapEnds m := by
  rw [spanTo, h.start_eq, h.stop_eq]
  rfl

lemma Place.Copied.movesTo (h : Copied m p q p' q') (hs : p.Reads s q) :
    MovesTo m (byteLength s) p.offset p'.offset := by
  obtain ⟨u, hu, -, hm⟩ := h
  rwa [hs.unique hu]

/-- Code in braces is moved with them. -/
lemma Place.Copied.movesTo_code (h : Copied m p q p' q')
    (hcode : Markup.braced p = .ok (code, q)) :
    MovesTo m (byteLength code) (p.offset + 1) (p'.offset + 1) := by
  refine (h.movesTo (reads_braced hcode).1).part ?_
  have hbrace : ('{' : Char).utf8Size = 1 := rfl
  rw [byteLength, hbrace, byteLength_append]
  omega

end

/-! ### Values -/

/-- A reader gives the same expression wherever a text stands. -/
def ExpressionReader.PlaceFree (read : ExpressionReader) : Prop :=
  ∀ ⦃offset offset' t value⦄, read offset t = .ok value →
    ∃ value', read offset' t = .ok value' ∧ value'.unplaced = value.unplaced

section

variable {m : Nat → Nat} {read : ExpressionReader} {p q p' q' : Place}

lemma expressionValue_moved (hread : read.PlaceFree) {offset offset' : Nat} {code : List Char}
    {value : AttributeValue} (h : expressionValue read offset code = .ok value)
    (hm : MovesTo m (byteLength code) offset offset') :
    ∃ value', expressionValue read offset' code = .ok value'
      ∧ value'.outline id = value.outline m := by
  simp only [expressionValue] at h ⊢
  split at h
  · rename_i e he
    obtain rfl := Except.ok.inj h
    obtain ⟨e', he', heq⟩ := hread he
    rw [he']
    exact ⟨_, rfl, by simp [AttributeValue.outline, heq, hm.trimmedSpan]⟩
  · cases h

/-- A part of a quoted value, with its code, that is copied. -/
inductive PartCopied (m : Nat → Nat) : ValuePart × List Char → ValuePart × List Char → Prop
  /-- Plain text. -/
  | text (span : Span) (data code : List Char) :
    PartCopied m (.text span data, code) (.text (span.mapEnds m) data, code)
  /-- Code. -/
  | expression {offset offset' : Nat} {code : List Char} :
    MovesTo m (byteLength code) offset offset' →
    PartCopied m (.expression ⟨offset, offset + byteLength code⟩, code)
      (.expression ⟨offset', offset' + byteLength code⟩, code)

lemma PartCopied.outline_eq {part part' : ValuePart × List Char} (h : PartCopied m part part') :
    part'.1.outline id = part.1.outline m := by
  cases h with
  | text => rfl
  | expression hm => exact congrArg ValuePart.expression hm.mapEnds_whole.symm

lemma textPart_copied {offset offset' : Nat} {t : List Char}
    (hm : MovesTo m (byteLength t) offset offset') :
    List.Forall₂ (PartCopied m) ((textPart offset t).map fun part => (part, t))
      ((textPart offset' t).map fun part => (part, t)) := by
  rw [textPart, textPart]
  split_ifs
  · exact .nil
  · rw [← hm.mapEnds_whole]
    exact .cons (.text _ t t) .nil

lemma quotedParts_copied {quote : Char} {opening : Place} (opening' : Place) {fuel fuel' : Nat}
    {parts : List (ValuePart × List Char)}
    (h : quotedParts quote opening fuel p = .ok (parts, q)) (hc : Copied m p q p' q')
    (hfuel : p'.rest.length < fuel') :
    ∃ parts', quotedParts quote opening' fuel' p' = .ok (parts', q')
      ∧ List.Forall₂ (PartCopied m) parts parts' := by
  induction fuel generalizing p p' parts fuel' with
  | zero => simp [quotedParts] at h
  | succ fuel ih =>
      obtain ⟨fuel', rfl⟩ := Nat.exists_eq_add_one_of_ne_zero (Nat.ne_zero_of_lt hfuel)
      have hreads := p.reads_run fun c => c != quote && c != '{'
      rw [quotedParts] at h
      dsimp only at h
      split at h
      · simp at h
      · rename_i c rest hrest
        split_ifs at h with hquote
        · -- the closing quote
          simp only [pure_eq_ok_iff, Prod.mk.injEq] at h
          obtain ⟨rfl, rfl⟩ := h
          have hstop := reads_head (c := c) (by rw [hrest]; rfl)
          obtain ⟨hrun, hbehind⟩ := hc.run hstop.reaches hstop.length_lt
          have hstop' := hbehind.reads hstop
          have hmoves := (hc.after hreads hstop.reaches).1.movesTo hreads
          refine ⟨_, ?_, textPart_copied hmoves⟩
          rw [quotedParts]
          simp only [hrun, hstop'.1, List.singleton_append, hquote, if_true, ← hstop'.after_eq]
          rfl
        · -- code, and the parts behind it
          simp only [bind_eq_ok_iff, pure_eq_ok_iff, Prod.mk.injEq] at h
          obtain ⟨⟨code, behind⟩, hcode, ⟨inner, stop⟩, hinner, rfl, rfl⟩ := h
          dsimp only at hinner hc ⊢
          have hbraces := (reads_braced hcode).1
          have hreaches := quotedParts_reaches hinner
          obtain ⟨hrun, hq⟩ := hc.run (hbraces.reaches.trans hreaches)
            (Nat.lt_of_le_of_lt hreaches.length_le hbraces.length_lt)
          obtain ⟨behind', hcode', hbehind⟩ := hq.split hbraces.reaches hreaches
          have hmoves := (hc.after hreads (hbraces.reaches.trans hreaches)).1.movesTo hreads
          have hbraces' := hcode'.reads hbraces
          have hrun' : (p'.after (p.run fun c => c != quote && c != '{')).rest.length
              ≤ p'.rest.length := by
            rw [← hrun]
            exact (p'.reads_run _).reaches.length_le
          obtain ⟨inner', hinner', hparts⟩ := ih hinner hbehind
            (show _ < fuel' by have := hbraces'.length_lt; omega)
          have hne : '{' ≠ quote := by
            have hc := (List.cons.inj (hrest.symm.trans hbraces.1)).1
            exact hc ▸ hquote
          rw [quotedParts]
          simp only [hrun, hbraces'.1, List.cons_append, if_neg hne, hcode'.braced hcode, ok_bind,
            hinner']
          exact ⟨_, rfl, List.rel_append (textPart_copied hmoves)
            (.cons (.expression (hcode'.movesTo_code hcode)) hparts)⟩

lemma map_outline_of_copied {parts parts' : List (ValuePart × List Char)}
    (h : List.Forall₂ (PartCopied m) parts parts') :
    (parts'.map Prod.fst).map (ValuePart.outline id)
      = (parts.map Prod.fst).map (ValuePart.outline m) := by
  induction h with
  | nil => rfl
  | cons hpart _ ih => simp only [List.map_cons, hpart.outline_eq, ih]

/-- Several parts stay several parts. -/
lemma quotedValue_sequence (read : ExpressionReader) (offset : Nat)
    (first second : ValuePart × List Char) (others : List (ValuePart × List Char)) :
    quotedValue read offset (first :: second :: others)
      = .ok (.sequence ((first :: second :: others).map Prod.fst)) := by
  obtain ⟨part, code⟩ := first
  cases part <;> rfl

lemma quotedValue_moved (hread : read.PlaceFree) {offset : Nat}
    {parts parts' : List (ValuePart × List Char)} {value : AttributeValue}
    (h : quotedValue read offset parts = .ok value)
    (hparts : List.Forall₂ (PartCopied m) parts parts') :
    ∃ value', quotedValue read (m offset) parts' = .ok value'
      ∧ value'.outline id = value.outline m := by
  -- the shape of the parts decides what the value is
  cases hparts with
  | nil =>
      obtain rfl := Except.ok.inj h
      exact ⟨_, rfl, rfl⟩
  | cons hpart hothers =>
      cases hothers with
      | nil =>
          cases hpart with
          | text span data code =>
              obtain rfl := Except.ok.inj h
              exact ⟨_, rfl, rfl⟩
          | expression hm => exact expressionValue_moved hread h hm
      | cons hpart' hothers =>
          rw [quotedValue_sequence] at h
          obtain rfl := Except.ok.inj h
          exact ⟨_, quotedValue_sequence _ _ _ _ _, congrArg AttributeValue.sequence
            (map_outline_of_copied (.cons hpart (.cons hpart' hothers)))⟩

lemma readValue_copied (hread : read.PlaceFree) {value : AttributeValue}
    (h : readValue read p = .ok (value, q)) (hc : Copied m p q p' q') (htag : SameTag q q') :
    ∃ value', readValue read p' = .ok (value', q') ∧ value'.outline id = value.outline m := by
  have hreaches := readValue_reaches h
  have hhead := (hc.sameTag htag).head?_eq
  rw [readValue] at h
  split at h
  · -- code
    rename_i rest hrest
    simp only [bind_eq_ok_iff, pure_eq_ok_iff, Prod.mk.injEq] at h
    obtain ⟨⟨code, q⟩, hcode, value, hvalue, rfl, rfl⟩ := h
    obtain ⟨value', hvalue', hsame⟩ :=
      expressionValue_moved hread hvalue (hc.movesTo_code hcode)
    have hrest' := (hc.reads (reads_braced hcode).1).1
    rw [readValue, hrest']
    simp only [List.cons_append, hc.braced hcode, ok_bind, hvalue']
    exact ⟨_, rfl, hsame⟩
  · rename_i c rest hbrace hrest
    obtain ⟨rest', hrest'⟩ : ∃ rest', p'.rest = c :: rest' := by
      rw [hrest] at hhead
      exact (List.head?_eq_some_iff.mp hhead)
    have hhere : p.Reads [c] (p.after [c]) := reads_after hrest
    split_ifs at h with hquote
    · -- a value in quotes
      simp only [bind_eq_ok_iff, pure_eq_ok_iff, Prod.mk.injEq] at h
      obtain ⟨⟨parts, q⟩, hparts, value, hvalue, rfl, rfl⟩ := h
      obtain ⟨p₁, hp₁, hq⟩ := hc.split hhere.reaches (quotedParts_reaches hparts)
      have hhere' := hp₁.reads hhere
      obtain ⟨parts', hparts', hsame⟩ :=
        quotedParts_copied p' hparts hq (Nat.lt_succ_self p₁.rest.length)
      obtain ⟨value', hvalue', heq⟩ := quotedValue_moved hread hvalue hsame
      rw [← hp₁.stop_eq] at hvalue'
      refine ⟨value', ?_, heq⟩
      rw [readValue]
      simp only [hrest', hquote, if_true, hhere'.after_eq]
      rw [hparts', ok_bind, hvalue', ok_bind]
      rfl
    · -- a value without quotes may end before the slash that closes the tag
      obtain ⟨hrun, hafter⟩ := (hc.sameTag htag).run
        (fun d => !isAsciiBlank d && d != '>') (by decide)
      simp only [pure_eq_ok_iff, Prod.mk.injEq] at h
      obtain ⟨rfl, hq⟩ := h
      generalize hrun' : (p.run fun d => !isAsciiBlank d && d != '>') = run at hq hrun hafter ⊢
      have hwhole : run <+: p.rest := hrun' ▸ run_isPrefix _ _
      generalize hdata : (if (p.after run).rest.head? = some '>' && run.getLast? = some '/' then
        run.dropLast else run) = data at hq ⊢
      have hprefix : data <+: p.rest := by
        rw [← hdata]
        split_ifs
        · exact (List.dropLast_prefix _).trans hwhole
        · exact hwhole
      subst hq
      have hq := (hc.reads (reads_of_startsWith hprefix)).after_eq
      refine ⟨.text (p'.spanTo q') data, ?_, by simp [AttributeValue.outline, hc.spanTo_eq]⟩
      rw [readValue]
      simp only [hrest', hquote, hrun, hafter.head?_eq, hdata, hq]
      rfl
  · exact absurd (by assumption) (hc.sameTag htag).ne_nil

lemma readDirectiveValue_copied {span : Span} (h : readDirectiveValue p = .ok (span, q))
    (hc : Copied m p q p' q') (htag : SameTag q q') :
    readDirectiveValue p' = .ok (span.mapEnds m, q') := by
  have hhead := (hc.sameTag htag).head?_eq
  rw [readDirectiveValue] at h
  rw [readDirectiveValue, hhead]
  cases hquote : p.rest.head?.filter fun c => c = '"' || c = '\'' with
  | none =>
      simp only [hquote] at h ⊢
      split_ifs at h with hopen
      · exact absurd h error_bind_ne_ok
      · simp only [bind_eq_ok_iff, pure_eq_ok_iff, Prod.mk.injEq] at h
        obtain ⟨⟨code, q⟩, hcode, rfl, rfl⟩ := h
        rw [hhead, if_neg hopen, hc.braced hcode, (hc.movesTo_code hcode).mapEnds_whole]
        rfl
  | some c =>
      simp only [hquote] at h ⊢
      have hquoted := reads_head (Option.filter_eq_some_iff.mp hquote).1
      split_ifs at h with hopen
      · exact absurd h error_bind_ne_ok
      · rw [bind_eq_ok_iff] at h
        obtain ⟨⟨code, q₁⟩, hcode, h⟩ := h
        split_ifs at h with hclosing
        · simp only [pure_eq_ok_iff, Prod.mk.injEq] at h
          obtain ⟨rfl, rfl⟩ := h
          have hbraces := (reads_braced hcode).1
          have hlast := reads_head hclosing
          obtain ⟨hp, hbehind⟩ := hc.after hquoted (hbraces.reaches.trans hlast.reaches)
          obtain ⟨q₂, hcode', hlast'⟩ := hbehind.split hbraces.reaches hlast.reaches
          have hq₂ := hlast'.reads hlast
          rw [(hbehind.sameTag htag).head?_eq, if_neg hopen, hcode'.braced hcode, ok_bind,
            if_pos (by rw [hq₂.1]; rfl), hq₂.after_eq, (hcode'.movesTo_code hcode).mapEnds_whole]
          rfl
        · simp at h

/-! ### Attributes -/

lemma readBracedAttribute_copied (hread : read.PlaceFree) {a : AttributeNode}
    (h : readBracedAttribute read p = .ok (a, q)) (hc : Copied m p q p' q') :
    ∃ a', readBracedAttribute read p' = .ok (a', q') ∧ a'.outline id = a.outline m := by
  rw [readBracedAttribute, bind_eq_ok_iff] at h
  obtain ⟨⟨code, q₁⟩, hcode, h⟩ := h
  dsimp only at h
  split at h
  · rename_i t htrim
    simp only [pure_eq_ok_iff, Prod.mk.injEq] at h
    obtain ⟨rfl, rfl⟩ := h
    rw [readBracedAttribute, hc.braced hcode, ok_bind]
    simp only [htrim]
    refine ⟨_, rfl, ?_⟩
    -- the three dots are a part of the code
    obtain ⟨k, hk, hspan⟩ := exists_trimmedSpan_eq code
    have hmoves := hc.movesTo_code hcode
    have hdots : 3 ≤ byteLength (trim code) := by
      rw [htrim, byteLength, byteLength, byteLength]
      have hdot : ('.' : Char).utf8Size = 1 := rfl
      omega
    have hplace := (hmoves.part hk).mapEnds hdots (Nat.le_refl _)
    simp only [AttributeNode.outline, Span.mapEnds_id, hc.spanTo_eq, hspan, hplace]
  · rename_i name hspread
    simp only [bind_eq_ok_iff, pure_eq_ok_iff, Prod.mk.injEq] at h
    obtain ⟨value, hvalue, rfl, rfl⟩ := h
    obtain ⟨value', hvalue', hsame⟩ :=
      expressionValue_moved hread hvalue (hc.movesTo_code hcode)
    rw [readBracedAttribute, hc.braced hcode, ok_bind]
    dsimp only
    split
    · rename_i htrim
      exact absurd htrim (hspread _)
    · rw [hvalue', ok_bind]
      exact ⟨_, rfl, by simp [AttributeNode.outline, Attribute.outline, hsame, hc.spanTo_eq]⟩

lemma valuePlace?_copied {v : Place} (h : valuePlace? p = some v) (hc : Copied m p q p' q')
    (htag : SameTag q q') (hq : v.Reaches q) :
    ∃ v', valuePlace? p' = some v' ∧ Copied m v q v' q' := by
  simp only [valuePlace?] at h
  split_ifs at h with hequals
  obtain rfl := Option.some.inj h
  have hsign := reads_head hequals
  have hbehind := (reads_skipBlanks (p.skipBlanks.after ['='])).reaches.trans hq
  have hblanks := hc.skipBlanks (hc.sameTag htag) (hsign.reaches.trans hbehind)
  obtain ⟨-, hvalue⟩ := hblanks.after hsign hbehind
  refine ⟨(p'.skipBlanks.after ['=']).skipBlanks, ?_, hvalue.skipBlanks (hvalue.sameTag htag) hq⟩
  rw [valuePlace?, if_pos]
  rw [(hblanks.sameTag htag).head?_eq, hequals]

lemma valuePlace?_eq_none_of_sameTag (h : valuePlace? p = none) (htag : SameTag p p') :
    valuePlace? p' = none := by
  simp only [valuePlace?] at h ⊢
  split_ifs at h with hequals
  rw [htag.skipBlanks.head?_eq, if_neg hequals]

lemma readAttribute_copied (hread : read.PlaceFree) {a : AttributeNode}
    (h : readAttribute read p = .ok (a, q)) (hc : Copied m p q p' q') (htag : SameTag q q') :
    ∃ a', readAttribute read p' = .ok (a', q') ∧ a'.outline id = a.outline m := by
  rw [readAttribute] at h
  rw [readAttribute, (hc.sameTag htag).head?_eq]
  split_ifs at h with hbrace
  · rw [if_pos hbrace]
    exact readBracedAttribute_copied hread h hc
  rw [if_neg hbrace]
  dsimp only at h ⊢
  obtain ⟨hrun, hafter⟩ := (hc.sameTag htag).run isAttributeNamePart (by decide)
  rw [hrun]
  split_ifs at h with hempty
  · exact absurd h error_bind_ne_ok
  rw [if_neg hempty]
  have hname := p.reads_run isAttributeNamePart
  split at h
  · -- a directive with a value
    rename_i kind name v hdirective hvalue
    simp only [bind_eq_ok_iff, pure_eq_ok_iff, Prod.mk.injEq] at h
    obtain ⟨⟨code, q⟩, hcode, rfl, rfl⟩ := h
    have hreaches := readDirectiveValue_reaches hcode
    obtain ⟨-, hbehind⟩ := hc.after hname ((reaches_of_valuePlace? hvalue).trans hreaches)
    obtain ⟨v', hvalue', hv⟩ := valuePlace?_copied hvalue hbehind htag hreaches
    have hcode' := readDirectiveValue_copied hcode hv htag
    simp only [hdirective, hvalue', hcode', ok_bind]
    exact ⟨_, rfl, by simp [AttributeNode.outline, hc.spanTo_eq]⟩
  · -- a directive without a value
    rename_i kind name hdirective hvalue
    simp only [pure_eq_ok_iff, Prod.mk.injEq] at h
    obtain ⟨rfl, rfl⟩ := h
    rw [hdirective, valuePlace?_eq_none_of_sameTag hvalue hafter]
    dsimp only
    rw [(hc.reads hname).after_eq]
    exact ⟨_, rfl, by simp [AttributeNode.outline, hc.spanTo_eq]⟩
  · -- an attribute with a value
    rename_i v hdirective hvalue
    simp only [bind_eq_ok_iff, pure_eq_ok_iff, Prod.mk.injEq] at h
    obtain ⟨⟨value, q⟩, hcode, rfl, rfl⟩ := h
    have hreaches := readValue_reaches hcode
    obtain ⟨-, hbehind⟩ := hc.after hname ((reaches_of_valuePlace? hvalue).trans hreaches)
    obtain ⟨v', hvalue', hv⟩ := valuePlace?_copied hvalue hbehind htag hreaches
    obtain ⟨value', hread', hsame⟩ := readValue_copied hread hcode hv htag
    simp only [hdirective, hvalue', hread', ok_bind]
    exact ⟨_, rfl, by simp [AttributeNode.outline, Attribute.outline, hsame, hc.spanTo_eq]⟩
  · -- an attribute without a value
    rename_i hdirective hvalue
    simp only [pure_eq_ok_iff, Prod.mk.injEq] at h
    obtain ⟨rfl, rfl⟩ := h
    rw [hdirective, valuePlace?_eq_none_of_sameTag hvalue hafter]
    dsimp only
    rw [(hc.reads hname).after_eq]
    exact ⟨_, rfl, by
      simp [AttributeNode.outline, Attribute.outline, AttributeValue.outline, hc.spanTo_eq]⟩

/-! ### Opening tags -/

lemma readAttributes_endsTag {opening : Place} {name : List Char} {fuel : Nat}
    {attributes : List AttributeNode} {selfClosing : Bool}
    (h : readAttributes read opening name fuel p = .ok ((attributes, selfClosing), q)) :
    p.EndsTag q := by
  induction fuel generalizing p attributes selfClosing with
  | zero => simp [readAttributes] at h
  | succ fuel ih =>
      rw [readAttributes] at h
      refine .of_reaches (reads_skipBlanks p).reaches ?_
      dsimp only at h
      split at h
      · rename_i hrest
        simp only [pure_eq_ok_iff, Prod.mk.injEq] at h
        obtain ⟨-, rfl⟩ := h
        exact ⟨['/'], reads_after (s := ['/', '>']) hrest⟩
      · rename_i hrest
        simp only [pure_eq_ok_iff, Prod.mk.injEq] at h
        obtain ⟨-, rfl⟩ := h
        exact ⟨[], reads_after (s := ['>']) hrest⟩
      · simp at h
      · simp only [bind_eq_ok_iff, pure_eq_ok_iff, Prod.mk.injEq] at h
        obtain ⟨⟨a, q'⟩, hattribute, ⟨⟨rest, closing⟩, q''⟩, hrest, -, rfl⟩ := h
        exact .of_reaches (readAttribute_reaches hattribute) (ih hrest)

/-- An opening tag that stands in two files is the same one in both of them, but for its places. -/
theorem readAttributes_copied (hread : read.PlaceFree) {opening : Place} (opening' : Place)
    {name : List Char} {fuel fuel' : Nat} {attributes : List AttributeNode} {selfClosing : Bool}
    (h : readAttributes read opening name fuel p = .ok ((attributes, selfClosing), q))
    (hc : Copied m p q p' q') (hfuel : p'.rest.length < fuel') :
    ∃ attributes', readAttributes read opening' name fuel' p' = .ok ((attributes', selfClosing), q')
      ∧ attributes'.map (AttributeNode.outline id) = attributes.map (AttributeNode.outline m) := by
  induction fuel generalizing p p' attributes selfClosing fuel' with
  | zero => simp [readAttributes] at h
  | succ fuel ih =>
      obtain ⟨fuel', rfl⟩ := Nat.exists_eq_add_one_of_ne_zero (Nat.ne_zero_of_lt hfuel)
      have htag := hc.sameTag_of_endsTag (readAttributes_endsTag h)
      rw [readAttributes] at h
      rw [readAttributes]
      dsimp only at h ⊢
      split at h
      · rename_i rest hrest
        simp only [pure_eq_ok_iff, Prod.mk.injEq, List.nil_eq] at h
        obtain ⟨⟨rfl, rfl⟩, rfl⟩ := h
        have hend := reads_after (s := ['/', '>']) hrest
        have hend' := (hc.skipBlanks htag hend.reaches).reads hend
        rw [hend'.1, ← hend'.after_eq]
        exact ⟨_, rfl, rfl⟩
      · rename_i rest hrest
        simp only [pure_eq_ok_iff, Prod.mk.injEq, List.nil_eq] at h
        obtain ⟨⟨rfl, rfl⟩, rfl⟩ := h
        have hend := reads_after (s := ['>']) hrest
        have hend' := (hc.skipBlanks htag hend.reaches).reads hend
        rw [hend'.1, ← hend'.after_eq]
        exact ⟨_, rfl, rfl⟩
      · simp at h
      · rename_i hslash hsign hnil
        simp only [bind_eq_ok_iff, pure_eq_ok_iff, Prod.mk.injEq] at h
        obtain ⟨⟨a, q₁⟩, hattribute, ⟨⟨rest, closing⟩, q₂⟩, hrest, ⟨rfl, rfl⟩, rfl⟩ := h
        dsimp only at hrest hc ⊢
        have hq := readAttributes_reaches hrest
        have ha := readAttribute_reaches hattribute
        have hblanks := hc.skipBlanks htag (ha.trans hq)
        obtain ⟨q₁', ha', hq'⟩ := hblanks.split ha hq
        obtain ⟨a', hattribute', hsame⟩ := readAttribute_copied hread hattribute ha'
          (hq'.sameTag_of_endsTag (readAttributes_endsTag hrest))
        obtain ⟨c, s, hstarts, hchar⟩ := reads_readAttribute hattribute'
        have hlength : q₁'.rest.length < fuel' := by
          have hblank := (reads_skipBlanks p').reaches.length_le
          have hshorter := hstarts.length_lt
          omega
        obtain ⟨rest', hread', hsames⟩ := ih hrest hq' hlength
        have hrest' := hstarts.1
        split
        · rename_i heq
          obtain rfl := (List.cons.inj (heq.symm.trans hrest')).1
          exact absurd hchar (by decide)
        · rename_i heq
          obtain rfl := (List.cons.inj (heq.symm.trans hrest')).1
          exact absurd hchar (by decide)
        · rename_i heq
          exact absurd (heq.symm.trans hrest') (by simp)
        · rw [hattribute', ok_bind, hread', ok_bind]
          exact ⟨_, rfl, by simp [hsame, hsames]⟩

end

end Markup

end SvelteStories
