/-
Opening tags that are read back:

* `slice_of_reads`, `slice_trimmedSpan_of_reads`: the text of a file between two places;
* `readAttribute_markup`: what is written into an opening tag is read as it was;
* `readAttributes_markup`: so is all of an opening tag.
-/
import SvelteStories.Proofs.Markup.Reading
import SvelteStories.Proofs.Markup.Written
import SvelteStories.Proofs.Text.Trim

namespace SvelteStories.Markup

open Place

/-! ### The text between two places -/

section

variable {source : Source} {p q : Place} {s : List Char}

/-- A place of a file. -/
def Place.In (source : Source) (p : Place) : Prop :=
  (start source.text).Reaches p

lemma Place.In.of_reads (hp : p.In source) (h : p.Reads s q) : q.In source :=
  Reaches.trans hp h.reaches

lemma slice_of_reads (hp : p.In source) (h : p.Reads s q) : source.slice (p.spanTo q) = s := by
  simp [Source.slice, slice?_of_reads hp h]

/-- The narrowed span of a text holds the trimmed text. -/
lemma slice_trimmedSpan_of_reads (hp : p.In source) (h : p.Reads s q) :
    source.slice (trimmedSpan s (p.spanTo q)) = trim s := by
  obtain ⟨before, hbefore, hoffset⟩ := hp
  have hspan : p.spanTo q = ⟨byteLength before, byteLength before + byteLength s⟩ := by
    simp [spanTo, h.2, hoffset, start]
  have htext : source.text = before ++ (s ++ q.rest) := by
    rw [← h.1]
    exact hbefore
  rw [Source.slice, hspan, htext, slice?_trimmedSpan]
  rfl

lemma reads_brace (h : p.Reads (inBraces s) q) :
    ∃ m m', p.Reads ['{'] m ∧ m.Reads s m' ∧ m'.Reads ['}'] q
      ∧ m.spanTo m' = ⟨p.offset + 1, p.offset + 1 + byteLength s⟩ := by
  obtain ⟨m, hopen, h⟩ := reads_cons_iff.mp h
  obtain ⟨m', hinside, hclose⟩ := reads_append_iff.mp h
  refine ⟨m, m', hopen, hinside, hclose, ?_⟩
  simp [spanTo, hinside.2, hopen.2]
  decide

end

/-! ### Signs in code -/

/-- A test that fails on the signs that begin something holds of plain characters only. -/
lemma isPlain_of_test {test : Char → Bool} {c : Char} (h : test c = true)
    (hsigns : ∀ d ∈ ['"', '\'', '\x60', '{', '}', '/'], test d = false) : IsPlain c ∧ c ≠ '/' := by
  have hne : ∀ d ∈ ['"', '\'', '\x60', '{', '}', '/'], c ≠ d := by
    rintro d hd rfl
    exact absurd h (by simp [hsigns c hd])
  simpa [IsPlain, and_assoc] using hne

lemma isPlain_of_letter {c : Char} (h : isAsciiLetter c = true) : IsPlain c ∧ c ≠ '/' :=
  isPlain_of_test h (by decide)

lemma isPlain_of_snippetNamePart {c : Char} (h : isSnippetNamePart c = true) :
    IsPlain c ∧ c ≠ '/' :=
  isPlain_of_test h (by decide)

/-- Code stays code behind signs that begin nothing. -/
lemma code_append_of_plain {s w : List Char} (hs : ∀ c ∈ s, IsPlain c ∧ c ≠ '/') (hw : Code w) :
    Code (s ++ w) := by
  induction s with
  | nil => exact hw
  | cons c s ih =>
      obtain ⟨hplain, hslash⟩ := hs c List.mem_cons_self
      exact .other hplain (fun h => absurd h hslash)
        (ih fun d hd => hs d (List.mem_cons_of_mem _ hd))

/-! ### Attributes -/

/-- Behind a place nothing goes on with an attribute. -/
def EndsAttribute (q : Place) : Prop :=
  (∀ c, q.rest.head? = some c → isAttributeNamePart c = false)
    ∧ q.skipBlanks.rest.head? ≠ some '='

section

variable {source : Source} {read : ExpressionReader} {p q : Place} {name code data : List Char}

lemma isAttributeNamePart_iff {c : Char} : isAttributeNamePart c = true ↔
    isAsciiBlank c = false ∧ c ≠ '=' ∧ c ≠ '>' ∧ c ≠ '/' ∧ c ≠ '"' ∧ c ≠ '\'' ∧ c ≠ '{' := by
  simp [isAttributeNamePart]

/-- Where no blank stands, none is skipped. -/
lemma skipBlanks_eq_self (h : ∀ c, p.rest.head? = some c → isAsciiBlank c = false) :
    p.skipBlanks = p := by
  have hrun : p.run isAsciiBlank = [] := (Reads.refl p).run_eq (by simp) h
  rw [skipBlanks, hrun]
  exact (Reads.refl p).after_eq

/-- A single blank is skipped. -/
lemma skipBlanks_eq (h : p.Reads [' '] q)
    (hq : ∀ c, q.rest.head? = some c → isAsciiBlank c = false) : p.skipBlanks = q := by
  rw [skipBlanks, h.run_eq (by decide) hq]
  exact h.after_eq

/-- A value stands right behind its equals sign. -/
lemma valuePlace?_eq {s : List Char} {c : Char} (h : p.Reads ('=' :: c :: s) q)
    (hc : isAsciiBlank c = false) :
    ∃ m, p.Reads ['='] m ∧ m.Reads (c :: s) q ∧ valuePlace? p = some m := by
  obtain ⟨m, hequals, hvalue⟩ := reads_cons_iff.mp h
  refine ⟨m, hequals, hvalue, ?_⟩
  have hp : p.skipBlanks = p := skipBlanks_eq_self fun d hd => by
    obtain rfl : '=' = d := by simpa [hequals.1] using hd
    decide
  have hm : m.skipBlanks = m := skipBlanks_eq_self fun d hd => by
    obtain rfl : c = d := by simpa [hvalue.1] using hd
    exact hc
  simp [valuePlace?, hp, hequals.1, hequals.after_eq, hm]

lemma valuePlace?_eq_none (h : EndsAttribute p) : valuePlace? p = none := by
  simp [valuePlace?, h.2]

/-- The kinds of directives are names without a colon. -/
lemma isAttributeName_of_directiveKind : ∀ kind ∈ directiveKinds,
    kind ≠ [] ∧ ∀ c ∈ kind, isAttributeNamePart c = true ∧ (c != ':') = true := by
  decide

lemma directiveOf?_eq {kind : List Char} (h : kind ∈ directiveKinds) :
    directiveOf? (kind ++ ':' :: name) = some (kind, name) := by
  have hcolon : ∀ c ∈ kind, (c != ':') = true := fun c hc =>
    ((isAttributeName_of_directiveKind kind h).2 c hc).2
  have htake : (kind ++ ':' :: name).takeWhile (· != ':') = kind := by
    rw [List.takeWhile_append_of_pos hcolon]
    simp
  simp [directiveOf?, htake, h]

/-- Code between braces is read as the expression that it is. -/
lemma expressionValue_eq (hp : p.In source) (h : p.Reads (inBraces code) q)
    (htrim : trim code = code) (hread : ∀ offset, ∃ value, read offset code = .ok value) :
    ∃ value, expressionValue read (p.offset + 1) code = .ok value
      ∧ value.part source = .code code := by
  obtain ⟨m, m', hopen, hinside, -, hspan⟩ := reads_brace h
  have hslice := slice_trimmedSpan_of_reads (hp.of_reads hopen) hinside
  rw [hspan, htrim] at hslice
  obtain ⟨value, hvalue⟩ := hread (trimmedSpan code
    ⟨p.offset + 1, p.offset + 1 + byteLength code⟩).start
  refine ⟨.expression _ value, ?_, by rw [AttributeValue.part, hslice]⟩
  simp only [expressionValue, htrim, hvalue]

/-- A quoted text is read as it was. -/
lemma readValue_text (h : p.Reads ('"' :: (data ++ ['"'])) q) (hquote : '"' ∉ data)
    (hbrace : '{' ∉ data) :
    ∃ value, readValue read p = .ok (value, q) ∧ value.part source = .text data := by
  obtain ⟨m, hopen, hm⟩ := reads_cons_iff.mp h
  obtain ⟨m', hdata, hclose⟩ := reads_append_iff.mp hm
  have hrun : m.run (fun c => c != '"' && c != '{') = data := by
    refine hdata.run_eq (fun c hc => ?_) fun c hc => ?_
    · have hne : c ≠ '"' := fun heq => hquote (heq ▸ hc)
      have hne' : c ≠ '{' := fun heq => hbrace (heq ▸ hc)
      simp [hne, hne']
    · obtain rfl : '"' = c := by simpa [hclose.1] using hc
      decide
  have hparts : quotedParts '"' p (m.rest.length + 1) m
      = .ok ((textPart m.offset data).map fun part => (part, data), q) := by
    simp [quotedParts, hrun, hdata.after_eq, hclose.1, hclose.after_eq, pure, Except.pure]
  have hread : readValue read p
      = (quotedValue read m.offset ((textPart m.offset data).map fun part => (part, data))).map
          fun value => (value, q) := by
    rw [readValue]
    split
    · rename_i tail hrest
      simp [hopen.1] at hrest
    · rename_i c tail _ hrest
      obtain ⟨rfl, -⟩ : '"' = c ∧ m.rest = tail := by simpa [hopen.1] using hrest
      simp only [hopen.after_eq, hparts, ok_bind]
      cases quotedValue read m.offset _ <;> rfl
    · rename_i hrest
      simp [hopen.1] at hrest
  rw [hread]
  cases data with
  | nil => exact ⟨_, rfl, rfl⟩
  | cons c data => exact ⟨_, rfl, rfl⟩

lemma readValue_code (hp : p.In source) (h : p.Reads (inBraces code) q) (hcode : Code code)
    (htrim : trim code = code) (hread : ∀ offset, ∃ value, read offset code = .ok value) :
    ∃ value, readValue read p = .ok (value, q) ∧ value.part source = .code code := by
  obtain ⟨value, hvalue, hpart⟩ := expressionValue_eq hp h htrim hread
  refine ⟨value, ?_, hpart⟩
  have hrest : p.rest = '{' :: (code ++ '}' :: q.rest) := by simpa [inBraces] using h.1
  simp only [readValue, hrest, braced_eq_ok h hcode, ok_bind, hvalue]
  rfl

lemma readDirectiveValue_eq (hp : p.In source) (h : p.Reads (inBraces code) q)
    (hcode : Code code) :
    ∃ span, readDirectiveValue p = .ok (span, q) ∧ source.slice span = code := by
  obtain ⟨m, m', hopen, hinside, -, hspan⟩ := reads_brace h
  refine ⟨m.spanTo m', ?_, slice_of_reads (hp.of_reads hopen) hinside⟩
  have hrest : p.rest = '{' :: (code ++ '}' :: q.rest) := by simpa [inBraces] using h.1
  have hquote : p.rest.head?.filter (fun c => c = '"' || c = '\'') = none := by
    rw [hrest]
    rfl
  simp only [readDirectiveValue, hquote]
  simp [hrest, braced_eq_ok h hcode, hspan, pure, Except.pure]

/-- A spread is read as it was. -/
lemma readAttribute_spread (hp : p.In source) (h : p.Reads (TagPart.spread code).markup q)
    (hcode : Code code) (htrim : trimEnd code = code) :
    ∃ a, readAttribute read p = .ok (a, q) ∧ a.part source = .spread code := by
  obtain ⟨m, m', hopen, hinside, -, hspan⟩ := reads_brace h
  have hdots : p.Reads (inBraces ('.' :: '.' :: '.' :: code)) q := h
  have htrimmed : trim ('.' :: '.' :: '.' :: code) = '.' :: '.' :: '.' :: code := by
    have hstart : trimStart ('.' :: '.' :: '.' :: code) = '.' :: '.' :: '.' :: code :=
      trimStart_eq_self_iff.mpr (by rintro c ⟨rfl⟩; decide)
    rw [trim, hstart]
    exact trimEnd_append (u := ['.', '.', '.']) (by decide) htrim
  have hbraced : braced p = .ok ('.' :: '.' :: '.' :: code, q) :=
    braced_eq_ok hdots (code_append_of_plain (s := ['.', '.', '.']) (by simp [IsPlain]) hcode)
  obtain ⟨m₂, hsign, hoperand⟩ := reads_append_iff.mp
    (show m.Reads (['.', '.', '.'] ++ code) m' from hinside)
  have hm : m.offset = p.offset + 1 := hopen.2
  have hm₂ : m₂.offset = m.offset + 3 := hsign.2
  have hslice := slice_of_reads ((hp.of_reads hopen).of_reads hsign) hoperand
  refine ⟨.spread (p.spanTo q) (m₂.spanTo m'), ?_, by rw [AttributeNode.part, hslice]⟩
  have hrest : p.rest.head? = some '{' := by simp [hopen.1]
  rw [readAttribute, if_pos hrest, readBracedAttribute, hbraced, ok_bind]
  simp only [htrimmed, ← hspan, trimmedSpan_eq_self htrimmed (List.cons_ne_nil _ _)]
  simp [spanTo, hm, hm₂, pure, Except.pure]

/-- Where a name stands, an attribute with that name is read. -/
lemma readAttribute_of_name {m : Place} (h : p.Reads name m) (hname : IsAttributeName name)
    (hm : ∀ c, m.rest.head? = some c → isAttributeNamePart c = false) :
    readAttribute read p = match directiveOf? name, valuePlace? m with
      | some (kind, name), some v => do
        let (code, q) ← readDirectiveValue v
        return (.directive (p.spanTo q) kind name (some code), q)
      | some (kind, name), none => .ok (.directive (p.spanTo m) kind name none, m)
      | none, some v => do
        let (value, q) ← readValue read v
        return (.plain ⟨p.spanTo q, name, value⟩, q)
      | none, none => .ok (.plain ⟨p.spanTo m, name, .none⟩, m) := by
  obtain ⟨hne, hpart⟩ := hname
  obtain ⟨c, rest, rfl⟩ := List.exists_cons_of_ne_nil hne
  have hbrace : p.rest.head? ≠ some '{' := by
    have hc := (isAttributeNamePart_iff.mp (hpart c List.mem_cons_self)).2.2.2.2.2.2
    simpa [h.1] using hc
  rw [readAttribute, if_neg hbrace]
  simp only [h.run_eq hpart hm, List.isEmpty_cons, h.after_eq]
  rfl

lemma not_isAttributeNamePart_of_equals {s : List Char} (h : p.Reads ('=' :: s) q) :
    ∀ c, p.rest.head? = some c → isAttributeNamePart c = false := fun c hc => by
  obtain rfl : '=' = c := by simpa [h.1] using hc
  decide

/-- What is written into an opening tag is read as it was. -/
lemma readAttribute_markup {a : TagPart} (ha : a.Valid read) (hp : p.In source)
    (h : p.Reads a.markup q) (hq : EndsAttribute q) :
    ∃ n, readAttribute read p = .ok (n, q) ∧ n.part source = a := by
  cases ha with
  | bare hname hdirective =>
      rename_i name
      obtain ⟨m, hreads, hm⟩ := reads_append_iff.mp h
      obtain rfl : m = q := hm.after_eq
      refine ⟨.plain ⟨p.spanTo m, name, .none⟩, ?_, rfl⟩
      rw [readAttribute_of_name hreads hname hq.1, hdirective, valuePlace?_eq_none hq]
  | text hname hdirective hquote hbrace =>
      rename_i name data
      obtain ⟨m, hreads, hm⟩ := reads_append_iff.mp h
      obtain ⟨v, hequals, hv, hplace⟩ := valuePlace?_eq hm (by decide)
      obtain ⟨value, hvalue, hpart⟩ :
          ∃ value, readValue read v = .ok (value, q) ∧ value.part source = .text data :=
        readValue_text hv hquote hbrace
      refine ⟨.plain ⟨p.spanTo q, name, value⟩, ?_, by rw [AttributeNode.part, hpart]⟩
      rw [readAttribute_of_name hreads hname (not_isAttributeNamePart_of_equals hm), hdirective,
        hplace]
      simp only [hvalue, ok_bind]
      rfl
  | code hname hdirective hcode htrim hread =>
      rename_i name code
      obtain ⟨m, hreads, hm⟩ := reads_append_iff.mp h
      obtain ⟨v, hequals, hv, hplace⟩ := valuePlace?_eq hm (by decide)
      obtain ⟨value, hvalue, hpart⟩ :=
        readValue_code ((hp.of_reads hreads).of_reads hequals) hv hcode htrim hread
      refine ⟨.plain ⟨p.spanTo q, name, value⟩, ?_, by rw [AttributeNode.part, hpart]⟩
      rw [readAttribute_of_name hreads hname (not_isAttributeNamePart_of_equals hm), hdirective,
        hplace]
      simp only [hvalue, ok_bind]
      rfl
  | spread hcode htrim => exact readAttribute_spread hp h hcode htrim
  | directive hkind hname hcode =>
      rename_i kind name code
      have hdirective : directiveOf? (kind ++ ':' :: name) = some (kind, name) :=
        directiveOf?_eq hkind
      have hname' : IsAttributeName (kind ++ ':' :: name) := by
        refine ⟨by simp, fun c hc => ?_⟩
        rcases List.mem_append.mp hc with hc | hc
        · exact ((isAttributeName_of_directiveKind kind hkind).2 c hc).1
        · rcases List.mem_cons.mp hc with rfl | hc
          · decide
          · exact hname c hc
      rw [TagPart.markup, ← List.cons_append, ← List.append_assoc] at h
      obtain ⟨m, hreads, hm⟩ := reads_append_iff.mp h
      cases code with
      | none =>
          obtain rfl : m = q := hm.after_eq
          refine ⟨.directive (p.spanTo m) kind name none, ?_, rfl⟩
          rw [readAttribute_of_name hreads hname' hq.1, hdirective, valuePlace?_eq_none hq]
      | some code =>
          obtain ⟨v, hequals, hv, hplace⟩ := valuePlace?_eq hm (by decide)
          obtain ⟨span, hspan, hslice⟩ := readDirectiveValue_eq
            ((hp.of_reads hreads).of_reads hequals) hv (hcode code rfl)
          refine ⟨.directive (p.spanTo q) kind name (some span), ?_, ?_⟩
          · rw [readAttribute_of_name hreads hname' (not_isAttributeNamePart_of_equals hm),
              hdirective, hplace]
            simp only [hspan, ok_bind]
            rfl
          · simp [AttributeNode.part, hslice]

/-! ### All of an opening tag -/

/-- What is written begins with a name or a brace. -/
lemma exists_markup_eq_cons {a : TagPart} (ha : a.Valid read) :
    ∃ c s, a.markup = c :: s ∧ isAsciiBlank c = false ∧ c ≠ '=' ∧ c ≠ '/' ∧ c ≠ '>' := by
  have hnamed : ∀ {name : List Char} (s : List Char), IsAttributeName name →
      ∃ c r, name ++ s = c :: r ∧ isAsciiBlank c = false ∧ c ≠ '=' ∧ c ≠ '/' ∧ c ≠ '>' := by
    rintro name s ⟨hne, hpart⟩
    obtain ⟨c, rest, rfl⟩ := List.exists_cons_of_ne_nil hne
    obtain ⟨hblank, hequals, hclose, hslash, -⟩ :=
      isAttributeNamePart_iff.mp (hpart c List.mem_cons_self)
    exact ⟨c, rest ++ s, rfl, hblank, hequals, hslash, hclose⟩
  cases ha with
  | bare hname _ => exact hnamed _ hname
  | text hname _ _ _ => exact hnamed _ hname
  | code hname _ _ _ _ => exact hnamed _ hname
  | spread _ _ => exact ⟨'{', _, rfl, by decide⟩
  | directive hkind _ _ =>
      obtain ⟨hne, hpart⟩ := isAttributeName_of_directiveKind _ hkind
      exact hnamed _ ⟨hne, fun c hc => (hpart c hc).1⟩

/-- Behind an attribute stands another one or the end of the tag. -/
lemma endsAttribute_of_reads {tag : List TagPart} {selfClosing : Bool}
    (htag : ∀ a ∈ tag, a.Valid read) (h : p.Reads (tagMarkup tag ++ tagEnd selfClosing) q) :
    EndsAttribute p := by
  -- a blank with the sign behind it, or the sign alone
  have hblank : ∀ {c : Char} {s : List Char}, p.Reads (' ' :: c :: s) q →
      isAsciiBlank c = false → c ≠ '=' → EndsAttribute p := by
    intro c s h hc hequals
    obtain ⟨m, hspace, hm⟩ := reads_cons_iff.mp h
    have hskip : p.skipBlanks = m := skipBlanks_eq hspace fun d hd => by
      obtain rfl : c = d := by simpa [hm.1] using hd
      exact hc
    refine ⟨fun d hd => ?_, by simpa [hskip, hm.1] using hequals⟩
    obtain rfl : ' ' = d := by simpa [hspace.1] using hd
    decide
  cases tag with
  | nil =>
      cases selfClosing with
      | true => exact hblank h (by decide) (by decide)
      | false =>
          have hhead : ∀ c, p.rest.head? = some c → c = '>' := fun c hc => by
            simpa [h.1, tagMarkup, tagEnd, eq_comm] using hc
          refine ⟨fun c hc => hhead c hc ▸ by decide, ?_⟩
          rw [skipBlanks_eq_self fun c hc => hhead c hc ▸ by decide]
          exact fun hc => absurd (hhead _ hc) (by decide)
  | cons a tag =>
      obtain ⟨c, s, ha, hc, hequals, -⟩ := exists_markup_eq_cons (htag a List.mem_cons_self)
      rw [tagMarkup, ha] at h
      exact hblank h hc hequals

/-- An opening tag is read as it was. -/
theorem readAttributes_markup (opening : Place) (element : List Char) {tag : List TagPart}
    {selfClosing : Bool} {fuel : Nat} (hp : p.In source) (htag : ∀ a ∈ tag, a.Valid read)
    (h : p.Reads (tagMarkup tag ++ tagEnd selfClosing) q) (hfuel : tag.length < fuel) :
    ∃ attributes, readAttributes read opening element fuel p = .ok ((attributes, selfClosing), q)
      ∧ attributes.map (AttributeNode.part source) = tag := by
  induction tag generalizing p fuel with
  | nil =>
      obtain ⟨fuel, rfl⟩ := Nat.exists_eq_add_of_lt hfuel
      refine ⟨[], ?_, rfl⟩
      cases selfClosing with
      | true =>
          obtain ⟨m, hspace, hm⟩ := reads_cons_iff.mp (show p.Reads (' ' :: ['/', '>']) q from h)
          have hskip : p.skipBlanks = m := skipBlanks_eq hspace fun c hc => by
            obtain rfl : '/' = c := by simpa [hm.1] using hc
            decide
          simp [readAttributes, hskip, hm.1, hm.after_eq, pure, Except.pure]
      | false =>
          have hskip : p.skipBlanks = p := skipBlanks_eq_self fun c hc => by
            obtain rfl : '>' = c := by simpa [h.1, tagMarkup, tagEnd] using hc
            decide
          have hend : p.Reads ['>'] q := h
          simp [readAttributes, hskip, hend.1, hend.after_eq, pure, Except.pure]
  | cons a tag ih =>
      obtain ⟨fuel, rfl⟩ : ∃ n, fuel = n + 1 := ⟨fuel - 1, by omega⟩
      have ha := htag a List.mem_cons_self
      have htag' : ∀ a ∈ tag, a.Valid read := fun b hb => htag b (List.mem_cons_of_mem _ hb)
      rw [tagMarkup, List.cons_append, List.append_assoc] at h
      obtain ⟨m, hspace, hm⟩ := reads_cons_iff.mp h
      obtain ⟨m', hmarkup, hrest⟩ := reads_append_iff.mp hm
      obtain ⟨c, s, hcons, hc, -, hslash, hclose⟩ := exists_markup_eq_cons ha
      have hhead : m.rest = c :: (s ++ m'.rest) := by rw [hmarkup.1, hcons, List.cons_append]
      have hskip : p.skipBlanks = m := skipBlanks_eq hspace fun d hd => by
        obtain rfl : c = d := by simpa [hhead] using hd
        exact hc
      obtain ⟨n, hread, hpart⟩ := readAttribute_markup ha (hp.of_reads hspace) hmarkup
        (endsAttribute_of_reads htag' hrest)
      obtain ⟨attributes, hattributes, hparts⟩ := ih ((hp.of_reads hspace).of_reads hmarkup) htag'
        hrest (by simpa using hfuel)
      refine ⟨n :: attributes, ?_, by rw [List.map_cons, hpart, hparts]⟩
      rw [readAttributes, hskip]
      split
      · rename_i hend
        exact absurd (by simpa [hhead] using congrArg List.head? hend) hslash
      · rename_i hend
        exact absurd (by simpa [hhead] using congrArg List.head? hend) hclose
      · rename_i hnil
        simp [hhead] at hnil
      · simp only [hread, hattributes, ok_bind]
        rfl

end

end SvelteStories.Markup
