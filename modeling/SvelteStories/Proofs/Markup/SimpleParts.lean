/-
Parts without children that are read back:

* `textRun_append`, `splitAtFirst_append`: text and comments end where they were written to end;
* `Header.Holds`, `braced_headed`: what stands in braces behind a sign and a word is read as it was;
* `readText_markup`, `readComment_markup`, `readExpressionTag_markup`, `readTag_markup`: so are the
  parts without children;
* `readClosingTag_markup`: a closing tag is read to its end.
-/
import SvelteStories.Proofs.Markup.ClosingBrace
import SvelteStories.Proofs.Markup.OpeningTags

namespace SvelteStories.Markup

open Place

variable {source : Source} {read : ExpressionReader} {p q : Place}

/-! ### Text and comments -/

lemma IsPlainText.tail {c : Char} {data : List Char} (h : IsPlainText (c :: data)) :
    IsPlainText data :=
  ⟨fun hc => h.1 (List.mem_cons_of_mem _ hc), fun d hd hinfix => h.2 d hd (List.infix_cons hinfix)⟩

/-- A sign of its own that begins no tag is text. -/
lemma beginning_of_lt {c : Char} {t : List Char} (hletter : isAsciiLetter c = false)
    (hslash : c ≠ '/') (hbang : c ≠ '!') : beginning ('<' :: c :: t) = .node .text := by
  rw [beginning, hletter]
  · rfl
  · exact fun _ hc => absurd hc hbang
  · exact hslash

/-- So is any other character that begins nothing. -/
lemma beginning_of_other {c : Char} {t : List Char} (hbrace : c ≠ '{') (hlt : c = '<' → t = []) :
    beginning (c :: t) = .node .text := by
  have hsign (d : Char) (rest : List Char) (h : c :: t = '<' :: d :: rest) : False := by
    obtain ⟨hc, ht⟩ := List.cons.inj h
    rw [hlt hc] at ht
    cases ht
  have hopen (rest : List Char) (h : c :: t = '{' :: rest) : False := hbrace (List.cons.inj h).1
  rw [beginning]
  · exact List.cons_ne_nil c t
  · exact fun _ => hsign _ _
  · exact fun _ => hsign _ _
  · exact hsign
  all_goals exact fun _ => hopen _

/-- A sign with a letter behind it begins an element. -/
lemma beginning_of_letter {c : Char} {t : List Char} (h : isAsciiLetter c = true) :
    beginning ('<' :: c :: t) = .node .element := by
  have hslash : c ≠ '/' := by rintro rfl; exact absurd h (by decide)
  have hbang : c ≠ '!' := by rintro rfl; exact absurd h (by decide)
  rw [beginning, h]
  · rfl
  · exact fun _ hc => absurd hc hbang
  · exact hslash

/-- A brace without a sign behind it begins code. -/
lemma beginning_of_brace {t : List Char} (h : ∀ c ∈ ['#', ':', '@', '/'], t.head? ≠ some c) :
    beginning ('{' :: t) = .node .expression := by
  rw [beginning]
  all_goals
    rintro rest rfl
    exact absurd rfl (h _ (by decide))

/-- Where something else begins, text ends. -/
lemma textRun_eq_nil {t : List Char} (h : beginning t ≠ .node .text) : textRun t = [] := by
  rw [textRun.eq_def]
  split
  · rfl
  · rfl
  · rename_i c t
    split_ifs with hc
    · rfl
    · simp only [Bool.or_eq_true, decide_eq_true_eq, not_or, Bool.not_eq_true] at hc
      exact absurd (beginning_of_lt hc.1.1 hc.1.2 hc.2) h
  · rename_i c t hbrace hlt
    refine absurd (beginning_of_other (fun hc => hbrace hc) fun hc => ?_) h
    cases t with
    | nil => rfl
    | cons d t => exact absurd rfl (hlt d t hc)

/-- Behind text stands nothing, or a sign that ends it. -/
lemma head?_of_textRun {r : List Char} (h : textRun r = []) :
    ∀ c, r.head? = some c → c = '{' ∨ c = '<' := by
  intro c hc
  obtain ⟨t, rfl⟩ := List.head?_eq_some_iff.mp hc
  by_contra hne
  rw [not_or] at hne
  rw [textRun.eq_def] at h
  split at h <;> simp_all

/-- Behind a sign of plain text that could begin a tag stands a character with which none begins. -/
lemma IsPlainText.next {data r : List Char} (h : IsPlainText ('<' :: data)) (hr : textRun r = [])
    {c : Char} (hc : (data ++ r).head? = some c) :
    isAsciiLetter c = false ∧ c ≠ '/' ∧ c ≠ '!' := by
  cases data with
  | nil => rcases head?_of_textRun hr c hc with rfl | rfl <;> decide
  | cons d data =>
      obtain rfl : d = c := by simpa using hc
      have hinfix : ['<', d] <:+: '<' :: d :: data := ⟨[], data, rfl⟩
      have hnone := fun hd => h.2 d hd hinfix
      simpa [not_or] using hnone

/-- Plain text is read up to where text ends. -/
lemma textRun_append {data r : List Char} (hdata : IsPlainText data) (hr : textRun r = []) :
    textRun (data ++ r) = data := by
  induction data with
  | nil => exact hr
  | cons c data ih =>
      have hbrace : c ≠ '{' := fun hc => hdata.1 (hc ▸ List.mem_cons_self)
      have htail := ih hdata.tail
      by_cases hc : c = '<'
      · subst hc
        cases hrest : data ++ r with
        | nil => simp_all [textRun]
        | cons d t =>
            obtain ⟨hletter, hslash, hbang⟩ := hdata.next hr (by rw [hrest, List.head?_cons])
            rw [hrest] at htail
            simp [hrest, textRun, hletter, hslash, hbang, htail]
      · rw [List.cons_append, textRun, htail]
        · exact hbrace
        · exact fun _ _ h => absurd h hc

/-- With plain text a text begins. -/
lemma beginning_append {data r : List Char} (hne : data ≠ []) (hdata : IsPlainText data)
    (hr : textRun r = []) : beginning (data ++ r) = .node .text := by
  obtain ⟨c, data, rfl⟩ := List.exists_cons_of_ne_nil hne
  have hbrace : c ≠ '{' := fun hc => hdata.1 (hc ▸ List.mem_cons_self)
  cases hrest : data ++ r with
  | nil => exact beginning_of_other hbrace fun _ => hrest
  | cons d t =>
      by_cases hc : c = '<'
      · subst hc
        obtain ⟨hletter, hslash, hbang⟩ := hdata.next hr (by rw [hrest, List.head?_cons])
        rw [List.cons_append, hrest]
        exact beginning_of_lt hletter hslash hbang
      · exact beginning_of_other hbrace fun h => absurd h hc

/-- A comment ends at the first place where it can. -/
lemma splitAtFirst_append {data : List Char} (h : ¬ "-->".toList <:+: data) (r : List Char) :
    splitAtFirst "-->".toList (data ++ ("-->".toList ++ r)) = some (data, "-->".toList ++ r) := by
  induction data with
  | nil => simp [splitAtFirst]
  | cons c data ih =>
      have htail : ¬ "-->".toList <:+: data := fun hinfix => h (List.infix_cons hinfix)
      have hstarts : ¬ "-->".toList <+: c :: (data ++ ("-->".toList ++ r)) := by
        intro hprefix
        rcases data with _ | ⟨d, _ | ⟨e, data⟩⟩
        · simp at hprefix
        · simp at hprefix
        · refine h (List.IsPrefix.isInfix ?_)
          simpa using hprefix
      rw [List.cons_append, splitAtFirst, ih htail, if_neg]
      · rfl
      · rwa [List.isPrefixOf_iff_prefix]

/-! ### Code in braces -/

/-- Code stays code before a sign that begins nothing. -/
lemma code_append_singleton {w : List Char} {c : Char} (hw : Code w) (hc : IsPlain c)
    (hne : c ≠ '/' ∧ c ≠ '*') : Code (w ++ [c]) := by
  obtain ⟨m, hm, hsteps⟩ := hw.steps []
  obtain ⟨h₁, h₂, h₃, h₄, h₅⟩ := hc
  refine code_iff_steps.mpr ⟨⟨.code, []⟩, ?_, rfl⟩
  rw [BraceScan.start, BraceScan.steps_append, hsteps, Option.bind_some, BraceScan.steps_cons,
    hm.step hne]
  simp [BraceScan.stepCode, h₁, h₂, h₃, h₄, h₅, hne.1]

/-- The word of a closing clause with its slash is code. -/
lemma code_slash_cons {word : List Char} (h : ∀ c ∈ word, isAsciiLetter c = true) :
    Code ('/' :: word) := by
  have hword : Code word := by
    simpa using code_append_of_plain (fun c hc => isPlain_of_letter (h c hc)) Code.nil
  refine .other (by simp [IsPlain]) (fun _ => ?_) hword
  constructor
  all_goals
    intro hhead
    exact absurd (h _ (List.mem_of_mem_head? hhead)) (by decide)

/-- What a header is said to be about. -/
structure Header.Holds (source : Source) (header : Header) (word code : List Char) : Prop where
  /-- Its word. -/
  word_eq : header.word = word
  /-- Its code. -/
  code_eq : header.code = code
  /-- The text at the place of its code. -/
  slice_eq : source.slice header.span = code
  /-- The place of its code, if there is any. -/
  place : code ≠ [] → ∃ m m' : Place, m.In source ∧ m.Reads code m' ∧ header.span = m.spanTo m'

/-- A header is taken apart at the end of its word. -/
lemma ofCode_headed {offset : Nat} {sign : Char} {word code : List Char}
    (hword : ∀ c ∈ word, isAsciiLetter c = true) :
    Header.ofCode offset (headed sign word code)
      = ⟨word, trim (' ' :: code), trimmedSpan (' ' :: code)
          ⟨offset + byteLength (sign :: word),
            offset + byteLength (sign :: word) + byteLength (' ' :: code)⟩⟩ := by
  have htake : (word ++ ' ' :: code).takeWhile isAsciiLetter = word := by
    rw [List.takeWhile_append_of_pos hword]
    simp [isAsciiLetter]
  have hdrop : (headed sign word code).drop (1 + word.length) = ' ' :: code := by
    simp [headed, Nat.add_comm 1]
  have hword' : (headed sign word code).take (1 + word.length) = sign :: word := by
    simp [headed, Nat.add_comm 1]
  have hbehind : (headed sign word code).drop 1 = word ++ ' ' :: code := rfl
  simp only [Header.ofCode, hbehind, htake, hdrop, hword']

/-- A header is read as it was. -/
lemma braced_headed {sign : Char} {word code : List Char} (hp : p.In source)
    (h : p.Reads (inBraces (headed sign word code)) q) (hsign : IsPlain sign ∧ sign ≠ '/')
    (hword : ∀ c ∈ word, isAsciiLetter c = true) (hcode : Code code) (htrim : trim code = code) :
    braced p = .ok (headed sign word code, q)
      ∧ (Header.ofCode (p.offset + 1) (headed sign word code)).Holds source word code := by
  have hheaded : headed sign word code = sign :: word ++ ' ' :: code := rfl
  have hplain : ∀ c ∈ sign :: word, IsPlain c ∧ c ≠ '/' :=
    List.forall_mem_cons.mpr ⟨hsign, fun c hc => isPlain_of_letter (hword c hc)⟩
  have hblank : Code (' ' :: code) :=
    code_append_of_plain (s := [' ']) (by simp [IsPlain]) hcode
  refine ⟨braced_eq_ok h (hheaded ▸ code_append_of_plain hplain hblank), ?_⟩
  obtain ⟨m, m', hopen, hinside, -, -⟩ := reads_brace h
  rw [hheaded] at hinside
  obtain ⟨a, hbefore, hbehind⟩ := reads_append_iff.mp hinside
  obtain ⟨b, hspace, hb⟩ := reads_cons_iff.mp hbehind
  have ha := (hp.of_reads hopen).of_reads hbefore
  have htrimmed : trim (' ' :: code) = code := by
    rw [trim, trimStart_cons (by decide), ← trim, htrim]
  have hspan : a.spanTo m' = ⟨p.offset + 1 + byteLength (sign :: word),
      p.offset + 1 + byteLength (sign :: word) + byteLength (' ' :: code)⟩ := by
    have hm : m.offset = p.offset + 1 := hopen.2
    simp only [spanTo, hbehind.2, hbefore.2, hm]
  rw [ofCode_headed hword, ← hspan]
  refine ⟨rfl, htrimmed, ?_, fun hne => ⟨b, m', ha.of_reads hspace, hb, ?_⟩⟩
  · rw [slice_trimmedSpan_of_reads ha hbehind, htrimmed]
  · rw [trimmedSpan_cons (by decide) htrim hne]
    simp [spanTo, hspace.2]

/-! ### Parts without children -/

lemma readComment_markup {data : List Char} (h : p.Reads (Part.comment data).markup q)
    (hdata : ¬ "-->".toList <:+: data) :
    ∃ n, readComment p = .ok (n, q) ∧ n.part source = .comment data := by
  rw [Part.markup, List.append_assoc] at h
  obtain ⟨m, hopen, hm⟩ := reads_append_iff.mp h
  have hrest : m.rest = data ++ ("-->".toList ++ q.rest) := by
    rw [hm.1, List.append_assoc]
  refine ⟨.comment (p.spanTo q) data, ?_, by rw [Node.part]⟩
  simp only [readComment, hopen.after_eq, hrest, splitAtFirst_append hdata, hm.after_eq]

lemma readExpressionTag_markup {code : List Char} (hp : p.In source)
    (h : p.Reads (Part.expression code).markup q) (hcode : Code code) :
    ∃ n, readExpressionTag p = .ok (n, q) ∧ n.part source = .expression code := by
  rw [Part.markup] at h
  obtain ⟨m, m', hopen, hinside, -, hspan⟩ := reads_brace h
  refine ⟨.expression (p.spanTo q) (m.spanTo m'), ?_, ?_⟩
  · rw [readExpressionTag, braced_eq_ok h hcode, ok_bind, hspan]
    rfl
  · rw [Node.part, slice_of_reads (hp.of_reads hopen) hinside]

lemma readTag_markup {kind code : List Char} (hp : p.In source)
    (h : p.Reads (Part.tag kind code).markup q) (hkind : ∀ c ∈ kind, isAsciiLetter c = true)
    (hcode : Code code) (htrim : trim code = code) :
    ∃ n, readTag p = .ok (n, q) ∧ n.part source = .tag kind code := by
  rw [Part.markup] at h
  obtain ⟨hbraced, hheader⟩ := braced_headed hp h (by simp [IsPlain]) hkind hcode htrim
  set header := Header.ofCode (p.offset + 1) (headed '@' kind code)
  refine ⟨.tag (p.spanTo q) header.word header.span, ?_, ?_⟩
  · rw [readTag, hbraced, ok_bind]
    rfl
  · rw [Node.part, hheader.word_eq, hheader.slice_eq]

lemma readText_markup {data : List Char} (h : p.Reads data q) (hne : data ≠ [])
    (hdata : IsPlainText data) (hq : textRun q.rest = []) :
    ∃ n, readText p = (n, q) ∧ n.part source = .text data := by
  obtain ⟨c, data, rfl⟩ := List.exists_cons_of_ne_nil hne
  refine ⟨.text (p.spanTo q) (c :: data), ?_, by rw [Node.part]⟩
  have hread : p.rest.take 1 ++ textRun (p.rest.drop 1) = c :: data := by
    simp [h.1, textRun_append hdata.tail hq]
  simp only [readText, hread, h.after_eq]

/-! ### Closing tags -/

lemma isElementNamePart_spec {c : Char} (h : isElementNamePart c = true) :
    isAsciiBlank c = false ∧ c ≠ '>' := by
  constructor
  · by_contra hblank
    simp only [isAsciiBlank, Bool.not_eq_false, Bool.or_eq_true, decide_eq_true_eq] at hblank
    rcases hblank with (((rfl | rfl) | rfl) | rfl) | rfl <;> exact absurd h (by decide)
  · rintro rfl
    exact absurd h (by decide)

lemma IsElementName.forall {name : List Char} (h : IsElementName name) :
    ∀ c ∈ name, isElementNamePart c = true := by
  obtain ⟨c, rest, rfl, hletter, hrest⟩ := h
  refine List.forall_mem_cons.mpr ⟨?_, hrest⟩
  simp [isElementNamePart, isAsciiAlphanumeric, hletter]

/-- A closing tag is read to its end. -/
lemma readClosingTag_markup {name : List Char} (h : p.Reads (closingTag name) q)
    (hname : IsElementName name) : readClosingTag name p = .ok q := by
  have hpart := hname.forall
  have hrest : p.rest = '<' :: '/' :: (name ++ '>' :: q.rest) := by simpa [closingTag] using h.1
  have hfound : closingName p.rest = name := by
    rw [closingName, hrest]
    refine (List.takeWhile_append_of_pos fun c hc => ?_).trans ?_
    · obtain ⟨hblank, hclose⟩ := isElementNamePart_spec (hpart c hc)
      simp [hblank, hclose]
    · simp
  obtain ⟨m, hopen, hclose⟩ := reads_append_iff.mp
    (show p.Reads ('<' :: '/' :: name ++ ['>']) q from h)
  have hskip : m.skipBlanks = m := skipBlanks_eq_self fun c hc => by
    obtain rfl : '>' = c := by simpa [hclose.1] using hc
    decide
  simp [readClosingTag, hfound, hopen.after_eq, hskip, hclose.1, hclose.after_eq]

end SvelteStories.Markup
