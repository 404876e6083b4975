/-
Opening tags that are read without loss:

* `Spaced`: spans with nothing but blanks between them;
* `QuotedText`: the parts of a quoted value and the text between its quotes;
* `AttributeValue.OfParts`: the value that such parts make;
* `AttributeNode.Spelled`: how each thing in an opening tag is written;
* `Element.OpensIn`: the opening tag of an element, as it stands in the file;
* `opensIn_readElement`: an element that is read has its opening tag there.
-/
import Mathlib.Data.List.Chain
import SvelteStories.Proofs.Markup.Document
import SvelteStories.Proofs.Markup.OpeningTags

namespace SvelteStories.Markup

open Script Place

variable {source : Source} {read : ExpressionReader} {p q : Place}

/-! ### Spans with blanks between them -/

/-- Nothing but ASCII blanks stands between two offsets of a text. -/
def BlankBetween (t : List Char) (start stop : Nat) : Prop :=
  ∃ blanks, slice? t ⟨start, stop⟩ = some blanks ∧ ∀ c ∈ blanks, isAsciiBlank c = true

/-- Spans follow one another from one offset to another one. Each covers something, and nothing but
ASCII blanks stands before, between and behind them. -/
def Spaced (t : List Char) : List Span → (start stop : Nat) → Prop
  | [], start, stop => BlankBetween t start stop
  | s :: spans, start, stop =>
    BlankBetween t start s.start ∧ s.start < s.stop ∧ Spaced t spans s.stop stop

lemma BlankBetween.le {t : List Char} {start stop : Nat} (h : BlankBetween t start stop) :
    start ≤ stop := by
  obtain ⟨blanks, hslice, -⟩ := h
  obtain ⟨-, -, -, -, hstop⟩ := slice?_eq_some_iff.mp hslice
  dsimp only at hstop
  omega

/-- Spans with blanks between them come one behind the other. -/
lemma Spaced.pairwise {t : List Char} {spans : List Span} {start stop : Nat}
    (h : Spaced t spans start stop) :
    (∀ s ∈ spans, start ≤ s.start) ∧ spans.Pairwise fun a b => a.stop ≤ b.start := by
  induction spans generalizing start with
  | nil => exact ⟨by simp, .nil⟩
  | cons s spans ih =>
      obtain ⟨hblank, hlt, hrest⟩ := h
      obtain ⟨hstart, hpairwise⟩ := ih hrest
      refine ⟨List.forall_mem_cons.mpr ⟨hblank.le, fun a ha => ?_⟩,
        List.pairwise_cons.mpr ⟨hstart, hpairwise⟩⟩
      exact hblank.le.trans (hlt.le.trans (hstart a ha))

lemma blankBetween_skipBlanks (hp : p.In source) :
    BlankBetween source.text p.offset p.skipBlanks.offset :=
  ⟨_, slice?_of_reads hp (reads_skipBlanks p), fun _ hc =>
    List.all_eq_true.mp List.all_takeWhile _ hc⟩

/-! ### Quoted values -/

/-- Whether a part of a quoted value is plain text. -/
def ValuePart.isText : ValuePart → Bool
  | text _ _ => true
  | expression _ => false

/-- The place of a part together with its braces. -/
def ValuePart.outer : ValuePart → Span
  | text span _ => span
  | expression code => ⟨code.start - 1, code.stop + 1⟩

/-- The parts of a quoted value, whose inside starts at an offset. -/
structure QuotedText (source : Source) (quote : Char) (offset : Nat) (inside : List Char)
    (parts : List ValuePart) : Prop where
  /-- The inside is what is written for one part after the other. -/
  concatenated : inside = parts.flatMap fun part => (part.part source).markup
  /-- The parts cover it. -/
  tiles : Tiles (parts.map ValuePart.outer) offset (offset + byteLength inside)
  /-- No two texts are next to each other. -/
  separate : parts.IsChain fun a b => ¬ (a.isText = true ∧ b.isText = true)
  /-- A text is what stands at its place, up to the next quote or brace. -/
  texts : ∀ span data, .text span data ∈ parts →
    slice? source.text span = some data ∧ data ≠ [] ∧ quote ∉ data ∧ '{' ∉ data
  /-- So is code. -/
  codes : ∀ span, .expression span ∈ parts →
    ∃ code, slice? source.text span = some code ∧ Code code

/-- The value that the parts of a quoted value make. `offset` is the one behind the opening quote. -/
inductive AttributeValue.OfParts (source : Source) (read : ExpressionReader) (offset : Nat) :
    List ValuePart → AttributeValue → Prop
  /-- Without a part it is the empty text. -/
  | nothing : OfParts source read offset [] (.text ⟨offset, offset⟩ [])
  /-- A text alone is this text. -/
  | text {span : Span} {data : List Char} :
      OfParts source read offset [.text span data] (.text span data)
  /-- Code alone is the expression that is read in it, without the blanks around it. -/
  | expression {span : Span} {code : List Char} {value : Expr} :
      slice? source.text span = some code →
      slice? source.text (trimmedSpan code span) = some (trim code) →
      read (trimmedSpan code span).start (trim code) = .ok value →
      OfParts source read offset [.expression span] (.expression (trimmedSpan code span) value)
  /-- Only several parts make a sequence. -/
  | sequence {parts : List ValuePart} : 2 ≤ parts.length →
      OfParts source read offset parts (.sequence parts)

/-- Between the braces stands the code. -/
lemma slice?_of_braced {code : List Char} (hp : p.In source) (h : p.Reads (inBraces code) q) :
    slice? source.text ⟨p.offset + 1, p.offset + 1 + byteLength code⟩ = some code := by
  obtain ⟨m, m', hopen, hinside, -, hspan⟩ := reads_brace h
  rw [← hspan]
  exact slice?_of_reads (hp.of_reads hopen) hinside

lemma byteLength_inBraces (code : List Char) :
    byteLength (inBraces code) = byteLength code + 2 := by
  have hbrace : '{'.utf8Size = 1 ∧ '}'.utf8Size = 1 := by decide
  rw [inBraces, byteLength_cons, byteLength_append, byteLength_cons, byteLength_nil, hbrace.1,
    hbrace.2]
  omega

namespace QuotedText

variable {quote : Char} {inside data code : List Char} {parts : List ValuePart}

lemma nil (source : Source) (quote : Char) (offset : Nat) : QuotedText source quote offset [] [] :=
  ⟨rfl, rfl, .nil, by simp, by simp⟩

/-- A text in front of parts that start with code, or of none. -/
lemma text_cons (hp : p.In source) (hreads : p.Reads data q) (hne : data ≠ []) (hquote : quote ∉ data)
    (hbrace : '{' ∉ data) (hhead : ∀ part ∈ parts.head?, part.isText = false)
    (h : QuotedText source quote q.offset inside parts) :
    QuotedText source quote p.offset (data ++ inside) (.text (p.spanTo q) data :: parts) where
  concatenated := by
    rw [List.flatMap_cons, ← h.concatenated]
    rfl
  tiles := by
    refine ⟨rfl, hreads.reaches.le, ?_⟩
    rw [byteLength_append, ← Nat.add_assoc, ← hreads.2]
    exact h.tiles
  separate := List.isChain_cons.mpr
    ⟨fun part hpart htext => by simp [hhead part hpart] at htext, h.separate⟩
  texts span data' hmem := by
    rcases List.mem_cons.mp hmem with heq | hmem
    · obtain ⟨rfl, rfl⟩ := ValuePart.text.inj heq
      exact ⟨slice?_of_reads hp hreads, hne, hquote, hbrace⟩
    · exact h.texts span data' hmem
  codes span hmem := h.codes span (by simpa using hmem)

/-- Code in braces in front of parts. -/
lemma code_cons (hp : p.In source) (hreads : p.Reads (inBraces code) q) (hcode : Code code)
    (h : QuotedText source quote q.offset inside parts) :
    QuotedText source quote p.offset (inBraces code ++ inside)
      (.expression ⟨p.offset + 1, p.offset + 1 + byteLength code⟩ :: parts) := by
  have hslice := slice?_of_braced hp hreads
  have hstop : q.offset = p.offset + 1 + byteLength code + 1 := by
    rw [hreads.2, byteLength_inBraces]
    omega
  exact {
    concatenated := by
      rw [List.flatMap_cons, ← h.concatenated, ValuePart.part, Source.slice, hslice]
      rfl
    tiles := by
      refine ⟨rfl, by simp [ValuePart.outer]; omega, ?_⟩
      rw [byteLength_append, ← Nat.add_assoc, ← hreads.2]
      exact hstop ▸ h.tiles
    separate := List.isChain_cons.mpr
      ⟨fun part hpart htext => by simp [ValuePart.isText] at htext, h.separate⟩
    texts := fun span data hmem => h.texts span data (by simpa using hmem)
    codes := fun span hmem => by
      rcases List.mem_cons.mp hmem with heq | hmem
      · obtain rfl := ValuePart.expression.inj heq
        exact ⟨code, hslice, hcode⟩
      · exact h.codes span hmem }

end QuotedText

/-- The code of each part, as it is kept for reading it, stands at the part's place. -/
def CodesKept (source : Source) (parts : List (ValuePart × List Char)) : Prop :=
  ∀ span code, (.expression span, code) ∈ parts → slice? source.text span = some code

/-- What is read up to the closing quote is written as it stands there. -/
lemma quotedText_quotedParts {quote : Char} {opening : Place} {fuel : Nat}
    {parts : List (ValuePart × List Char)} (hp : p.In source)
    (h : quotedParts quote opening fuel p = .ok (parts, q)) :
    ∃ inside, p.Reads (inside ++ [quote]) q
      ∧ QuotedText source quote p.offset inside (parts.map Prod.fst)
      ∧ CodesKept source parts := by
  induction fuel generalizing p parts with
  | zero => simp [quotedParts] at h
  | succ fuel ih =>
      rw [quotedParts] at h
      set run := p.run fun c => c != quote && c != '{' with hrun
      have hreads : p.Reads run (p.after run) := p.reads_run _
      have hin : (p.after run).In source := hp.of_reads hreads
      have hplain : ∀ c ∈ run, (c != quote && c != '{') = true := fun c hc =>
        List.all_eq_true.mp List.all_takeWhile c hc
      have hquote : quote ∉ run := fun hmem => by simpa using hplain _ hmem
      have hbrace : '{' ∉ run := fun hmem => by simpa using hplain _ hmem
      -- the text before a quote or before code
      have htexts : ∀ {inside : List Char} {behind : List ValuePart},
          (∀ part ∈ behind.head?, part.isText = false) →
          QuotedText source quote (p.after run).offset inside behind →
          QuotedText source quote p.offset (run ++ inside) (textPart p.offset run ++ behind) := by
        intro inside behind hhead hinside
        rw [textPart]
        split_ifs with hempty
        · rw [List.isEmpty_iff.mp hempty] at hinside ⊢
          exact hinside
        · exact .text_cons hp hreads (by simpa using hempty) hquote hbrace hhead hinside
      have hcodes : ∀ span code,
          (.expression span, code) ∉ (textPart p.offset run).map fun part => (part, run) := by
        intro span code hmem
        rw [textPart] at hmem
        split_ifs at hmem <;> simp at hmem
      split at h
      · simp at h
      · rename_i c rest hrest
        split_ifs at h with hclose
        · simp only [pure_eq_ok_iff, Prod.mk.injEq] at h
          obtain ⟨rfl, rfl⟩ := h
          subst hclose
          refine ⟨run, hreads.trans (reads_after hrest), ?_, ?_⟩
          · simpa [Function.comp_def] using htexts (by simp) (.nil source c _)
          · exact fun span code hmem => absurd hmem (hcodes span code)
        · simp only [bind_eq_ok_iff, pure_eq_ok_iff, Prod.mk.injEq] at h
          obtain ⟨⟨code, behind⟩, hcode, ⟨parts', stop⟩, hparts, rfl, rfl⟩ := h
          obtain ⟨hbraced, hiscode⟩ := reads_braced hcode
          obtain ⟨inside, hinside, hquoted, hkept⟩ := ih (hin.of_reads hbraced) hparts
          refine ⟨run ++ (inBraces code ++ inside), ?_, ?_, ?_⟩
          · have hall := hreads.trans (hbraced.trans hinside)
            simpa [inBraces] using hall
          · have hcons := QuotedText.code_cons hin hbraced hiscode hquoted
            simpa [Function.comp_def] using htexts (by simp [ValuePart.isText]) hcons
          · intro span code' hmem
            rcases List.mem_append.mp hmem with hmem | hmem
            · exact absurd hmem (hcodes span code')
            · rcases List.mem_cons.mp hmem with heq | hmem
              · obtain ⟨hspan, rfl⟩ := Prod.mk.inj heq
                exact ValuePart.expression.inj hspan ▸ slice?_of_braced hin hbraced
              · exact hkept span code' hmem

lemma slice?_trimmedSpan_of_slice? {t code : List Char} {span : Span}
    (h : slice? t span = some code) : slice? t (trimmedSpan code span) = some (trim code) := by
  obtain ⟨before, behind, rfl, hstart, hstop⟩ := slice?_eq_some_iff.mp h
  have hspan : span = ⟨byteLength before, byteLength before + byteLength code⟩ := by
    rw [hstart, ← hstop]
  rw [hspan]
  exact slice?_trimmedSpan before behind

lemma expressionValue_eq_ok_iff {offset : Nat} {code : List Char} {value : AttributeValue} :
    expressionValue read offset code = .ok value ↔ ∃ v,
      read (trimmedSpan code ⟨offset, offset + byteLength code⟩).start (trim code) = .ok v
        ∧ .expression (trimmedSpan code ⟨offset, offset + byteLength code⟩) v = value := by
  rw [expressionValue]
  split
  · rename_i v hv
    simp [hv]
  · rename_i fault hfault
    simp [hfault]

/-- The parts of a quoted value make the value that is read. -/
lemma ofParts_quotedValue {offset : Nat} {parts : List (ValuePart × List Char)}
    {value : AttributeValue} (hkept : CodesKept source parts)
    (h : quotedValue read offset parts = .ok value) :
    value.OfParts source read offset (parts.map Prod.fst) := by
  rw [quotedValue.eq_def] at h
  split at h
  · obtain rfl := Except.ok.inj h
    exact .nothing
  · obtain rfl := Except.ok.inj h
    exact .text
  · rename_i span code
    have hslice := hkept span code (by simp)
    have hspan : (⟨span.start, span.start + byteLength code⟩ : Span) = span := by
      obtain ⟨-, -, -, -, hstop⟩ := slice?_eq_some_iff.mp hslice
      rw [← hstop]
    obtain ⟨v, hread, rfl⟩ := expressionValue_eq_ok_iff.mp h
    rw [hspan] at hread ⊢
    exact .expression hslice (slice?_trimmedSpan_of_slice? hslice) hread
  · rename_i hnothing htext hcode
    obtain rfl := Except.ok.inj h
    refine .sequence ?_
    match parts with
    | [] => exact absurd rfl hnothing
    | [(.text span data, w)] => exact absurd rfl (htext span data w)
    | [(.expression span, code)] => exact absurd rfl (hcode span code)
    | _ :: _ :: _ => simp

/-! ### Values -/

/-- How a value that starts at an offset is written. -/
inductive AttributeValue.Spelled (source : Source) (read : ExpressionReader) :
    (offset : Nat) → List Char → AttributeValue → Prop
  /-- In quotes, as the value that the parts between them make. -/
  | quoted {offset : Nat} {quote : Char} {inside : List Char} {parts : List ValuePart}
      {value : AttributeValue} : quote = '"' ∨ quote = '\'' →
      QuotedText source quote (offset + 1) inside parts →
      value.OfParts source read (offset + 1) parts →
      Spelled source read offset (quote :: (inside ++ [quote])) value
  /-- In braces, as the expression that is read in them. -/
  | code {offset : Nat} {code : List Char} {span : Span} {value : Expr} : Code code →
      span = trimmedSpan code ⟨offset + 1, offset + 1 + byteLength code⟩ →
      slice? source.text span = some (trim code) → read span.start (trim code) = .ok value →
      Spelled source read offset (inBraces code) (.expression span value)
  /-- With neither, as text that ends before a blank or before the end of the tag. -/
  | unquoted {offset : Nat} {data : List Char} : (∀ c ∈ ['"', '\'', '{'], data.head? ≠ some c) →
      (∀ c ∈ data, isAsciiBlank c = false ∧ c ≠ '>') →
      Spelled source read offset data (.text ⟨offset, offset + byteLength data⟩ data)

lemma spelled_readValue {value : AttributeValue} (hp : p.In source)
    (h : readValue read p = .ok (value, q)) :
    ∃ w, p.Reads w q ∧ value.Spelled source read p.offset w := by
  rw [readValue] at h
  split at h
  · simp only [bind_eq_ok_iff, pure_eq_ok_iff, Prod.mk.injEq] at h
    obtain ⟨⟨code, q⟩, hbraced, value, hvalue, rfl, rfl⟩ := h
    obtain ⟨hreads, hcode⟩ := reads_braced hbraced
    obtain ⟨v, hread, rfl⟩ := expressionValue_eq_ok_iff.mp hvalue
    have hslice := slice?_trimmedSpan_of_slice? (slice?_of_braced hp hreads)
    exact ⟨_, hreads, .code hcode rfl hslice hread⟩
  · rename_i c rest hbrace hrest
    split_ifs at h with hquote
    · simp only [bind_eq_ok_iff, pure_eq_ok_iff, Prod.mk.injEq] at h
      obtain ⟨⟨parts, q⟩, hparts, value, hvalue, rfl, rfl⟩ := h
      have hopen : p.Reads [c] (p.after [c]) := reads_after hrest
      have hquotes : c = '"' ∨ c = '\'' := by simpa using hquote
      have hsize : c.utf8Size = 1 := by rcases hquotes with rfl | rfl <;> decide
      obtain ⟨inside, hinside, hquoted, hkept⟩ := quotedText_quotedParts (hp.of_reads hopen) hparts
      have hoffset : (p.after [c]).offset = p.offset + 1 := by
        rw [hopen.2, byteLength_cons, byteLength_nil, hsize]
      rw [hoffset] at hquoted hvalue
      exact ⟨_, hopen.trans hinside, .quoted hquotes hquoted (ofParts_quotedValue hkept hvalue)⟩
    · -- a value without quotes may end before the slash that closes the tag
      simp only [pure_eq_ok_iff, Prod.mk.injEq] at h
      obtain ⟨rfl, rfl⟩ := h
      set run := p.run fun d => !isAsciiBlank d && d != '>'
      set data := if (p.after run).rest.head? = some '>' && run.getLast? = some '/' then run.dropLast
        else run with hdata
      have hkept : data <+: run := by
        rw [hdata]
        split_ifs
        · exact List.dropLast_prefix _
        · exact List.prefix_rfl
      have hrun : run <+: p.rest := List.takeWhile_prefix _
      have hreads := reads_of_startsWith (hkept.trans hrun)
      refine ⟨data, hreads, .unquoted (fun d hd hhead => ?_) fun d hd => ?_⟩
      · obtain ⟨behind, hbehind⟩ := List.head?_eq_some_iff.mp hhead
        have hcons := hreads.1
        rw [hbehind, hrest, List.cons_append, List.cons.injEq] at hcons
        obtain rfl := hcons.1
        rcases List.mem_cons.mp hd with rfl | hd
        · simp at hquote
        · rcases List.mem_cons.mp hd with rfl | hd
          · simp at hquote
          · exact hbrace (List.mem_singleton.mp hd)
      · have htest : (!isAsciiBlank d && d != '>') = true :=
          List.all_eq_true.mp List.all_takeWhile d (hkept.subset hd)
        simpa using htest
  · rename_i hrest
    simp only [pure_eq_ok_iff, Prod.mk.injEq] at h
    obtain ⟨rfl, rfl⟩ := h
    exact ⟨[], .refl p, .unquoted (by simp) (by simp)⟩

/-! ### What stands in an opening tag -/

/-- How something in an opening tag is written at its place. -/
inductive AttributeNode.Spelled (source : Source) (read : ExpressionReader) : AttributeNode → Prop
  /-- An attribute without a value is its name. -/
  | bare {span : Span} {name : List Char} : IsAttributeName name →
      slice? source.text span = some name → Spelled source read (.plain ⟨span, name, .none⟩)
  /-- One with a value has an equals sign between both, with blanks around it or without. -/
  | valued {span : Span} {name blanks blanks' w : List Char} {value : AttributeValue} :
      IsAttributeName name → (∀ c ∈ blanks ++ blanks', isAsciiBlank c = true) →
      slice? source.text span = some (name ++ (blanks ++ '=' :: blanks') ++ w) →
      value.Spelled source read (span.start + byteLength (name ++ (blanks ++ '=' :: blanks'))) w →
      Spelled source read (.plain ⟨span, name, value⟩)
  /-- An expression in braces is its own name. -/
  | named {span inner : Span} {code : List Char} {value : Expr} : Code code →
      slice? source.text span = some (inBraces code) → slice? source.text inner = some (trim code) →
      read inner.start (trim code) = .ok value →
      Spelled source read (.plain ⟨span, trim code, .expression inner value⟩)
  /-- A spread is in braces too. -/
  | spread {span operand : Span} {code : List Char} : Code code →
      slice? source.text span = some (inBraces code) → ['.', '.', '.'] <+: trim code →
      Spelled source read (.spread span operand)
  /-- A directive starts with its kind and its name. -/
  | directive {span : Span} {kind name behind : List Char} {value : Option Span} :
      kind ∈ directiveKinds → slice? source.text span = some (kind ++ ':' :: name ++ behind) →
      Spelled source read (.directive span kind name value)

lemma eq_of_directiveOf? {name kind rest : List Char} (h : directiveOf? name = some (kind, rest)) :
    kind ∈ directiveKinds ∧ name = kind ++ ':' :: rest := by
  have hsplit := List.takeWhile_append_dropWhile (p := (· != ':')) (l := name)
  rw [directiveOf?] at h
  split at h
  · rename_i behind hbehind
    split_ifs at h with hkind
    obtain ⟨rfl, rfl⟩ := Prod.mk.inj (Option.some.inj h)
    refine ⟨by simpa using hkind, ?_⟩
    calc name
        = name.takeWhile (· != ':') ++ name.dropWhile (· != ':') := hsplit.symm
      _ = name.takeWhile (· != ':') ++ name.drop (name.takeWhile (· != ':')).length := by
          rw [List.append_cancel_left_eq]
          have hdrop := @List.drop_left _ (name.takeWhile (· != ':')) (name.dropWhile (· != ':'))
          exact hdrop.symm.trans (by rw [hsplit])
      _ = name.takeWhile (· != ':') ++ ':' :: behind := by rw [hbehind]
  · cases h

lemma reads_of_valuePlace? (h : valuePlace? p = some q) :
    ∃ blanks blanks', p.Reads (blanks ++ '=' :: blanks') q
      ∧ ∀ c ∈ blanks ++ blanks', isAsciiBlank c = true := by
  simp only [valuePlace?] at h
  split_ifs at h with hequals
  obtain rfl := Option.some.inj h
  refine ⟨_, _, (reads_skipBlanks p).trans ((reads_head hequals).trans (reads_skipBlanks _)),
    fun c hc => ?_⟩
  rcases List.mem_append.mp hc with hc | hc
  · exact List.all_eq_true.mp List.all_takeWhile c hc
  · exact List.all_eq_true.mp List.all_takeWhile c hc

lemma spelled_readBracedAttribute {a : AttributeNode} (hp : p.In source)
    (h : readBracedAttribute read p = .ok (a, q)) : a.span = p.spanTo q ∧ a.Spelled source read := by
  rw [readBracedAttribute, bind_eq_ok_iff] at h
  obtain ⟨⟨code, q'⟩, hbraced, h⟩ := h
  obtain ⟨hreads, hcode⟩ := reads_braced hbraced
  dsimp only at h
  split at h
  · rename_i operand hdots
    simp only [pure_eq_ok_iff, Prod.mk.injEq] at h
    obtain ⟨rfl, rfl⟩ := h
    exact ⟨rfl, .spread hcode (slice?_of_reads hp hreads) ⟨operand, hdots.symm⟩⟩
  · simp only [bind_eq_ok_iff, pure_eq_ok_iff, Prod.mk.injEq] at h
    obtain ⟨value, hvalue, rfl, rfl⟩ := h
    obtain ⟨v, hread, rfl⟩ := expressionValue_eq_ok_iff.mp hvalue
    have hslice := slice?_trimmedSpan_of_slice? (slice?_of_braced hp hreads)
    exact ⟨rfl, .named hcode (slice?_of_reads hp hreads) hslice hread⟩

/-- What is read in an opening tag is written at its place. -/
lemma spelled_readAttribute {a : AttributeNode} (hp : p.In source)
    (h : readAttribute read p = .ok (a, q)) : a.span = p.spanTo q ∧ a.Spelled source read := by
  rw [readAttribute] at h
  split_ifs at h with hbrace
  · exact spelled_readBracedAttribute hp h
  dsimp only at h
  split_ifs at h with hempty
  · exact absurd h error_bind_ne_ok
  set name := p.run isAttributeNamePart
  have hreads : p.Reads name (p.after name) := p.reads_run _
  have hname : IsAttributeName name :=
    ⟨by simpa using hempty, fun c hc => List.all_eq_true.mp List.all_takeWhile c hc⟩
  split at h
  · rename_i kind rest v hdirective hplace
    simp only [bind_eq_ok_iff, pure_eq_ok_iff, Prod.mk.injEq] at h
    obtain ⟨⟨code, q⟩, hcode, rfl, rfl⟩ := h
    obtain ⟨hkind, heq⟩ := eq_of_directiveOf? hdirective
    obtain ⟨behind, hbehind⟩ :=
      (reaches_of_valuePlace? hplace).trans (readDirectiveValue_reaches hcode)
    have hslice := slice?_of_reads hp (hreads.trans hbehind)
    rw [heq] at hslice
    exact ⟨rfl, .directive hkind hslice⟩
  · rename_i kind rest hdirective hplace
    simp only [pure_eq_ok_iff, Prod.mk.injEq] at h
    obtain ⟨rfl, rfl⟩ := h
    obtain ⟨hkind, heq⟩ := eq_of_directiveOf? hdirective
    have hslice : slice? source.text (p.spanTo (p.after name)) = some (kind ++ ':' :: rest ++ []) := by
      rw [slice?_of_reads hp hreads, List.append_nil, ← heq]
    exact ⟨rfl, .directive hkind hslice⟩
  · rename_i v hdirective hplace
    simp only [bind_eq_ok_iff, pure_eq_ok_iff, Prod.mk.injEq] at h
    obtain ⟨⟨value, q⟩, hvalue, rfl, rfl⟩ := h
    obtain ⟨blanks, blanks', hequals, hblanks⟩ := reads_of_valuePlace? hplace
    have hbefore := hreads.trans hequals
    obtain ⟨w, hw, hspelled⟩ := spelled_readValue (hp.of_reads hbefore) hvalue
    rw [hbefore.2] at hspelled
    exact ⟨rfl, .valued hname hblanks (slice?_of_reads hp (hbefore.trans hw)) hspelled⟩
  · simp only [pure_eq_ok_iff, Prod.mk.injEq] at h
    obtain ⟨rfl, rfl⟩ := h
    exact ⟨rfl, .bare hname (slice?_of_reads hp hreads)⟩

/-! ### Opening tags -/

/-- The end of an opening tag. -/
def tagClose (selfClosing : Bool) : List Char :=
  if selfClosing then ['/', '>'] else ['>']

lemma spaced_readAttributes {opening : Place} {name : List Char} {fuel : Nat}
    {attributes : List AttributeNode} {selfClosing : Bool} (hp : p.In source)
    (h : readAttributes read opening name fuel p = .ok ((attributes, selfClosing), q)) :
    (∃ close, Spaced source.text (attributes.map AttributeNode.span) p.offset close
        ∧ slice? source.text ⟨close, q.offset⟩ = some (tagClose selfClosing))
      ∧ ∀ a ∈ attributes, a.Spelled source read := by
  induction fuel generalizing p attributes selfClosing with
  | zero => simp [readAttributes] at h
  | succ fuel ih =>
      rw [readAttributes] at h
      have hblank := blankBetween_skipBlanks hp
      have hin : p.skipBlanks.In source := hp.of_reads (reads_skipBlanks p)
      dsimp only at h
      split at h
      · rename_i hrest
        simp only [pure_eq_ok_iff, Prod.mk.injEq] at h
        obtain ⟨⟨rfl, rfl⟩, rfl⟩ := h
        have hclose := slice?_of_reads hin (reads_after (s := ['/', '>']) hrest)
        exact ⟨⟨_, hblank, hclose⟩, by simp⟩
      · rename_i hrest
        simp only [pure_eq_ok_iff, Prod.mk.injEq] at h
        obtain ⟨⟨rfl, rfl⟩, rfl⟩ := h
        have hclose := slice?_of_reads hin (reads_after (s := ['>']) hrest)
        exact ⟨⟨_, hblank, hclose⟩, by simp⟩
      · simp at h
      · simp only [bind_eq_ok_iff, pure_eq_ok_iff, Prod.mk.injEq] at h
        obtain ⟨⟨a, q'⟩, hattribute, ⟨⟨rest, closing⟩, q''⟩, hrest, ⟨rfl, rfl⟩, rfl⟩ := h
        obtain ⟨hspan, hspelled⟩ := spelled_readAttribute hin hattribute
        obtain ⟨c, s, hreads, -⟩ := reads_readAttribute hattribute
        obtain ⟨⟨close, hspaced, hclose⟩, hspelleds⟩ := ih (hin.of_reads hreads) hrest
        have hlt : p.skipBlanks.offset < q'.offset := by
          rw [hreads.2, byteLength_cons]
          have hpos := c.utf8Size_pos
          omega
        refine ⟨⟨close, ?_, hclose⟩, List.forall_mem_cons.mpr ⟨hspelled, hspelleds⟩⟩
        rw [List.map_cons, hspan]
        exact ⟨hblank, hlt, hspaced⟩

/-- The opening tag of an element: an angle bracket and the name, what stands in the tag, and the
sign that closes it, right before the content. -/
structure Element.OpensIn (source : Source) (read : ExpressionReader) (e : Element) : Prop where
  /-- The tag starts with the element's name. -/
  name : slice? source.text ⟨e.span.start, e.span.start + byteLength ('<' :: e.name)⟩
    = some ('<' :: e.name)
  /-- Only blanks stand between the name, what follows it and the end of the tag. -/
  spaced : ∃ close, Spaced source.text (e.attributes.map AttributeNode.span)
      (e.span.start + byteLength ('<' :: e.name)) close
    ∧ slice? source.text ⟨close, e.fragment.span.start⟩ = some (tagClose e.selfClosing)
  /-- So what stands in the tag comes in order. -/
  increasing : (e.attributes.map AttributeNode.span).Pairwise fun a b => a.stop ≤ b.start
  /-- Each thing in the tag is written at its place. -/
  spelled : ∀ a ∈ e.attributes, a.Spelled source read

/-- What an element holds starts right behind its opening tag. -/
lemma start_readContent {children : NodeReader} {name : List Char} {selfClosing : Bool}
    {opening inside : Place} {f : Fragment}
    (h : readContent children name selfClosing opening inside = .ok (f, q)) :
    f.span.start = inside.offset := by
  simp only [readContent] at h
  split_ifs at h
  · obtain ⟨rfl, -⟩ := Prod.mk.inj (Except.ok.inj h)
    rfl
  · split at h
    · simp at h
    · simp only [bind_eq_ok_iff, pure_eq_ok_iff, Prod.mk.injEq] at h
      obtain ⟨_, -, rfl, -⟩ := h
      rfl
  · simp only [bind_eq_ok_iff, pure_eq_ok_iff, Prod.mk.injEq] at h
    obtain ⟨_, -, _, -, rfl, -⟩ := h
    rfl

/-- An element that is read has its opening tag in front of its content. -/
lemma opensIn_readElement {children : NodeReader} {e : Element} (hp : p.In source)
    (hopen : p.rest.head? = some '<') (h : readElement read children p = .ok (.element e, q)) :
    e.OpensIn source read := by
  simp only [readElement, bind_eq_ok_iff, pure_eq_ok_iff, Prod.mk.injEq] at h
  obtain ⟨⟨⟨attributes, selfClosing⟩, inside⟩, hattributes, ⟨f, q⟩, hcontent, heq, rfl⟩ := h
  have hname := reads_elementName hopen
  obtain ⟨⟨close, hspaced, hclose⟩, hspelled⟩ :=
    spaced_readAttributes (hp.of_reads hname) hattributes
  rw [← start_readContent hcontent] at hclose
  rw [hname.2] at hspaced
  obtain rfl := Node.element.inj heq
  refine ⟨?_, ⟨close, hspaced, hclose⟩, hspaced.pairwise.2, hspelled⟩
  have hslice := slice?_of_reads hp hname
  rwa [spanTo, hname.2] at hslice

end SvelteStories.Markup
