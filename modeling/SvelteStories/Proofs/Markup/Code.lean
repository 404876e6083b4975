/-
The grammar of code between braces, and the reader that finds the closing one:

* `Code`, `StringTail`, `TemplateTail`: the grammar. Code is a sequence of strings, template
  literals, comments, code in braces and single characters that begin none of these;
* `BraceScan.split?_eq_some_iff`: the reader stops where its steps first come to an end;
* `Code.steps`: the steps of the reader over code lead back to code;
* `BraceScan.Finishes`, `Closes`: what is still to come of the construct that the reader is in, and
  what the open enclosures around it ask for. `finishes_of_steps` turns a run of the reader into a
  derivation;
* `split?_start_eq_some_iff`: from the start, the reader stops at the first closing brace with code
  before it.
-/
import SvelteStories.Markup.Brace
import SvelteStories.Proofs.Text.Boundary

namespace SvelteStories

/-! ### The grammar -/

/-- What follows the quote that opens a string, up to and with the quote that closes it. -/
inductive StringTail (quote : Char) : List Char → Prop
  /-- The closing quote. -/
  | close : StringTail quote [quote]
  /-- A backslash takes the next character along, whatever that is. -/
  | escape (c : Char) {s : List Char} : StringTail quote s → StringTail quote ('\\' :: c :: s)
  /-- Any other character. -/
  | other {c : Char} {s : List Char} : c ≠ quote → c ≠ '\\' → StringTail quote s →
      StringTail quote (c :: s)

/-- A character that begins no string, no template literal and no braces, and ends none. -/
def IsPlain (c : Char) : Prop :=
  c ≠ '"' ∧ c ≠ '\'' ∧ c ≠ '\x60' ∧ c ≠ '{' ∧ c ≠ '}'

mutual

/-- Code. -/
inductive Code : List Char → Prop
  /-- No code. -/
  | nil : Code []
  /-- A string. -/
  | string {quote : Char} {s rest : List Char} : quote = '"' ∨ quote = '\'' →
      StringTail quote s → Code rest → Code (quote :: (s ++ rest))
  /-- A template literal. -/
  | template {s rest : List Char} : TemplateTail s → Code rest → Code ('\x60' :: (s ++ rest))
  /-- A comment up to the end of the line. -/
  | lineComment {s rest : List Char} : '\n' ∉ s → Code rest →
      Code ('/' :: '/' :: (s ++ '\n' :: rest))
  /-- A comment up to the first `*/` behind its beginning. -/
  | blockComment {s rest : List Char} : ¬ ['*', '/'] <:+: s → Code rest →
      Code ('/' :: '*' :: (s ++ '*' :: '/' :: rest))
  /-- Code in braces. -/
  | braces {inner rest : List Char} : Code inner → Code rest →
      Code ('{' :: (inner ++ '}' :: rest))
  /-- Any other character. A slash has to begin no comment. -/
  | other {c : Char} {rest : List Char} : IsPlain c →
      (c = '/' → rest.head? ≠ some '/' ∧ rest.head? ≠ some '*') → Code rest → Code (c :: rest)

/-- What follows the backtick that opens a template literal, up to and with the one that closes
it. -/
inductive TemplateTail : List Char → Prop
  /-- The closing backtick. -/
  | close : TemplateTail ['\x60']
  /-- A backslash takes the next character along. -/
  | escape (c : Char) {s : List Char} : TemplateTail s → TemplateTail ('\\' :: c :: s)
  /-- Code in braces behind a dollar sign. -/
  | interpolation {inner s : List Char} : Code inner → TemplateTail s →
      TemplateTail ('$' :: '{' :: (inner ++ '}' :: s))
  /-- Any other character. A dollar sign has to stand before no brace. -/
  | other {c : Char} {s : List Char} : c ≠ '\x60' → c ≠ '\\' → (c = '$' → s.head? ≠ some '{') →
      TemplateTail s → TemplateTail (c :: s)

end

namespace BraceScan

/-! ### Runs of the reader -/

/-- The reader after a text, unless its enclosing brace is closed in it. -/
def steps (s : BraceScan) (w : List Char) : Option BraceScan :=
  w.foldlM step s

@[simp] lemma steps_nil (s : BraceScan) : s.steps [] = some s := rfl

@[simp] lemma steps_cons (s : BraceScan) (c : Char) (w : List Char) :
    s.steps (c :: w) = (s.step c).bind fun s => s.steps w := rfl

lemma steps_append (s : BraceScan) (v w : List Char) :
    s.steps (v ++ w) = (s.steps v).bind fun s => s.steps w := by
  rw [steps, List.foldlM_append]
  rfl

/-- A text is split where a step of the reader first fails. -/
lemma split?_eq_some_iff {s : BraceScan} {t w rest : List Char} :
    s.split? t = some (w, rest)
      ↔ t = w ++ rest ∧ ∃ s' c r, s.steps w = some s' ∧ rest = c :: r ∧ s'.step c = none := by
  induction t generalizing s w with
  | nil =>
      constructor
      · intro h
        simp [split?] at h
      · rintro ⟨ht, s', c, r, -, rfl, -⟩
        simp at ht
  | cons c t ih =>
      rw [split?]
      cases hstep : s.step c with
      | none =>
          constructor
          · intro h
            simp only [Option.some.injEq, Prod.mk.injEq] at h
            obtain ⟨rfl, rfl⟩ := h
            exact ⟨rfl, s, c, t, rfl, rfl, hstep⟩
          · rintro ⟨ht, s', d, r, hsteps, rfl, -⟩
            cases w with
            | nil => simpa using ht
            | cons e w =>
                simp only [List.cons_append, List.cons.injEq] at ht
                obtain ⟨rfl, -⟩ := ht
                simp [hstep] at hsteps
      | some s₁ =>
          simp only [Option.map_eq_some_iff, Prod.mk.injEq, Prod.exists]
          constructor
          · rintro ⟨w', rest', h, rfl, rfl⟩
            obtain ⟨rfl, s', d, r, hsteps, hrest, hlast⟩ := ih.mp h
            exact ⟨rfl, s', d, r, by simpa [hstep] using hsteps, hrest, hlast⟩
          · rintro ⟨ht, s', d, r, hsteps, rfl, hlast⟩
            cases w with
            | nil =>
                simp only [List.nil_append, List.cons.injEq] at ht
                obtain ⟨rfl, rfl⟩ := ht
                simp only [steps_nil, Option.some.injEq] at hsteps
                subst hsteps
                simp [hstep] at hlast
            | cons e w =>
                simp only [List.cons_append, List.cons.injEq] at ht
                obtain ⟨rfl, rfl⟩ := ht
                simp only [steps_cons, hstep, Option.bind_some] at hsteps
                exact ⟨w, d :: r, ih.mpr ⟨rfl, s', d, r, hsteps, rfl, hlast⟩, rfl, rfl⟩

end BraceScan

open BraceScan

/-! ### From the grammar to the reader -/

lemma StringTail.steps {quote : Char} {s : List Char} (h : StringTail quote s)
    (hquote : quote ≠ '\\') (outer : List Enclosure) :
    BraceScan.steps ⟨.string quote, outer⟩ s = some ⟨.code, outer⟩ := by
  induction h with
  | close => simp [step]
  | escape c _ ih => simp [step, hquote.symm, ih]
  | other hclose hslash _ ih => simp [step, hclose, hslash, ih]

lemma steps_lineComment {s : List Char} (h : '\n' ∉ s) (outer : List Enclosure)
    (rest : List Char) :
    BraceScan.steps ⟨.lineComment, outer⟩ (s ++ '\n' :: rest)
      = BraceScan.steps ⟨.code, outer⟩ rest := by
  induction s with
  | nil => simp [step]
  | cons c s ih =>
      simp only [List.mem_cons, not_or] at h
      simp [step, Ne.symm h.1, ih h.2]

/-- A comment is read to its end, also from right behind a star. -/
lemma steps_blockComment {s : List Char} (h : ¬ ['*', '/'] <:+: s) (outer : List Enclosure)
    (rest : List Char) :
    BraceScan.steps ⟨.blockComment, outer⟩ (s ++ '*' :: '/' :: rest)
        = BraceScan.steps ⟨.code, outer⟩ rest
      ∧ (s.head? ≠ some '/' →
        BraceScan.steps ⟨.star, outer⟩ (s ++ '*' :: '/' :: rest)
          = BraceScan.steps ⟨.code, outer⟩ rest) := by
  induction s with
  | nil => simp [step]
  | cons c s ih =>
      have hs : ¬ ['*', '/'] <:+: s := fun hs => h (hs.trans (List.suffix_cons c s).isInfix)
      obtain ⟨hcomment, hstar⟩ := ih hs
      by_cases hc : c = '*'
      · subst hc
        have hhead : s.head? ≠ some '/' := by
          intro hhead
          obtain ⟨s, rfl⟩ := List.head?_eq_some_iff.mp hhead
          exact h (List.prefix_append ['*', '/'] s).isInfix
        simp [step, hstar hhead]
      · refine ⟨by simp [step, hc, hcomment], fun hhead => ?_⟩
        have hslash : c ≠ '/' := by simpa using hhead
        simp [step, hc, hslash, hcomment]

/-- In code a reader stands behind a slash or not. -/
def BraceMode.IsCode (m : BraceMode) : Prop :=
  m = .code ∨ m = .slash

lemma BraceMode.IsCode.step {m : BraceMode} (hm : m.IsCode) {c : Char}
    (hc : c ≠ '/' ∧ c ≠ '*') (outer : List Enclosure) :
    BraceScan.step ⟨m, outer⟩ c = stepCode outer c := by
  rcases hm with rfl | rfl
  · rfl
  · simp [BraceScan.step, hc]

lemma BraceMode.IsCode.steps_brace {m : BraceMode} (hm : m.IsCode) (outer : List Enclosure)
    (rest : List Char) :
    BraceScan.steps ⟨m, outer⟩ ('}' :: rest) = (leave outer).bind fun s => s.steps rest := by
  rw [steps_cons, hm.step (by decide)]
  simp [stepCode]

/-- A slash is read over if it begins no comment. -/
lemma steps_slash {w : List Char} (hw : w.head? ≠ some '/' ∧ w.head? ≠ some '*')
    {outer : List Enclosure} {m : BraceMode} (hm : m.IsCode)
    (h : BraceScan.steps ⟨.code, outer⟩ w = some ⟨m, outer⟩) :
    ∃ m : BraceMode, m.IsCode ∧ BraceScan.steps ⟨.slash, outer⟩ w = some ⟨m, outer⟩ := by
  cases w with
  | nil => exact ⟨.slash, Or.inr rfl, rfl⟩
  | cons c w =>
      simp only [List.head?_cons, ne_eq, Option.some.injEq] at hw
      refine ⟨m, hm, ?_⟩
      rw [steps_cons, BraceMode.IsCode.step (Or.inr rfl) hw]
      rwa [steps_cons, BraceMode.IsCode.step (Or.inl rfl) hw] at h

mutual

/-- The steps over code lead back to code. -/
theorem Code.steps {w : List Char} (h : Code w) (outer : List Enclosure) :
    ∃ m : BraceMode, m.IsCode ∧ BraceScan.steps ⟨.code, outer⟩ w = some ⟨m, outer⟩ := by
  cases h with
  | nil => exact ⟨.code, Or.inl rfl, rfl⟩
  | @string quote s rest hquote hs hrest =>
      obtain ⟨m, hm, hsteps⟩ := hrest.steps outer
      have hslash : quote ≠ '\\' := by rcases hquote with rfl | rfl <;> decide
      refine ⟨m, hm, ?_⟩
      simp [step, stepCode, hquote, steps_append, hs.steps hslash, hsteps]
  | template hs hrest =>
      obtain ⟨m, hm, hsteps⟩ := hrest.steps outer
      exact ⟨m, hm, by simp [step, stepCode, steps_append, hs.steps, hsteps]⟩
  | @lineComment s rest hs hrest =>
      obtain ⟨m, hm, hsteps⟩ := hrest.steps outer
      refine ⟨m, hm, ?_⟩
      simp [step, stepCode, steps_lineComment hs, hsteps]
  | @blockComment s rest hs hrest =>
      obtain ⟨m, hm, hsteps⟩ := hrest.steps outer
      refine ⟨m, hm, ?_⟩
      simp [step, stepCode, (steps_blockComment hs outer rest).1, hsteps]
  | @braces inner rest hinner hrest =>
      obtain ⟨m, hm, hsteps⟩ := hrest.steps outer
      obtain ⟨m', hm', hinside⟩ := hinner.steps (.code :: outer)
      refine ⟨m, hm, ?_⟩
      calc BraceScan.steps ⟨.code, outer⟩ ('{' :: (inner ++ '}' :: rest))
          = BraceScan.steps ⟨.code, .code :: outer⟩ (inner ++ '}' :: rest) := by
            simp [step, stepCode]
        _ = BraceScan.steps ⟨m', .code :: outer⟩ ('}' :: rest) := by
            rw [steps_append, hinside, Option.bind_some]
        _ = BraceScan.steps ⟨.code, outer⟩ rest := hm'.steps_brace _ _
        _ = some ⟨m, outer⟩ := hsteps
  | @other c rest hc hslash hrest =>
      obtain ⟨m, hm, hsteps⟩ := hrest.steps outer
      obtain ⟨h₁, h₂, h₃, h₄, h₅⟩ := hc
      by_cases h : c = '/'
      · subst h
        obtain ⟨m', hm', hsteps'⟩ := steps_slash (hslash rfl) hm hsteps
        exact ⟨m', hm', by simp [step, stepCode, hsteps']⟩
      · exact ⟨m, hm, by simp [step, stepCode, h, h₁, h₂, h₃, h₄, h₅, hsteps]⟩
termination_by w.length
decreasing_by all_goals simp <;> omega

/-- The steps over a template literal lead back to what it stands in. -/
theorem TemplateTail.steps {s : List Char} (h : TemplateTail s) (outer : List Enclosure) :
    BraceScan.steps ⟨.template, .code :: outer⟩ s = some ⟨.code, outer⟩ := by
  cases h with
  | close => simp [step, stepTemplate, leave]
  | escape c hs => simp [step, stepTemplate, hs.steps]
  | @interpolation inner s hinner hs =>
      obtain ⟨m, hm, hinside⟩ := hinner.steps (.template :: .code :: outer)
      calc BraceScan.steps ⟨.template, .code :: outer⟩ ('$' :: '{' :: (inner ++ '}' :: s))
          = BraceScan.steps ⟨.code, .template :: .code :: outer⟩ (inner ++ '}' :: s) := by
            simp [step, stepTemplate]
        _ = BraceScan.steps ⟨m, .template :: .code :: outer⟩ ('}' :: s) := by
            rw [steps_append, hinside, Option.bind_some]
        _ = BraceScan.steps ⟨.template, .code :: outer⟩ s := hm.steps_brace _ _
        _ = some ⟨.code, outer⟩ := hs.steps outer
  | @other c s hclose hslash hdollar hs =>
      have hsteps := hs.steps outer
      by_cases h : c = '$'
      · subst h
        cases s with
        | nil => simp at hsteps
        | cons d s =>
            have hd : d ≠ '{' := by simpa using hdollar rfl
            simp only [steps_cons] at hsteps ⊢
            simpa [step, stepTemplate, hd] using hsteps
      · simp [step, stepTemplate, h, hclose, hslash, hsteps]
termination_by s.length
decreasing_by all_goals simp <;> omega

end

/-! ### From the reader to the grammar -/

/-- A text closes the open enclosures, the innermost first: it goes on with code or with the text of
a template literal up to the end of the innermost one, and closes the others from there. -/
def Closes : List Enclosure → List Char → Prop
  | [], w => w = []
  | .code :: outer, w => ∃ code rest, w = code ++ '}' :: rest ∧ Code code ∧ Closes outer rest
  | .template :: outer, w => ∃ s rest, w = s ++ rest ∧ TemplateTail s ∧ Closes outer rest

/-- A text closes the brace that a reader is in, the open constructs inside it first. -/
def BraceScan.Finishes : BraceScan → List Char → Prop
  | ⟨.code, outer⟩, w => Closes (.code :: outer) w
  | ⟨.slash, outer⟩, w => Closes (.code :: outer) ('/' :: w)
  | ⟨.string quote, outer⟩, w =>
    ∃ s rest, w = s ++ rest ∧ StringTail quote s ∧ Closes (.code :: outer) rest
  | ⟨.stringEscape quote, outer⟩, w =>
    ∃ c s rest, w = c :: (s ++ rest) ∧ StringTail quote s ∧ Closes (.code :: outer) rest
  | ⟨.lineComment, outer⟩, w =>
    ∃ s rest, w = s ++ '\n' :: rest ∧ '\n' ∉ s ∧ Closes (.code :: outer) rest
  | ⟨.blockComment, outer⟩, w =>
    ∃ s rest, w = s ++ '*' :: '/' :: rest ∧ ¬ ['*', '/'] <:+: s ∧ Closes (.code :: outer) rest
  | ⟨.star, outer⟩, w =>
    ∃ s rest, '*' :: w = s ++ '*' :: '/' :: rest ∧ ¬ ['*', '/'] <:+: s
      ∧ Closes (.code :: outer) rest
  | ⟨.template, outer⟩, w => Closes (.template :: outer) w
  | ⟨.templateEscape, outer⟩, w => ∃ c rest, w = c :: rest ∧ Closes (.template :: outer) rest
  | ⟨.dollar, outer⟩, w => Closes (.template :: outer) ('$' :: w)

/-- What begins with code closes a brace if it does behind that code. -/
lemma Closes.code_append {outer : List Enclosure} {v w : List Char}
    (h : Closes (.code :: outer) w) (hv : ∀ code, code <+: w → Code code → Code (v ++ code)) :
    Closes (.code :: outer) (v ++ w) := by
  obtain ⟨code, rest, rfl, hcode, hrest⟩ := h
  exact ⟨v ++ code, rest, by simp, hv code (List.prefix_append _ _) hcode, hrest⟩

lemma Closes.template_append {outer : List Enclosure} {v w : List Char}
    (h : Closes (.template :: outer) w)
    (hv : ∀ s, s <+: w → TemplateTail s → TemplateTail (v ++ s)) :
    Closes (.template :: outer) (v ++ w) := by
  obtain ⟨s, rest, rfl, hs, hrest⟩ := h
  exact ⟨v ++ s, rest, by simp, hv s (List.prefix_append _ _) hs, hrest⟩

/-- Leaving an enclosure leads to the one around it. -/
lemma finishes_of_leave {outer : List Enclosure} {s : BraceScan} {w : List Char}
    (h : leave outer = some s) (hs : s.Finishes w) : Closes outer w := by
  match outer, h with
  | .code :: outer, h =>
      simp only [leave, Option.some.injEq] at h
      subst h
      exact hs
  | .template :: outer, h =>
      simp only [leave, Option.some.injEq] at h
      subst h
      exact hs

/-- A character that is read over begins no comment. -/
lemma head?_ne_of_isPrefix {code : List Char} {c d : Char} {w : List Char}
    (hstarts : code <+: c :: w) (hd : c ≠ d) : code.head? ≠ some d := by
  intro hhead
  obtain ⟨code, rfl⟩ := List.head?_eq_some_iff.mp hhead
  exact hd (List.cons_prefix_cons.mp hstarts).1.symm

/-- One step through code. -/
lemma finishes_of_stepCode {outer : List Enclosure} {c : Char} {s : BraceScan} {w : List Char}
    (h : stepCode outer c = some s) (hs : s.Finishes w) :
    Closes (.code :: outer) (c :: w) := by
  unfold stepCode at h
  simp only [Bool.or_eq_true, decide_eq_true_eq] at h
  split_ifs at h with hquote hbacktick hslash hopen hclose
  · obtain rfl := Option.some.inj h
    obtain ⟨s, rest, rfl, hs, hrest⟩ := hs
    exact hrest.code_append (v := c :: s) fun code _ hcode => Code.string hquote hs hcode
  · obtain rfl := Option.some.inj h
    subst hbacktick
    obtain ⟨s, rest, rfl, hs, hrest⟩ := hs
    exact Closes.code_append (v := '\x60' :: s) hrest fun code _ hcode =>
      Code.template hs hcode
  · obtain rfl := Option.some.inj h
    subst hslash
    exact hs
  · obtain rfl := Option.some.inj h
    subst hopen
    obtain ⟨inner, rest, rfl, hinner, hrest⟩ := hs
    have := Closes.code_append (v := '{' :: (inner ++ ['}'])) hrest fun code _ hcode => by
      simpa using Code.braces hinner hcode
    simpa using this
  · subst hclose
    exact ⟨[], w, rfl, Code.nil, finishes_of_leave h hs⟩
  · obtain rfl := Option.some.inj h
    refine Closes.code_append (v := [c]) hs fun code _ hcode => Code.other ?_ ?_ hcode
    · exact ⟨fun hc => hquote (Or.inl hc), fun hc => hquote (Or.inr hc), hbacktick, hopen,
        hclose⟩
    · exact fun hc => absurd hc hslash

/-- One step through the text of a template literal. -/
lemma finishes_of_stepTemplate {outer : List Enclosure} {c : Char} {s : BraceScan}
    {w : List Char} (h : stepTemplate outer c = some s) (hs : s.Finishes w) :
    Closes (.template :: outer) (c :: w) := by
  unfold stepTemplate at h
  split_ifs at h with hescape hclose hdollar
  · obtain rfl := Option.some.inj h
    subst hescape
    obtain ⟨d, rest, rfl, hrest⟩ := hs
    exact Closes.template_append (v := ['\\', d]) hrest fun s _ hs => TemplateTail.escape d hs
  · subst hclose
    exact ⟨['\x60'], w, rfl, TemplateTail.close, finishes_of_leave h hs⟩
  · obtain rfl := Option.some.inj h
    subst hdollar
    exact hs
  · obtain rfl := Option.some.inj h
    refine Closes.template_append (v := [c]) hs fun s _ hs => ?_
    exact TemplateTail.other hclose hescape (fun hc => absurd hc hdollar) hs

/-- A slash begins a comment, or is a character of the code. -/
lemma finishes_of_slash {outer : List Enclosure} {s' : BraceScan} {c : Char} {w : List Char}
    (h : BraceScan.step ⟨.slash, outer⟩ c = some s') (hs' : s'.Finishes w) :
    BraceScan.Finishes ⟨.slash, outer⟩ (c :: w) := by
  simp only [step] at h
  split_ifs at h with hline hblock
  · obtain rfl := Option.some.inj h
    subst hline
    obtain ⟨s, rest, rfl, hs, hrest⟩ := hs'
    have := hrest.code_append (v := '/' :: '/' :: (s ++ ['\n'])) fun code _ hcode => by
      simpa using Code.lineComment hs hcode
    simpa [Finishes] using this
  · obtain rfl := Option.some.inj h
    subst hblock
    obtain ⟨s, rest, rfl, hs, hrest⟩ := hs'
    have := hrest.code_append (v := '/' :: '*' :: (s ++ ['*', '/'])) fun code _ hcode => by
      simpa using Code.blockComment hs hcode
    simpa [Finishes] using this
  · have hcode := finishes_of_stepCode h hs'
    refine hcode.code_append (v := ['/']) fun code hstarts hcode => ?_
    refine Code.other (by simp [IsPlain]) (fun _ => ⟨?_, ?_⟩) hcode
    · exact head?_ne_of_isPrefix hstarts hline
    · exact head?_ne_of_isPrefix hstarts hblock

/-- In a string, all but an escape and the quote is passed over. -/
lemma finishes_of_string {outer : List Enclosure} {quote : Char} {s' : BraceScan} {c : Char}
    {w : List Char}
    (h : BraceScan.step ⟨.string quote, outer⟩ c = some s') (hs' : s'.Finishes w) :
    BraceScan.Finishes ⟨.string quote, outer⟩ (c :: w) := by
  simp only [step] at h
  split_ifs at h with hclose hescape
  · obtain rfl := Option.some.inj h
    subst hclose
    exact ⟨[c], w, rfl, StringTail.close, hs'⟩
  · obtain rfl := Option.some.inj h
    subst hescape
    obtain ⟨d, s, rest, rfl, hs, hrest⟩ := hs'
    exact ⟨'\\' :: d :: s, rest, rfl, StringTail.escape d hs, hrest⟩
  · obtain rfl := Option.some.inj h
    obtain ⟨s, rest, rfl, hs, hrest⟩ := hs'
    exact ⟨c :: s, rest, rfl, StringTail.other hclose hescape hs, hrest⟩

/-- A line comment ends with its line. -/
lemma finishes_of_lineComment {outer : List Enclosure} {s' : BraceScan} {c : Char} {w : List Char}
    (h : BraceScan.step ⟨.lineComment, outer⟩ c = some s') (hs' : s'.Finishes w) :
    BraceScan.Finishes ⟨.lineComment, outer⟩ (c :: w) := by
  simp only [step] at h
  split_ifs at h with hline
  · obtain rfl := Option.some.inj h
    subst hline
    exact ⟨[], w, rfl, List.not_mem_nil, hs'⟩
  · obtain rfl := Option.some.inj h
    obtain ⟨s, rest, rfl, hs, hrest⟩ := hs'
    refine ⟨c :: s, rest, rfl, ?_, hrest⟩
    simp [Ne.symm hline, hs]

/-- A block comment goes on up to a star. -/
lemma finishes_of_blockComment {outer : List Enclosure} {s' : BraceScan} {c : Char} {w : List Char}
    (h : BraceScan.step ⟨.blockComment, outer⟩ c = some s') (hs' : s'.Finishes w) :
    BraceScan.Finishes ⟨.blockComment, outer⟩ (c :: w) := by
  simp only [step] at h
  split_ifs at h with hstar
  · obtain rfl := Option.some.inj h
    subst hstar
    exact hs'
  · obtain rfl := Option.some.inj h
    obtain ⟨s, rest, rfl, hs, hrest⟩ := hs'
    refine ⟨c :: s, rest, rfl, ?_, hrest⟩
    simp [List.infix_cons_iff, Ne.symm hstar, hs]

/-- Behind a star, a slash ends the block comment. -/
lemma finishes_of_star {outer : List Enclosure} {s' : BraceScan} {c : Char} {w : List Char}
    (h : BraceScan.step ⟨.star, outer⟩ c = some s') (hs' : s'.Finishes w) :
    BraceScan.Finishes ⟨.star, outer⟩ (c :: w) := by
  simp only [step] at h
  split_ifs at h with hslash hstar
  · obtain rfl := Option.some.inj h
    subst hslash
    exact ⟨[], w, rfl, by simp, hs'⟩
  · obtain rfl := Option.some.inj h
    subst hstar
    obtain ⟨s, rest, hw, hs, hrest⟩ := hs'
    refine ⟨'*' :: s, rest, by rw [hw]; rfl, ?_, hrest⟩
    -- what follows the first star is a star again, or nothing
    cases s with
    | nil => simp [List.infix_cons_iff]
    | cons d s =>
        simp only [List.cons_append, List.cons.injEq] at hw
        obtain ⟨rfl, -⟩ := hw
        rw [List.infix_cons_iff]
        simpa using hs
  · obtain rfl := Option.some.inj h
    obtain ⟨s, rest, rfl, hs, hrest⟩ := hs'
    refine ⟨'*' :: c :: s, rest, rfl, ?_, hrest⟩
    simp [List.infix_cons_iff, Ne.symm hslash, Ne.symm hstar, hs]

/-- A dollar sign begins an interpolation, or is a character of the template literal. -/
lemma finishes_of_dollar {outer : List Enclosure} {s' : BraceScan} {c : Char} {w : List Char}
    (h : BraceScan.step ⟨.dollar, outer⟩ c = some s') (hs' : s'.Finishes w) :
    BraceScan.Finishes ⟨.dollar, outer⟩ (c :: w) := by
  simp only [step] at h
  split_ifs at h with hopen
  · obtain rfl := Option.some.inj h
    subst hopen
    obtain ⟨inner, rest, rfl, hinner, hrest⟩ := hs'
    have := Closes.template_append (v := '$' :: '{' :: (inner ++ ['}'])) hrest
      fun s _ hs => by simpa using TemplateTail.interpolation hinner hs
    simpa [Finishes] using this
  · have htemplate := finishes_of_stepTemplate h hs'
    refine htemplate.template_append (v := ['$']) fun s hstarts hs => ?_
    refine TemplateTail.other (by decide) (by decide) (fun _ => ?_) hs
    exact head?_ne_of_isPrefix hstarts hopen

/-- One step of the reader. -/
lemma finishes_cons {s s' : BraceScan} {c : Char} {w : List Char} (h : s.step c = some s')
    (hs' : s'.Finishes w) : s.Finishes (c :: w) := by
  obtain ⟨mode, outer⟩ := s
  cases mode with
  | code => exact finishes_of_stepCode h hs'
  | slash => exact finishes_of_slash h hs'
  | string quote => exact finishes_of_string h hs'
  | stringEscape quote =>
      obtain rfl := Option.some.inj h
      obtain ⟨s, rest, rfl, hs, hrest⟩ := hs'
      exact ⟨c, s, rest, rfl, hs, hrest⟩
  | lineComment => exact finishes_of_lineComment h hs'
  | blockComment => exact finishes_of_blockComment h hs'
  | star => exact finishes_of_star h hs'
  | template => exact finishes_of_stepTemplate h hs'
  | templateEscape =>
      obtain rfl := Option.some.inj h
      exact ⟨c, w, rfl, hs'⟩
  | dollar => exact finishes_of_dollar h hs'

lemma leave_eq_none_iff {outer : List Enclosure} : leave outer = none ↔ outer = [] := by
  match outer with
  | [] => simp [leave]
  | .code :: _ => simp [leave]
  | .template :: _ => simp [leave]

lemma stepCode_eq_none_iff {outer : List Enclosure} {c : Char} :
    stepCode outer c = none ↔ c = '}' ∧ outer = [] := by
  unfold stepCode
  split_ifs with hquote hbacktick hslash hopen hclose
  · rcases (by simpa using hquote : c = '"' ∨ c = '\'') with rfl | rfl <;> simp
  · simp [hbacktick]
  · simp [hslash]
  · simp [hopen]
  · simp [hclose, leave_eq_none_iff]
  · simp [hclose]

lemma stepTemplate_eq_none_iff {outer : List Enclosure} {c : Char} :
    stepTemplate outer c = none ↔ c = '\x60' ∧ outer = [] := by
  unfold stepTemplate
  split_ifs with hescape hclose hdollar
  · simp [hescape]
  · simp [hclose, leave_eq_none_iff]
  · simp [hdollar]
  · simp [hclose]

/-- The character at which a reader stops finishes what it is in. -/
lemma finishes_singleton {s : BraceScan} {c : Char} (h : s.step c = none) : s.Finishes [c] := by
  obtain ⟨mode, outer⟩ := s
  cases mode with
  | code =>
      obtain ⟨rfl, rfl⟩ := stepCode_eq_none_iff.mp h
      exact ⟨[], [], rfl, Code.nil, rfl⟩
  | slash =>
      simp only [step] at h
      split_ifs at h
      obtain ⟨rfl, rfl⟩ := stepCode_eq_none_iff.mp h
      exact ⟨['/'], [], rfl, Code.other (by simp [IsPlain]) (by simp) Code.nil, rfl⟩
  | template =>
      obtain ⟨rfl, rfl⟩ := stepTemplate_eq_none_iff.mp h
      exact ⟨['\x60'], [], rfl, TemplateTail.close, rfl⟩
  | dollar =>
      simp only [step] at h
      split_ifs at h
      obtain ⟨rfl, rfl⟩ := stepTemplate_eq_none_iff.mp h
      have htail : TemplateTail ['$', '\x60'] :=
        TemplateTail.other (by decide) (by decide) (by simp) TemplateTail.close
      exact ⟨['$', '\x60'], [], rfl, htail, rfl⟩
  | stringEscape => simp [step] at h
  | templateEscape => simp [step] at h
  | string | lineComment | blockComment | star =>
      simp only [step] at h
      split_ifs at h

/-- What a reader goes over up to the end finishes what it is in. -/
lemma finishes_of_steps {s s' : BraceScan} {w : List Char} {c : Char} (h : s.steps w = some s')
    (hlast : s'.step c = none) : s.Finishes (w ++ [c]) := by
  induction w generalizing s with
  | nil =>
      obtain rfl := Option.some.inj h
      exact finishes_singleton hlast
  | cons d w ih =>
      rw [steps_cons, Option.bind_eq_some_iff] at h
      obtain ⟨s₁, hstep, hsteps⟩ := h
      exact finishes_cons hstep (ih hsteps)

/-! ### The closing brace -/

/-- A text is split before the closing brace that has code before it. -/
theorem split?_start_eq_some_iff {t w rest : List Char} :
    BraceScan.start.split? t = some (w, rest)
      ↔ t = w ++ rest ∧ Code w ∧ ∃ r, rest = '}' :: r := by
  rw [split?_eq_some_iff]
  constructor
  · rintro ⟨ht, s', c, r, hsteps, rfl, hlast⟩
    obtain ⟨code, rest, hw, hcode, hrest⟩ := finishes_of_steps hsteps hlast
    obtain rfl : rest = [] := hrest
    obtain ⟨rfl, hc⟩ := List.append_inj' hw rfl
    obtain rfl : c = '}' := by simpa using hc
    exact ⟨ht, hcode, r, rfl⟩
  · rintro ⟨ht, hcode, r, rfl⟩
    obtain ⟨m, hm, hsteps⟩ := hcode.steps []
    exact ⟨ht, ⟨m, []⟩, '}', r, hsteps, rfl, by simp [hm.step, stepCode, leave]⟩

end SvelteStories
