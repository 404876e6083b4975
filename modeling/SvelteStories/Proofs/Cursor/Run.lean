/-
Runs of a reader that knows its place only as a byte offset:

* `Run`: a run over a text may end with a result, stop at a fault or at a slice that the text does
  not have, or never end;
* `Trace`: where the cursor has been, which slices were taken and which parts were read, and
  `Trace.Within`: all of that lies in the text;
* `Input`: what a run reads;
* `cursor`, `moveTo`, `slice`, `peek`, …: the steps of a run;
* `Follows`: a run from a place ends as a reader does that takes the text apart there. There is a
  lemma for each step.

Nothing here keeps the cursor in the text: it may be moved anywhere, and any slice may be asked for.
-/
import SvelteStories.Proofs.Markup.ClosingBrace
import SvelteStories.Proofs.Markup.Reading
import SvelteStories.Proofs.Text.Trim

namespace SvelteStories.Markup.Cursor

/-! ### Runs -/

/-- Why a run stops. -/
inductive Stop
  /-- What is read has a fault. -/
  | fault (f : ReadFault)
  /-- The text has no slice at a span. -/
  | outside (s : Span)

/-- What has happened in a run, the latest first. -/
structure Trace where
  /-- The places that the cursor was moved to. -/
  cursors : List Nat
  /-- The bytes that scans took the cursor over, one by one. -/
  passed : List Nat
  /-- The slices that were asked for. -/
  slices : List Span
  /-- The parts and attributes that were read: where the cursor was before and after each. -/
  parts : List Span

/-- How far a run has got. -/
structure State where
  /-- The offset at which the next byte is read. -/
  cursor : Nat
  /-- What has happened. -/
  trace : Trace

/-- A run with a result. One that never ends is `none`. -/
abbrev Run := ExceptT Stop (StateT State Option)

/-- What a run reads. -/
structure Input where
  /-- The text. -/
  text : List Char
  /-- What reads the expressions in it. -/
  read : ExpressionReader

variable {α β : Type}

/-- The offset of the cursor. -/
def cursor : Run Nat := do
  return (← get).cursor

/-- Moves the cursor. -/
def moveTo (n : Nat) : Run Unit :=
  modify fun s => ⟨n, { s.trace with cursors := n :: s.trace.cursors }⟩

/-- Moves the cursor on. -/
def advance (n : Nat) : Run Unit := do
  moveTo ((← cursor) + n)

/-- Stops at a fault of the markup. -/
def fail (cause : MarkupCause) (offset : Nat) : Run α :=
  throw (.fault (.markup cause offset))

/-- Takes down that a part or an attribute was read which starts at an offset. -/
def partFrom (start : Nat) : Run Unit :=
  modify fun s => { s with trace.parts := ⟨start, s.cursor⟩ :: s.trace.parts }

section

variable (t : List Char)

/-- The slice at a span. -/
def slice (s : Span) : Run (List Char) := do
  modify fun st => { st with trace.slices := s :: st.trace.slices }
  match slice? t s with
  | some w => return w
  | none => throw (.outside s)

/-- The text from the cursor on. -/
def rest : Run (List Char) := do
  slice t ⟨← cursor, byteLength t⟩

/-- Whether the cursor is at the end or beyond it. -/
def atEnd : Run Bool := do
  return byteLength t ≤ (← cursor)

/-- A byte ahead of the cursor. -/
def peek (ahead : Nat) : Run (Option Char) := do
  return (bytesOf t)[(← cursor) + ahead]?

/-- Moves the cursor behind the bytes that satisfy a test. On its way it passes them one by one, those
inside of characters too, and nothing else is done before it stops. -/
def scan (test : Char → Bool) : Run Unit := do
  let start ← cursor
  let count := (((bytesOf t).drop start).takeWhile test).length
  modify fun s => { s with trace.passed := List.range' start count ++ s.trace.passed }
  moveTo (start + count)

/-- The text of the bytes that satisfy a test. -/
def readWhile (test : Char → Bool) : Run (List Char) := do
  let start ← cursor
  scan t test
  slice t ⟨start, ← cursor⟩

/-- The offset of the brace that closes the one at an offset. -/
def bracedEnd (opening : Nat) : Run Nat :=
  match closingBrace? t opening with
  | some stop => return stop
  | none => fail .openBrace opening

/-- A span without the blanks at its ends. -/
def trimSpan (s : Span) : Run Span := do
  return trimmedSpan (← slice t s) s

/-- The expression at a span. -/
def Input.expression (i : Input) (s : Span) : Run Script.Expr := do
  match i.read s.start (← slice i.text s) with
  | .ok value => return value
  | .error f => throw (.fault (.script f))

end

/-! ### Runs that stay in a text -/

/-- A span begins and ends between characters of a text, and in this order. -/
structure IsRange (t : List Char) (s : Span) : Prop where
  /-- The span is not inverted. -/
  le : s.start ≤ s.stop
  /-- It begins between characters. -/
  start : Boundary t s.start
  /-- It ends between characters. -/
  stop : Boundary t s.stop

/-- What has happened in a run has happened in a text. -/
structure Trace.Within (t : List Char) (trace : Trace) : Prop where
  /-- The cursor was never moved past the end or inside of a character. -/
  cursors : ∀ n ∈ trace.cursors, n ≤ byteLength t ∧ Boundary t n
  /-- In a scan it was at no time past the end. -/
  passed : ∀ n ∈ trace.passed, n < byteLength t
  /-- The text has every slice. -/
  slices : ∀ s ∈ trace.slices, IsRange t s
  /-- Each part and each attribute took the cursor forward. -/
  parts : ∀ s ∈ trace.parts, s.start < s.stop

/-- A fault is one of the text: one of the markup lies in it. -/
def FaultWithin (t : List Char) : ReadFault → Prop
  | .markup cause offset => cause ≠ .tooDeep ∧ Boundary t offset
  | .script _ => True

/-- A run ends as a reader does: with the same result at the same place, or with the same fault, and
without having left the text. -/
inductive Ends (t : List Char) :
    Except ReadFault (α × Place) → Option (Except Stop α × State) → Prop
  /-- With a result. -/
  | done {a : α} {q : Place} {trace : Trace} : (Place.start t).Reaches q → trace.Within t →
      Ends t (.ok (a, q)) (some (.ok a, ⟨q.offset, trace⟩))
  /-- With a fault. -/
  | failed {f : ReadFault} {n : Nat} {trace : Trace} : FaultWithin t f → trace.Within t →
      Ends t (.error f) (some (.error (.fault f), ⟨n, trace⟩))

/-- A run from a place ends as a reader does. -/
def Follows (t : List Char) (m : Run α) (p : Place) (x : Except ReadFault (α × Place)) : Prop :=
  ∀ trace : Trace, trace.Within t → Ends t x (m ⟨p.offset, trace⟩)

variable {t w : List Char} {p q : Place} {x : Except ReadFault (α × Place)}

/-! ### Sequences of steps -/

lemma follows_pure {a : α} (hp : (Place.start t).Reaches p) :
    Follows t (pure a) p (pure (a, p)) := by
  intro trace htrace
  exact .done hp htrace

lemma bind_ok {m : Run α} {k : α → Run β} {s s' : State} {a : α}
    (h : m s = some (.ok a, s')) : (m >>= k) s = k a s' := by
  show Option.bind (m s) _ = _
  rw [h]
  rfl

lemma bind_error {m : Run α} {k : α → Run β} {s s' : State} {e : Stop}
    (h : m s = some (.error e, s')) : (m >>= k) s = some (.error e, s') := by
  show Option.bind (m s) _ = _
  rw [h]
  rfl

/-- A run that follows a reader goes on as the reader does. -/
lemma Follows.bind {y : Except ReadFault (β × Place)} {f : β × Place → Except ReadFault (α × Place)}
    {m : Run β} {k : β → Run α} (hm : Follows t m p y)
    (hk : ∀ b q, y = .ok (b, q) → (Place.start t).Reaches q → Follows t (k b) q (f (b, q))) :
    Follows t (m >>= k) p (y >>= f) := by
  intro trace htrace
  have hends := hm trace htrace
  generalize hrun : m ⟨p.offset, trace⟩ = run at hends
  cases hends with
  | done hq htrace' =>
      rw [bind_ok hrun]
      exact hk _ _ rfl hq _ htrace'
  | failed hfault htrace' =>
      rw [bind_error hrun]
      exact .failed hfault htrace'

/-- So it does where the run gives only a part of what the reader gives. -/
lemma Follows.bind_map {γ : Type} {y : Except ReadFault γ} {g : γ → β × Place}
    {f : γ → Except ReadFault (α × Place)} {m : Run β} {k : β → Run α}
    (hm : Follows t m p (y >>= fun c => pure (g c)))
    (hk : ∀ c, y = .ok c → (Place.start t).Reaches (g c).2 →
      Follows t (k (g c).1) (g c).2 (f c)) :
    Follows t (m >>= k) p (y >>= f) := by
  cases y with
  | error fault => exact hm.bind (f := fun _ => .error fault) fun b q h => by cases h
  | ok c =>
      refine hm.bind (f := fun _ => f c) fun b q h hq => ?_
      have hc : g c = (b, q) := Except.ok.inj h
      have hrun := hk c rfl
      rw [hc] at hrun
      exact hrun hq

lemma follows_fail {cause : MarkupCause} {n : Nat} (hcause : cause ≠ .tooDeep)
    (hn : Boundary t n) : Follows t (fail cause n : Run α) p (.error (.markup cause n)) := by
  intro trace htrace
  exact .failed ⟨hcause, hn⟩ htrace

lemma follows_fail_bind {cause : MarkupCause} {n : Nat} {k : β → Run α}
    (hcause : cause ≠ .tooDeep) (hn : Boundary t n) :
    Follows t (fail cause n >>= k) p (.error (.markup cause n)) := by
  intro trace htrace
  exact .failed ⟨hcause, hn⟩ htrace

/-! ### Single steps -/

lemma boundary_of_reaches (hp : (Place.start t).Reaches p) : Boundary t p.offset := by
  obtain ⟨before, hrest, hoffset⟩ := hp
  exact ⟨before, p.rest, hrest, by simpa [Place.start] using hoffset.symm⟩

lemma follows_cursor {k : Nat → Run α} (h : Follows t (k p.offset) p x) :
    Follows t (cursor >>= k) p x := by
  intro trace htrace
  exact h trace htrace

/-- The cursor may be moved to any place of the text. -/
lemma follows_moveTo {k : Unit → Run α} {n : Nat} (hq : (Place.start t).Reaches q)
    (hn : q.offset = n) (h : Follows t (k ()) q x) : Follows t (moveTo n >>= k) p x := by
  intro trace htrace
  subst hn
  have hboundary := boundary_of_reaches hq
  refine h _ ⟨?_, htrace.passed, htrace.slices, htrace.parts⟩
  exact List.forall_mem_cons.mpr ⟨⟨hboundary.le, hboundary⟩, htrace.cursors⟩

lemma follows_advance {k : Unit → Run α} {n : Nat} (hq : (Place.start t).Reaches q)
    (hn : q.offset = p.offset + n) (h : Follows t (k ()) q x) :
    Follows t (advance n >>= k) p x := by
  intro trace htrace
  exact follows_moveTo hq hn h trace htrace

/-- So may it in the last step of a run. -/
lemma follows_advance_last {n : Nat} (hq : (Place.start t).Reaches q)
    (hn : q.offset = p.offset + n) : Follows t (advance n) p (pure ((), q)) := by
  have hrun : Follows t (advance n >>= pure) p (pure ((), q)) :=
    follows_advance hq hn (follows_pure hq)
  rwa [bind_pure] at hrun

/-- A slice that the text has may be taken. -/
lemma follows_slice {k : List Char → Run α} {s : Span} (hs : slice? t s = some w)
    (h : Follows t (k w) p x) : Follows t (slice t s >>= k) p x := by
  intro trace htrace
  obtain ⟨before, behind, ht, hstart, hstop⟩ := slice?_eq_some_iff.mp hs
  have hrange : IsRange t s := {
    le := by omega
    start := ⟨before, w ++ behind, ht, hstart⟩
    stop := ⟨before ++ w, behind, by rw [ht, List.append_assoc], by
      rw [byteLength_append]
      omega⟩ }
  have hrun : slice t s ⟨p.offset, trace⟩
      = some (.ok w, ⟨p.offset, { trace with slices := s :: trace.slices }⟩) := by
    show (match slice? t s with
      | some w => (pure w : Run (List Char))
      | none => throw (Stop.outside s)) ⟨p.offset, { trace with slices := s :: trace.slices }⟩ = _
    rw [hs]
    rfl
  rw [bind_ok hrun]
  exact h _ ⟨htrace.cursors, htrace.passed,
    List.forall_mem_cons.mpr ⟨hrange, htrace.slices⟩, htrace.parts⟩

/-- What was read took the cursor forward. -/
lemma follows_partFrom {k : Unit → Run α} {start : Nat} (hstart : start < p.offset)
    (h : Follows t (k ()) p x) : Follows t (partFrom start >>= k) p x := by
  intro trace htrace
  exact h _ ⟨htrace.cursors, htrace.passed, htrace.slices,
    List.forall_mem_cons.mpr ⟨hstart, htrace.parts⟩⟩

lemma slice?_rest (hp : (Place.start t).Reaches p) :
    slice? t ⟨p.offset, byteLength t⟩ = some p.rest := by
  obtain ⟨before, hrest, hoffset⟩ := hp
  have ht : t = before ++ p.rest := hrest
  have hbefore : byteLength before = p.offset := by simpa [Place.start] using hoffset.symm
  refine slice?_eq_some_iff.mpr ⟨before, [], by rw [List.append_nil, ← ht], hbefore, ?_⟩
  rw [← hbefore, ← byteLength_append, ← ht]

lemma follows_rest {k : List Char → Run α} (hp : (Place.start t).Reaches p)
    (h : Follows t (k p.rest) p x) : Follows t (rest t >>= k) p x := by
  intro trace htrace
  exact follows_slice (slice?_rest hp) h trace htrace

lemma drop_bytesOf (hp : (Place.start t).Reaches p) :
    (bytesOf t).drop p.offset = bytesOf p.rest := by
  obtain ⟨before, hrest, hoffset⟩ := hp
  have ht : t = before ++ p.rest := hrest
  have hbefore : (bytesOf before).length = p.offset := by
    simpa [Place.start] using hoffset.symm
  rw [ht, bytesOf_append, ← hbefore, List.drop_left]

lemma follows_atEnd {k : Bool → Run α} (hp : (Place.start t).Reaches p)
    (h : Follows t (k p.rest.isEmpty) p x) : Follows t (atEnd t >>= k) p x := by
  have hend : decide (byteLength t ≤ p.offset) = p.rest.isEmpty := by
    have hlength := congrArg List.length (drop_bytesOf hp)
    rw [List.length_drop, length_bytesOf, length_bytesOf] at hlength
    rw [Bool.eq_iff_iff, decide_eq_true_eq, List.isEmpty_iff, ← byteLength_eq_zero_iff]
    omega
  rw [← hend] at h
  intro trace htrace
  exact h trace htrace

/-- Ahead of the cursor stand the bytes of what is still to be read. -/
lemma follows_peek {k : Option Char → Run α} {n : Nat} (hp : (Place.start t).Reaches p)
    (h : Follows t (k (bytesOf p.rest)[n]?) p x) : Follows t (peek t n >>= k) p x := by
  rw [← drop_bytesOf hp, List.getElem?_drop] at h
  intro trace htrace
  exact h trace htrace

/-- At the cursor stands the first byte of what is still to be read. -/
lemma follows_peek_zero {k : Option Char → Run α} (hp : (Place.start t).Reaches p)
    (h : Follows t (k (bytesOf p.rest).head?) p x) : Follows t (peek t 0 >>= k) p x := by
  rw [List.head?_eq_getElem?] at h
  exact follows_peek hp h

/-! ### Runs of characters -/

variable {test : Char → Bool}

lemma reaches_after_run (hp : (Place.start t).Reaches p) (test : Char → Bool) :
    (Place.start t).Reaches (p.after (p.run test)) :=
  hp.trans (p.reads_run test).reaches

/-- A scan stops behind the characters that satisfy the test. -/
lemma follows_scan {k : Unit → Run α} (htest : IsAsciiTest test)
    (hp : (Place.start t).Reaches p) (h : Follows t (k ()) (p.after (p.run test)) x) :
    Follows t (scan t test >>= k) p x := by
  have hlength : (p.after (p.run test)).offset
      = p.offset + (((bytesOf t).drop p.offset).takeWhile test).length := by
    rw [drop_bytesOf hp, htest.takeWhile_bytesOf, length_bytesOf]
    rfl
  have hq := reaches_after_run hp test
  have hle := (boundary_of_reaches hq).le
  intro trace htrace
  refine follows_moveTo hq hlength h _
    ⟨htrace.cursors, fun n hn => ?_, htrace.slices, htrace.parts⟩
  rcases List.mem_append.mp hn with hn | hn
  · have hpassed := List.mem_range'_1.mp hn
    dsimp only at hpassed
    omega
  · exact htrace.passed n hn

lemma follows_readWhile {k : List Char → Run α} (htest : IsAsciiTest test)
    (hp : (Place.start t).Reaches p) (h : Follows t (k (p.run test)) (p.after (p.run test)) x) :
    Follows t (readWhile t test >>= k) p x := by
  have hslice := Place.slice?_of_reads hp (p.reads_run test)
  simp only [readWhile, bind_assoc]
  exact follows_cursor (follows_scan htest hp (follows_cursor (follows_slice hslice h)))

/-! ### Code -/

/-- In braces stands the code that is split off there. -/
lemma slice?_code {code : List Char} (hp : (Place.start t).Reaches p)
    (h : braced p = .ok (code, q)) :
    slice? t ⟨p.offset + 1, p.offset + 1 + byteLength code⟩ = some code := by
  have hreads := (reads_braced h).1
  have hbrace : p.Reads ['{'] (p.after ['{']) := Place.reads_after hreads.1
  have hcode : (p.after ['{']).Reads code ((p.after ['{']).after code) :=
    Place.reads_after (u := '}' :: q.rest) (by simp [Place.after, hreads.1])
  exact Place.slice?_of_reads (hp.trans hbrace.reaches) hcode

/-- The closing brace of the one at a place stands behind the code that is split off there. -/
lemma closingBrace?_eq_some_iff_braced {n : Nat} (hp : (Place.start t).Reaches p) :
    closingBrace? t p.offset = some n
      ↔ ∃ code q, braced p = .ok (code, q) ∧ n = p.offset + 1 + byteLength code := by
  obtain ⟨before, hrest, hoffset⟩ := hp
  have ht : t = before ++ p.rest := hrest
  have hbefore : byteLength before = p.offset := by simpa [Place.start] using hoffset.symm
  rw [closingBrace?_eq_some_iff]
  constructor
  · rintro ⟨before', code, behind, ht', hbefore', hn, hcode⟩
    have hsplit := splitAtByte_append before p.rest
    rw [← ht, hbefore, ← hbefore', ht', splitAtByte_append] at hsplit
    obtain ⟨-, hbrace⟩ := Prod.mk.inj (Option.some.inj hsplit)
    have hreads : p.Reads ('{' :: (code ++ ['}'])) (p.after ('{' :: (code ++ ['}']))) :=
      Place.reads_after (u := behind) (by rw [← hbrace]; simp)
    exact ⟨code, _, braced_eq_ok hreads hcode, hn⟩
  · rintro ⟨code, q, hbraced, hn⟩
    obtain ⟨hreads, hcode⟩ := reads_braced hbraced
    exact ⟨before, code, q.rest, by rw [ht, hreads.1]; simp, hbefore, hn, hcode⟩

lemma braced_eq_ok_or_fail (p : Place) :
    (∃ code q, braced p = .ok (code, q)) ∨ braced p = p.fail .openBrace := by
  unfold braced
  dsimp only
  split
  · exact .inl ⟨_, _, rfl⟩
  · exact .inr rfl

/-- A reader goes on behind the code in braces with the offset of the closing one. -/
lemma follows_bracedEnd {k : Nat → Run α} {f : List Char × Place → Except ReadFault (α × Place)}
    (hp : (Place.start t).Reaches p)
    (h : ∀ code q, braced p = .ok (code, q) → (Place.start t).Reaches q →
      q.offset = p.offset + 1 + byteLength code + 1 →
      Follows t (k (p.offset + 1 + byteLength code)) p (f (code, q))) :
    Follows t (bracedEnd t p.offset >>= k) p (braced p >>= f) := by
  rcases braced_eq_ok_or_fail p with ⟨code, q, hbraced⟩ | hbraced
  · have hstop := (closingBrace?_eq_some_iff_braced hp).mpr ⟨code, q, hbraced, rfl⟩
    have hreads := (reads_braced hbraced).1
    have hoffset : q.offset = p.offset + 1 + byteLength code + 1 := by
      rw [hreads.2, byteLength_cons, byteLength_append]
      show p.offset + (1 + (byteLength code + 1)) = _
      omega
    have hrun := h code q hbraced (hp.trans hreads.reaches) hoffset
    simpa only [bracedEnd, hstop, pure_bind, hbraced, ok_bind] using hrun
  · have hstop : closingBrace? t p.offset = none := by
      rw [Option.eq_none_iff_forall_ne_some]
      intro n hn
      obtain ⟨code, q, hok, -⟩ := (closingBrace?_eq_some_iff_braced hp).mp hn
      rw [hbraced] at hok
      exact Place.fail_ne_ok hok
    simp only [bracedEnd, hstop, hbraced]
    exact follows_fail_bind (by rintro ⟨⟩) (boundary_of_reaches hp)

/-- Of a span with a slice the text has the trimmed slice as well. -/
lemma follows_trimSpan {k : Span → Run α} {s : Span} (hs : slice? t s = some w)
    (h : Follows t (k (trimmedSpan w s)) p x) : Follows t (trimSpan t s >>= k) p x := by
  simp only [trimSpan, bind_assoc, pure_bind]
  exact follows_slice hs h

/-- An expression is read from the slice at its span. -/
lemma follows_expression {i : Input} {k : Script.Expr → Run α} {s : Span}
    {f : Script.Expr → Except ReadFault (α × Place)} (hs : slice? i.text s = some w)
    (h : ∀ value, i.read s.start w = .ok value → Follows i.text (k value) p (f value)) :
    Follows i.text (i.expression s >>= k) p ((i.read s.start w).mapError .script >>= f) := by
  simp only [Input.expression, bind_assoc]
  refine follows_slice hs ?_
  cases hread : i.read s.start w with
  | ok value => exact h value hread
  | error fault =>
      intro trace htrace
      exact .failed trivial htrace

end SvelteStories.Markup.Cursor
