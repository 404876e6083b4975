/-
Positional edits of a text that stays as it is until they are all applied:

* `Edit`: a range of the text and what replaces it; an empty range inserts;
* `Edit.Clashes`: two ranges that cannot both be edited;
* `Draft`: a text, its accepted edits in text order, and what is added behind the end;
* `Draft.overwrite`: queues an edit, or refuses it and leaves the draft alone;
* `Draft.finish`: the edited text.

All offsets refer to the unedited text, so the order of the calls never shifts an offset.
-/
import SvelteStories.Source

namespace SvelteStories

/-- The replacement of a range of bytes. -/
structure Edit where
  /-- Where the range starts. -/
  start : Nat
  /-- Where it ends. -/
  stop : Nat
  /-- What stands there afterwards. -/
  text : List Char
deriving DecidableEq, Repr

namespace Edit

/-- Whether an edit leaves no room for another one on `start..stop`: both insert at one offset,
both replace a common byte, or one inserts strictly inside the range that the other replaces. -/
def Clashes (e : Edit) (start stop : Nat) : Prop :=
  if e.start = e.stop ∧ start = stop then e.start = start
  else (start < e.stop ∧ e.start < stop) ∨ (start = stop ∧ e.start < start ∧ start < e.stop)
    ∨ (e.start = e.stop ∧ start < e.start ∧ e.start < stop)

instance (e : Edit) (start stop : Nat) : Decidable (e.Clashes start stop) := by
  unfold Clashes; infer_instance

/-- Text order: by start, an insertion before what replaces the bytes behind it. -/
def before (a b : Edit) : Bool :=
  a.start < b.start || (a.start = b.start && a.stop ≤ b.stop)

end Edit

/-- The edits in text order with one more at its place. -/
def insertEdit (e : Edit) : List Edit → List Edit
  | [] => [e]
  | d :: ds => if d.before e then d :: insertEdit e ds else e :: d :: ds

/-- A text under edit. -/
structure Draft where
  /-- The unedited text. -/
  unedited : List Char
  /-- The accepted edits, in text order. -/
  edits : List Edit
  /-- What follows the end of the text. -/
  appended : List Char
deriving DecidableEq, Repr

namespace Draft

/-- The draft of a text that nothing has been done to. -/
def ofText (t : List Char) : Draft :=
  ⟨t, [], []⟩

/-- Queues the replacement of `start..stop`. The range has to be one of the text, between
characters, and clear of every edit accepted so far. -/
def overwrite (d : Draft) (start stop : Nat) (text : List Char) : Except Fault Draft :=
  if start ≤ stop && isBoundary d.unedited start && isBoundary d.unedited stop then
    if d.edits.any fun e => e.Clashes start stop then .error (.overlappingEdits start stop)
    else .ok { d with edits := insertEdit ⟨start, stop, text⟩ d.edits }
  else .error (.invalidEditRange start stop (byteLength d.unedited))

/-- Queues the removal of `start..stop`. -/
def remove (d : Draft) (start stop : Nat) : Except Fault Draft :=
  d.overwrite start stop []

/-- Queues an insertion. -/
def insert (d : Draft) (offset : Nat) (text : List Char) : Except Fault Draft :=
  d.overwrite offset offset text

/-- Adds text behind the end. -/
def append (d : Draft) (text : List Char) : Draft :=
  { d with appended := d.appended ++ text }

/-- The number of accepted edits. -/
def size (d : Draft) : Nat :=
  d.edits.length

end Draft

/-- The text `rest`, which starts at byte `cursor`, with edits in text order applied to it. -/
def applyEdits : List Edit → (cursor : Nat) → (rest : List Char) → List Char
  | [], _, rest => rest
  | e :: es, cursor, rest =>
    let (kept, behind) := (splitAtByte (e.start - cursor) rest).getD (rest, [])
    let (_, rest) := (splitAtByte (e.stop - e.start) behind).getD (behind, [])
    kept ++ e.text ++ applyEdits es e.stop rest

/-- The edited text. -/
def Draft.finish (d : Draft) : List Char :=
  applyEdits d.edits 0 d.unedited ++ d.appended

end SvelteStories
