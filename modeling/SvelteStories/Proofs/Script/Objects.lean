/-
Object literals as texts:

* `Slot`: a property with its text and what separates it from what is before it;
* `Legible`: the texts of properties are read as these, wherever they stand in an object;
* `Separates`: gaps stand between the properties, and one comma in each of them that has to have one;
* `readObject_reads`: a text of legible slots that are separated is read as an object with their
  properties;
* `SlotText`: what the text of a property is made of, so that its value can be exchanged.
-/
import SvelteStories.Proofs.Script.Properties

namespace SvelteStories.Script

/-! ### Properties in a row -/

/-- A property of an object literal as a text. -/
structure Slot where
  /-- What separates it from the opening brace or from the property before it. -/
  sep : List Char
  /-- Its key with the colon and the gap behind it, if it has a value. -/
  head : List Char
  /-- Its value, or the whole of it if it has none. -/
  body : List Char
  /-- The property. -/
  property : Property

/-- The text of a property. -/
def Slot.text (s : Slot) : List Char :=
  s.head ++ s.body

/-- The texts of properties with what separates them. -/
def written (slots : List Slot) : List Char :=
  slots.flatMap fun s => s.sep ++ s.text

/-- Gaps around one comma. -/
def IsSeparator (endsLine : Char → Bool) (w : List Char) : Prop :=
  ∃ gap gap', IsGap endsLine gap ∧ IsGap isLineBreak gap' ∧ w = gap ++ ',' :: gap'

/-- What follows a property: separated properties, and a gap at the end, with a comma or without. -/
def Continues : List Slot → List Char → Prop
  | [], closing => IsGap isLineBreak closing ∨ IsSeparator isLineBreak closing
  | s :: slots, closing => IsSeparator isLineBreak s.sep ∧ Continues slots closing

/-- What follows an opening brace. -/
def Separates : List Slot → List Char → Prop
  | [], closing => IsGap isLineBreak closing
  | s :: slots, closing => IsGap isLineBreak s.sep ∧ Continues slots closing

section

variable {slots : List Slot} {s : Slot} {closing rest : List Char}

lemma written_cons (s : Slot) (slots : List Slot) :
    written (s :: slots) = s.sep ++ (s.text ++ written slots) := by
  rw [written, List.flatMap_cons, List.append_assoc]
  rfl

/-- Behind a property stands a comma or the closing brace. -/
lemma Continues.endsProperty (h : Continues slots closing) (rest : List Char) :
    EndsProperty (written slots ++ (closing ++ '}' :: rest)) := by
  cases slots with
  | nil =>
      obtain hgap | ⟨gap, gap', hgap, -, rfl⟩ := h
      · exact goesOn_mark hgap (by simp) rest
      · rw [List.append_assoc]
        exact goesOn_mark hgap (by simp) _
  | cons s slots =>
      obtain ⟨⟨gap, gap', hgap, -, hsep⟩, -⟩ := h
      rw [written_cons, hsep]
      simp only [List.append_assoc, List.cons_append]
      exact goesOn_mark hgap (by simp) _

/-- Up to the end of the object, either nothing but a gap follows a property, or a comma does and the
rest of the object as behind an opening brace. -/
lemma Continues.cases (h : Continues slots closing) :
    slots = [] ∧ IsGap isLineBreak closing
      ∨ ∃ gap slots' closing', IsGap isLineBreak gap ∧ Separates slots' closing'
        ∧ written slots ++ closing = gap ++ ',' :: (written slots' ++ closing')
        ∧ slots'.map (fun s => (s.text, s.property)) = slots.map (fun s => (s.text, s.property)) := by
  cases slots with
  | nil =>
      obtain hgap | ⟨gap, gap', hgap, hgap', rfl⟩ := h
      · exact Or.inl ⟨rfl, hgap⟩
      · exact Or.inr ⟨gap, [], gap', hgap, hgap', rfl, rfl⟩
  | cons s slots =>
      obtain ⟨⟨gap, gap', hgap, hgap', hsep⟩, hslots⟩ := h
      refine Or.inr ⟨gap, { s with sep := gap' } :: slots, closing, hgap, ⟨hgap', hslots⟩, ?_, rfl⟩
      rw [written_cons, written_cons, hsep]
      simp [Slot.text]

end

/-! ### Other rows -/

section

variable {slots slots' left right : List Slot} {s s' : Slot} {closing closing' : List Char}

lemma written_append (slots slots' : List Slot) :
    written (slots ++ slots') = written slots ++ written slots' := by
  rw [written, List.flatMap_append]
  rfl

lemma Continues.append (h : Continues slots closing) (hs : IsSeparator isLineBreak s.sep)
    (hclosing : IsGap isLineBreak closing') : Continues (slots ++ [s]) closing' := by
  induction slots with
  | nil => exact ⟨hs, Or.inl hclosing⟩
  | cons s' slots ih => exact ⟨h.1, ih h.2⟩

/-- A property can be added behind the last one. -/
lemma Separates.append (h : Separates slots closing) (hslots : slots ≠ [])
    (hs : IsSeparator isLineBreak s.sep) (hclosing : IsGap isLineBreak closing') :
    Separates (slots ++ [s]) closing' := by
  cases slots with
  | nil => exact absurd rfl hslots
  | cons s' slots => exact ⟨h.1, h.2.append hs hclosing⟩

lemma Continues.of_map_sep (h : Continues slots closing)
    (hsep : slots'.map Slot.sep = slots.map Slot.sep) : Continues slots' closing := by
  induction slots generalizing slots' with
  | nil =>
      obtain rfl : slots' = [] := by simpa using hsep
      exact h
  | cons s slots ih =>
      obtain ⟨s', slots', rfl⟩ : ∃ s' rest, slots' = s' :: rest := by
        cases slots' with
        | nil => simp at hsep
        | cons s' rest => exact ⟨s', rest, rfl⟩
      obtain ⟨hs, hslots⟩ := List.cons.inj hsep
      exact ⟨hs ▸ h.1, ih h.2 hslots⟩

/-- Only what is between properties counts. -/
lemma Separates.of_map_sep (h : Separates slots closing)
    (hsep : slots'.map Slot.sep = slots.map Slot.sep) : Separates slots' closing := by
  cases slots with
  | nil =>
      obtain rfl : slots' = [] := by simpa using hsep
      exact h
  | cons s slots =>
      obtain ⟨s', slots', rfl⟩ : ∃ s' rest, slots' = s' :: rest := by
        cases slots' with
        | nil => simp at hsep
        | cons s' rest => exact ⟨s', rest, rfl⟩
      obtain ⟨hs, hslots⟩ := List.cons.inj hsep
      exact ⟨hs ▸ h.1, h.2.of_map_sep hslots⟩

end

/-! ### Reading -/

/-- The context in which the properties of an object literal are read. -/
def Context.inObject (c : Context) : Context :=
  { c with beforeColon := false }

@[simp] lemma dialect_inObject (c : Context) : c.inObject.dialect = c.dialect := rfl

@[simp] lemma budget_inObject (c : Context) : c.inObject.budget = c.budget := rfl

/-- One property of an object literal, or its end. -/
def objectStep (g : Grammar) (start : Nat) (found : List Property) :
    Parser (List Property ⊕ List Property) := do
  if ← eat "\x7d" then return .inr found.reverse
  let p ← readProperty g
  if let some comma ← lastComma? "\x7d" then noteTrailingComma start comma
  return .inl (p :: found)

lemma readObject_eq (g : Grammar) :
    readObject g = inContext Context.inObject (do
      let start ← offsetHere
      expect "\x7b"
      let properties ← iterate (objectStep g start) []
      return ⟨← spanFrom start, properties⟩) := rfl

/-- The text of each property is read as the property. -/
def Legible (g : Grammar) (c : Context) (slots : List Slot) : Prop :=
  ∀ s ∈ slots, (readProperty g).Reads c EndsProperty s.text (·.unplaced = s.property.unplaced)

section

variable {g : Grammar} {c : Context} {k k₁ k' : Cursor} {slots slots' : List Slot}
  {closing rest : List Char} {p : Property} {offset : Nat}

lemma Legible.of_map_eq (h : Legible g c slots)
    (heq : slots'.map (fun s => (s.text, s.property)) = slots.map (fun s => (s.text, s.property))) :
    Legible g c slots' := by
  intro s' hs'
  have hmem : (s'.text, s'.property) ∈ slots.map fun s => (s.text, s.property) := by
    rw [← heq]
    exact List.mem_map_of_mem hs'
  obtain ⟨s, hs, hsame⟩ := List.mem_map.mp hmem
  obtain ⟨htext, hproperty⟩ := Prod.mk.inj hsame
  rw [← htext, ← hproperty]
  exact h s hs

lemma Separates.clean (h : Separates slots closing) (hlegible : Legible g c slots) :
    Clean c.lexMode (written slots ++ (closing ++ '}' :: rest)) := by
  have hbrace : IsMark '}' := Or.inr (Or.inr (Or.inr rfl))
  cases slots with
  | nil => exact (clean_mark hbrace c.lexMode rest).gap_append h
  | cons s slots =>
      obtain ⟨hgap, hslots⟩ := h
      rw [written_cons, List.append_assoc, List.append_assoc]
      exact ((hlegible s List.mem_cons_self).clean _ (hslots.endsProperty rest)).gap_append hgap

lemma gives_go_inl {σ α : Type} {step : σ → Parser (σ ⊕ α)} {s s' : σ} {a : α} {n : Nat}
    (h : (step s).Gives c k (.inl s') k₁) (h' : (iterate.go step n s').Gives c k₁ a k') :
    (iterate.go step (n + 1) s).Gives c k a k' :=
  h.bind h'

lemma gives_go_inr {σ α : Type} {step : σ → Parser (σ ⊕ α)} {s : σ} {a : α} {n : Nat}
    (h : (step s).Gives c k (.inr a) k') : (iterate.go step (n + 1) s).Gives c k a k' :=
  h.bind (gives_pure a c k')

lemma gives_objectStep_end (start : Nat) (found : List Property)
    (h : k.current.token = .punctuator "\x7d") :
    (objectStep g start found).Gives c k (.inr found.reverse) (k.moved c) :=
  (gives_eat h).bind (gives_pure _ c _)

/-- A property that nothing but the closing brace follows. -/
lemma gives_objectStep_last (start : Nat) (found : List Property)
    (hp : (readProperty g).Gives c k p k₁)
    (hbrace : k₁.current.token = .punctuator "\x7d") :
    (objectStep g start found).Gives c k (.inl (p :: found)) k₁ := by
  have hcomma : (lastComma? "\x7d").Gives c k₁ none k₁ := by
    refine (gives_isAt "\x7d" c k₁).bind ?_
    rw [decide_eq_true hbrace]
    exact gives_pure none c k₁
  refine (gives_eat_of_ne (readProperty_token hp)).bind ?_
  exact hp.bind (hcomma.bind (gives_pure _ c k₁))

lemma exists_gives_lastComma (hcomma : k.current.token = .punctuator ",") :
    ∃ comma, (lastComma? "\x7d").Gives c k comma (k.moved c) := by
  have hother : k.current.token ≠ .punctuator "\x7d" := by simp [hcomma]
  by_cases hbrace : (k.moved c).current.token = .punctuator "\x7d"
  · refine ⟨some (k.moved c).last.start, (gives_isAt "\x7d" c k).bind ?_⟩
    rw [decide_eq_false hother]
    refine (gives_expect hcomma).bind ((gives_isAt "\x7d" c _).bind ?_)
    rw [decide_eq_true hbrace]
    exact (gives_get c _).bind (gives_pure _ c _)
  · refine ⟨none, (gives_isAt "\x7d" c k).bind ?_⟩
    rw [decide_eq_false hother]
    refine (gives_expect hcomma).bind ((gives_isAt "\x7d" c _).bind ?_)
    rw [decide_eq_false hbrace]
    exact gives_pure none c _

/-- A property with a comma behind it. -/
lemma exists_gives_objectStep (start : Nat) (found : List Property)
    (hp : (readProperty g).Gives c k p k₁)
    (hcomma : k₁.current.token = .punctuator ",") :
    ∃ k', (objectStep g start found).Gives c k (.inl (p :: found)) k'
      ∧ k'.current = (k₁.moved c).current ∧ k'.faults = (k₁.moved c).faults := by
  obtain ⟨comma, hcomma⟩ := exists_gives_lastComma hcomma
  cases comma with
  | none =>
      refine ⟨k₁.moved c, (gives_eat_of_ne (readProperty_token hp)).bind ?_, rfl, rfl⟩
      exact hp.bind (hcomma.bind (gives_pure _ c _))
  | some comma =>
      refine ⟨_, (gives_eat_of_ne (readProperty_token hp)).bind
        (hp.bind (hcomma.bind (Parser.Gives.bind (r := noteTrailingComma start comma) rfl
          (gives_pure _ c _)))), rfl, rfl⟩

/-- A property is read together with the comma behind it. What is left is as behind an opening
brace. -/
lemma exists_gives_slot {s : Slot} (start : Nat) (found : List Property)
    (hseparates : Separates (s :: slots) closing)
    (hlegible : Legible g c (s :: slots))
    (hk : k.Before c.lexMode offset (written (s :: slots) ++ (closing ++ '}' :: rest))) :
    ∃ p k' slots' closing' offset', (objectStep g start found).Gives c k (.inl (p :: found)) k'
      ∧ p.unplaced = s.property.unplaced
      ∧ slots'.map (fun s => (s.text, s.property)) = slots.map (fun s => (s.text, s.property))
      ∧ Separates slots' closing'
      ∧ k'.Before c.lexMode offset' (written slots' ++ (closing' ++ '}' :: rest))
      ∧ offset' + byteLength (written slots' ++ closing')
        = offset + byteLength (written (s :: slots) ++ closing)
      ∧ k'.faults = k.faults := by
  have hbrace : IsMark '}' := Or.inr (Or.inr (Or.inr rfl))
  have hcomma : IsMark ',' := Or.inl rfl
  obtain ⟨hgap, hcontinues⟩ := hseparates
  rw [written_cons, List.append_assoc, List.append_assoc] at hk
  obtain ⟨p, k₁, hp, hsame, hk₁, hfaults₁⟩ := (hlegible s List.mem_cons_self).gives k _ _
    (hcontinues.endsProperty rest) (hk.behind_gap hgap)
  obtain ⟨rfl, hclosing⟩ | ⟨gap, slots', closing', hgap', hseparates', htext, hsames⟩ :=
    hcontinues.cases
  · -- the property is the last one
    have hat : k₁.Before c.lexMode _ (closing ++ '}' :: rest) := hk₁
    refine ⟨p, k₁, [], closing, _,
      gives_objectStep_last start found hp ((hat.behind_gap hclosing).at_mark hbrace).1, hsame, rfl, hclosing,
      hk₁, ?_, hfaults₁⟩
    simp only [written_cons, byteLength_append]
    omega
  · -- a comma follows
    have htext' : written slots ++ (closing ++ '}' :: rest)
        = gap ++ ',' :: (written slots' ++ (closing' ++ '}' :: rest)) := by
      rw [← List.append_assoc, htext]
      simp
    have hslots : Legible g c slots := fun s' hs' => hlegible s' (List.mem_cons_of_mem s hs')
    rw [htext'] at hk₁
    have hat := hk₁.behind_gap hgap'
    obtain ⟨hk₂, hfaults₂⟩ := hat.moved hcomma (hseparates'.clean (hslots.of_map_eq hsames))
    obtain ⟨k', hstep, hcurrent, hfaults'⟩ :=
      exists_gives_objectStep start found hp (hat.at_mark hcomma).1
    refine ⟨p, k', slots', closing', _, hstep, hsame, hsames, hseparates', hk₂.of_current hcurrent,
      ?_, ?_⟩
    · have hbytes := congrArg byteLength htext
      have hsize : ','.utf8Size = 1 := by decide
      simp only [byteLength_append, byteLength_cons, hsize] at hbytes
      simp only [written_cons, byteLength_append]
      omega
    · rw [hfaults', hfaults₂, hfaults₁]

/-- The properties of an object literal are read one after the other, up to the closing brace. -/
lemma exists_gives_properties (start : Nat) (found : List Property) (fuel : Nat)
    (hfuel : slots.length < fuel) (hseparates : Separates slots closing) (hlegible : Legible g c slots)
    (hrest : Clean c.lexMode rest)
    (hk : k.Before c.lexMode offset (written slots ++ (closing ++ '}' :: rest))) :
    ∃ ps k', (iterate.go (objectStep g start) fuel found).Gives c k ps k'
      ∧ ps.map Property.unplaced
        = found.reverse.map Property.unplaced ++ slots.map (·.property.unplaced)
      ∧ k'.Before c.lexMode (offset + byteLength (written slots ++ closing) + 1) rest
      ∧ k'.faults = k.faults := by
  induction fuel generalizing slots closing found k offset with
  | zero => omega
  | succ fuel ih =>
      cases slots with
      | nil =>
          have hbrace : IsMark '}' := Or.inr (Or.inr (Or.inr rfl))
          have hk : k.Before c.lexMode offset (closing ++ '}' :: rest) := hk
          have hat := hk.behind_gap hseparates
          obtain ⟨hmoved, hfaults⟩ := hat.moved hbrace hrest
          exact ⟨_, _, gives_go_inr (gives_objectStep_end start found (hat.at_mark hbrace).1), by simp, hmoved,
            hfaults⟩
      | cons s slots =>
          have hslots : Legible g c slots := fun s' hs' => hlegible s' (List.mem_cons_of_mem s hs')
          obtain ⟨p, k₁, slots', closing', offset', hstep, hsame, hsames, hseparates', hk₁, hoffset,
            hfaults₁⟩ := exists_gives_slot start found hseparates hlegible hk
          have hlength : slots'.length = slots.length := by
            simpa using congrArg List.length hsames
          have hunplaced : slots'.map (·.property.unplaced) = slots.map (·.property.unplaced) := by
            have hmapped := congrArg (List.map fun x => x.2.unplaced) hsames
            rwa [List.map_map, List.map_map] at hmapped
          rw [List.length_cons] at hfuel
          obtain ⟨ps, k', hps, hproperties, hk', hfaults'⟩ := ih (p :: found) (by omega)
            hseparates' (hslots.of_map_eq hsames) hk₁
          rw [hoffset] at hk'
          refine ⟨ps, k', gives_go_inl hstep hps, ?_, hk', hfaults'.trans hfaults₁⟩
          simp [hproperties, hsame, hunplaced]

/-- The text of an object literal. -/
def objectText (slots : List Slot) (closing : List Char) : List Char :=
  '{' :: (written slots ++ (closing ++ ['}']))

/-- **A text of legible properties with gaps and commas between them is read as the object with these
properties**, wherever it stands. -/
theorem readObject_reads (hbudget : slots.length < c.budget) (hseparates : Separates slots closing)
    (hlegible : Legible g c.inObject slots) :
    (readObject g).Reads c (Clean c.lexMode) (objectText slots closing)
      fun o => o.properties.map Property.unplaced = slots.map (·.property.unplaced) := by
  have hopen : IsMark '{' := Or.inr (Or.inr (Or.inl rfl))
  refine ⟨fun rest _ => clean_mark hopen c.lexMode _, fun k offset rest hrest hk => ?_⟩
  have htext : objectText slots closing ++ rest
      = '{' :: (written slots ++ (closing ++ '}' :: rest)) := by
    simp [objectText]
  rw [htext] at hk
  obtain ⟨hmoved, hfaults⟩ := hk.moved (c := c.inObject) hopen (hseparates.clean hlegible)
  obtain ⟨start, hstart⟩ := exists_gives_offsetHere c.inObject k
  obtain ⟨ps, k', hps, hproperties, hk', hfaults'⟩ :=
    exists_gives_properties start [] c.budget hbudget hseparates hlegible hrest hmoved
  refine ⟨⟨⟨start, k'.last.stop⟩, ps⟩, k', ?_, by simpa using hproperties, ?_, ?_⟩
  · rw [readObject_eq]
    refine Parser.Gives.inContext ?_
    refine hstart.bind ((gives_expect (hk.at_mark hopen).1).bind ?_)
    have hiterate : (iterate (objectStep g start) []).Gives c.inObject (k.moved c.inObject) ps k' :=
      (gives_read c.inObject _).bind hps
    exact hiterate.bind ((gives_spanFrom start _ k').bind (gives_pure _ _ k'))
  · have hsize : '{'.utf8Size = 1 := by decide
    have hsize' : '}'.utf8Size = 1 := by decide
    have hoffset : offset + 1 + byteLength (written slots ++ closing) + 1
        = offset + byteLength (objectText slots closing) := by
      simp only [objectText, byteLength_cons, byteLength_append, byteLength_nil, hsize, hsize']
      omega
    rw [← hoffset]
    exact hk'
  · rw [hfaults', hfaults]

end

/-! ### What properties are made of -/

/-- Whether a property of an object literal is read as a whole: it has no key with a value. -/
def Property.isWhole : Property → Bool
  | .shorthand _ _ | .method _ _ _ _ | .spread _ _ => true
  | .keyValue _ _ | .initialized _ _ _ => false

/-- The text of a property is a key, a colon and a value, or is read as a whole. -/
inductive SlotText (g : Grammar) (c : Context) : Slot → Prop
  /-- A key and a value. -/
  | keyValue {sep word gap gap' body : List Char} {key : PropertyKey} {value : Expr} :
      (readKey g).Reads c (fun t => ∃ rest, t = gap ++ ':' :: rest) word
        (·.unplaced = key.unplaced) →
      IsGap isLineBreak gap → IsGap isLineBreak gap' →
      (bracketed g).Reads c EndsProperty body (·.unplaced = value.unplaced) →
      SlotText g c ⟨sep, word ++ gap ++ ':' :: gap', body, .keyValue key value⟩
  /-- Any other property. -/
  | whole {sep body : List Char} {p : Property} : p.isWhole = true →
      (readProperty g).Reads c EndsProperty body (·.unplaced = p.unplaced) →
      SlotText g c ⟨sep, [], body, p⟩

section

variable {g : Grammar} {c : Context} {s : Slot} {body : List Char} {key : PropertyKey}
  {value value' : Expr}

lemma SlotText.reads (h : SlotText g c s) :
    (readProperty g).Reads c EndsProperty s.text (·.unplaced = s.property.unplaced) := by
  cases h with
  | keyValue hkey hgap hgap' hvalue =>
      have hreads := reads_keyValue hkey hgap hgap' hvalue
      simpa [Slot.text] using hreads
  | whole _ hbody => exact hbody

/-- The value of a property can be exchanged. -/
lemma SlotText.with_body (h : SlotText g c s) (hs : s.property = .keyValue key value)
    (hbody : (bracketed g).Reads c EndsProperty body (·.unplaced = value'.unplaced)) :
    SlotText g c { s with body := body, property := .keyValue key value' } := by
  cases h with
  | keyValue hkey hgap hgap' _ =>
      cases hs
      exact .keyValue hkey hgap hgap' hbody
  | whole hwhole _ =>
      simp only at hs
      rw [hs] at hwhole
      cases hwhole

lemma SlotText.sep (h : SlotText g c s) (sep : List Char) : SlotText g c { s with sep := sep } := by
  cases h with
  | keyValue hkey hgap hgap' hvalue => exact .keyValue hkey hgap hgap' hvalue
  | whole hwhole hbody => exact .whole hwhole hbody

/-- An entry that is added under a name of letters. -/
def entrySlot (sep : List Char) (key : String) (body : List Char) (value : Expr) : Slot :=
  ⟨sep, key.toList ++ [] ++ ':' :: [' '], body, entry key value⟩

lemma slotText_entrySlot {name : String} (sep : List Char) (hne : name.toList ≠ [])
    (hletters : ∀ d ∈ name.toList, isAsciiLetter d = true)
    (hbody : (bracketed g).Reads c EndsProperty body (·.unplaced = value.unplaced)) :
    SlotText g c (entrySlot sep name body value) := by
  have hkey : (readKey g).Reads c (fun t => ∃ rest, t = ':' :: rest) name.toList
      (·.unplaced = (PropertyKey.identifier nowhere (String.ofList name.toList)).unplaced) :=
    reads_name hne hletters
  rw [String.ofList_toList] at hkey
  exact .keyValue hkey .nil isGap_space hbody

end

end SvelteStories.Script
