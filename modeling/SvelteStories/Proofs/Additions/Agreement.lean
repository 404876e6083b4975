/-
Additions to parameters as edits of the text and as changes of the tree:

* `ParameterAdditions.parameters?`: the parameters that additions make;
* `owner_cases`: the edits and the changed tree go by the same property;
* `exists_edited_of_editOwner`: one edit inside of an object literal makes it the changed one;
* `editOwner_agrees`: so the edited text is that of the changed tree;
* `hiddenComma_breaks`: a comment that another character than a line feed ends can hide a comma.
-/
import SvelteStories.Proofs.Additions.LastProperty
import SvelteStories.Proofs.Additions.Layout
import SvelteStories.Proofs.Script.Operands

namespace SvelteStories

open Script

/-! ### The same choice -/

namespace ParameterAdditions

/-- The parameters that additions to an object make, unless the object computes its parameters. -/
def parameters? (p : ParameterAdditions) (o : ObjectLiteral) : Option ObjectLiteral :=
  match splitLast? (·.isNamed parametersKey) o.properties with
  | none => some (p.addTo (objectOf [])).value
  | some (_, property, _) => (base? property).map fun base => (p.addTo base).value

/-- What is written in the place of the parameters. -/
def replacement (property : Property) (parameters : ObjectLiteral) : List Char :=
  match property with
  | .keyValue _ _ => parameters.print 0
  | _ => parametersText parameters

section

variable {p : ParameterAdditions} {o : ObjectLiteral} {property : Property}
  {before behind : List Property} {parameters : ObjectLiteral}

lemma parameters?_of_splitLast?
    (h : splitLast? (·.isNamed parametersKey) o.properties = some (before, property, behind)) :
    p.parameters? o = (base? property).map fun base => (p.addTo base).value := by
  rw [parameters?, h]

/-- The edits and the changed tree go by the same property: none, a new one, or the last one of the
name. -/
lemma owner_cases (p : ParameterAdditions) (draft : Draft) (o : ObjectLiteral) :
    ((p.isEmpty = true ∨ ∃ property, o.last? parametersKey = some property ∧ base? property = none)
        ∧ (p.editOwner draft o).value = .ok draft ∧ (p.addToOwner o).value = o)
      ∨ (p.isEmpty = false ∧ o.last? parametersKey = none ∧ ∃ parameters,
        p.parameters? o = some parameters
        ∧ (p.editOwner draft o).value = appendProperty draft o (parametersText parameters)
        ∧ (p.addToOwner o).value = o.push (entry parametersKey (.object parameters)))
      ∨ (p.isEmpty = false ∧ ∃ before property behind parameters,
        splitLast? (·.isNamed parametersKey) o.properties = some (before, property, behind)
        ∧ (base? property).isSome = true ∧ p.parameters? o = some parameters
        ∧ (p.editOwner draft o).value = draft.overwrite property.target.start property.target.stop
          (replacement property parameters)
        ∧ (p.addToOwner o).value
          = { o with properties := before ++ merged property parameters :: behind }) := by
  rw [editOwner, addToOwner]
  cases hempty : p.isEmpty with
  | true => exact Or.inl ⟨Or.inl rfl, rfl, rfl⟩
  | false =>
      simp only [Bool.false_eq_true, if_false, false_or]
      cases hsplit : splitLast? (·.isNamed parametersKey) o.properties with
      | none =>
          have hlast : o.last? parametersKey = none :=
            last?_eq_none_iff.mpr (splitLast?_eq_none_iff.mp hsplit)
          refine Or.inr (Or.inl ⟨trivial, hlast, _, ?_, rfl, rfl⟩)
          rw [parameters?, hsplit]
      | some found =>
          obtain ⟨before, property, behind⟩ := found
          have hlast := last?_of_splitLast? hsplit
          cases hbase : base? property with
          | none => exact Or.inl ⟨⟨property, hlast, hbase⟩, by simp [hbase], by simp [hbase]⟩
          | some base =>
              refine Or.inr (Or.inr ⟨trivial, before, property, behind, (p.addTo base).value, rfl,
                by simp [hbase], ?_, ?_, ?_⟩)
              · rw [parameters?_of_splitLast? hsplit, hbase]
                rfl
              · simp only [hbase]
                cases property <;> rfl
              · simp only [hbase]
                cases property <;> rfl

lemma notices_editOwner (p : ParameterAdditions) (draft : Draft) (o : ObjectLiteral) :
    (p.editOwner draft o).notices = (p.addToOwner o).notices := by
  rw [editOwner, addToOwner]
  split
  · rfl
  split
  · rfl
  · split <;> rfl

end

end ParameterAdditions

/-! ### The parameters as a property -/

/-- The property that holds parameters, as it is written. -/
def parametersSlot (sep : List Char) (parameters : ObjectLiteral) : Slot :=
  entrySlot sep parametersKey (parameters.print 0) (.object parameters)

/-- Whether a property is a method or an accessor. -/
def Script.Property.isMethod : Property → Bool
  | .method _ _ _ _ => true
  | .keyValue _ _ | .shorthand _ _ | .initialized _ _ _ | .spread _ _ => false

namespace ParameterAdditions

/-- Whether nothing comes of additions to an object: there are none, or the last property for the
parameters is a method or an accessor. -/
def Idle (p : ParameterAdditions) (o : ObjectLiteral) : Prop :=
  p.isEmpty = true ∨ ∃ property, o.last? parametersKey = some property ∧ property.isMethod = true

end ParameterAdditions

section

variable {g : Grammar} {c : Context} {l : Layout g c} {o : ObjectLiteral} {p : ParameterAdditions}
  {parameters : ObjectLiteral} {property : Property} {s : Slot}

lemma text_parametersSlot (sep : List Char) (parameters : ObjectLiteral) :
    (parametersSlot sep parameters).text = parametersText parameters := by
  simp [parametersSlot, entrySlot, Slot.text, parametersText]

lemma slotText_parametersSlot (sep : List Char)
    (h : (bracketed g).Reads c EndsProperty (parameters.print 0)
      (·.unplaced = (Expr.object parameters).unplaced)) :
    SlotText g c (parametersSlot sep parameters) :=
  slotText_entrySlot sep (by decide) (by decide) h

/-- The additions find no place in a property of an object that stands in a text only if it is a
method or an accessor. -/
lemma base?_eq_none_iff (hs : SlotText g c s) (hnamed : s.property.isNamed parametersKey = true) :
    ParameterAdditions.base? s.property = none ↔ s.property.isMethod = true := by
  cases hs with
  | @keyValue _ _ _ _ _ _ value =>
      cases value <;> simp [ParameterAdditions.base?, Property.isMethod]
  | @whole _ _ property hwhole _ =>
      cases property with
      | keyValue key value => cases hwhole
      | initialized span name value => cases hwhole
      | spread span value => simp [Property.isNamed, Property.name?] at hnamed
      | shorthand span name => simp [ParameterAdditions.base?, Property.isMethod]
      | method span lead key parts => simp [ParameterAdditions.base?, Property.isMethod]

/-! ### Agreement -/

/-- What takes the place of the parameters in the text is what takes their place in the tree. -/
lemma exists_edited_of_replacement {before behind : List Property} (ho : o.StandsIn l)
    (hproperties : o.properties = before ++ property :: behind)
    (hbase : (ParameterAdditions.base? property).isSome = true)
    (hprinted : (bracketed g).Reads c.inObject EndsProperty (parameters.print 0)
      (·.unplaced = (Expr.object parameters).unplaced)) :
    ∃ e l', l.Edited l' ((Draft.ofText l.text).overwrite property.target.start property.target.stop
        (ParameterAdditions.replacement property parameters)) e
      ∧ parameters.print 0 <:+: e.text
      ∧ l'.slots.map (·.property)
        = before ++ ParameterAdditions.merged property parameters :: behind := by
  obtain ⟨left, slots, hslots, rfl, hrest⟩ :=
    List.map_eq_append_iff.mp (ho.properties.symm.trans hproperties)
  obtain ⟨s, right, rfl, rfl, rfl⟩ := List.map_eq_cons_iff.mp hrest
  have hs : SlotText g c.inObject s := l.texts s (by simp [hslots])
  cases hproperty : s.property with
  | keyValue key value =>
      obtain ⟨l', hedited, hproperties'⟩ := exists_edited_of_overwrite ho hslots
        (hs.with_body hproperty hprinted) rfl (Eq.refl (s.head ++ parameters.print 0))
      rw [hproperty] at hedited
      exact ⟨_, l', hedited, List.infix_refl _, hproperties'⟩
  | shorthand span name =>
      have hhead : s.head = [] := by
        cases hs with
        | keyValue => cases hproperty
        | whole => rfl
      have htext : (parametersSlot s.sep parameters).text = s.head ++ parametersText parameters := by
        rw [hhead, text_parametersSlot, List.nil_append]
      obtain ⟨l', hedited, hproperties'⟩ := exists_edited_of_overwrite ho hslots
        (slotText_parametersSlot s.sep hprinted) rfl htext
      rw [hproperty] at hedited
      exact ⟨_, l', hedited, ⟨parametersKey.toList ++ [':', ' '], [], by simp [parametersText]⟩,
        hproperties'⟩
  | _ => simp [hproperty, ParameterAdditions.base?] at hbase

/-- An object that stands in a text has no place for additions exactly if its last property for the
parameters is a method or an accessor. -/
lemma idle_iff (ho : o.StandsIn l) : p.Idle o ↔ p.isEmpty = true
    ∨ ∃ property, o.last? parametersKey = some property
      ∧ ParameterAdditions.base? property = none := by
  have hiff : ∀ property, o.last? parametersKey = some property →
      (ParameterAdditions.base? property = none ↔ property.isMethod = true) := by
    intro property hlast
    have hmem : property ∈ o.properties := by
      simpa using List.mem_of_find?_eq_some hlast
    rw [ho.properties] at hmem
    obtain ⟨s, hs, rfl⟩ := List.mem_map.mp hmem
    exact base?_eq_none_iff (l.texts s hs) (List.find?_some hlast)
  refine or_congr_right (exists_congr fun property => and_congr_right fun hlast => ?_)
  exact (hiff property hlast).symm

/-- Unless nothing comes of the additions, a single edit makes the layout one of the changed tree, and
writes the parameters that this tree has. -/
lemma exists_edited_of_editOwner (ho : o.StandsIn l)
    (hclosing : o.last? parametersKey = none → l.slots ≠ [] →
      IsGap isLineFeed l.closing ∨ IsSeparator isLineFeed l.closing)
    (hprinted : ∀ parameters, p.parameters? o = some parameters →
      (bracketed g).Reads c.inObject EndsProperty (parameters.print 0)
        (·.unplaced = (Expr.object parameters).unplaced)) :
    (p.Idle o ∧ (p.editOwner (Draft.ofText l.text) o).value = .ok (Draft.ofText l.text)
        ∧ (p.addToOwner o).value = o)
      ∨ (¬ p.Idle o ∧ ∃ e l' property parameters,
        l.Edited l' (p.editOwner (Draft.ofText l.text) o).value e
        ∧ (p.addToOwner o).value.properties = l'.slots.map (·.property)
        ∧ (p.addToOwner o).value.properties.length ≤ o.properties.length + 1
        ∧ (p.addToOwner o).value.last? parametersKey = some property
        ∧ property.value? = some (.object parameters) ∧ parameters.print 0 <:+: e.text) := by
  rw [idle_iff ho]
  obtain hidle | ⟨hempty, hlast, parameters, hparameters, hvalue, htree⟩
    | ⟨hempty, before, property, behind, parameters, hsplit, hbase, hparameters, hvalue, htree⟩ :=
    p.owner_cases (Draft.ofText l.text) o
  · exact Or.inl hidle
  · -- the parameters are a new property
    obtain ⟨e, l', hedited, hinfix, hproperties⟩ := exists_edited_of_appendProperty ho
      (slotText_parametersSlot [] (hprinted parameters hparameters)) (hclosing hlast)
    rw [text_parametersSlot] at hedited hinfix
    rw [← ho.properties] at hproperties
    have hwritten : parameters.print 0 <:+: parametersText parameters :=
      ⟨parametersKey.toList ++ [':', ' '], [], by simp [parametersText]⟩
    rw [hvalue, htree]
    exact Or.inr ⟨by simp [hempty, hlast], e, l', _, parameters, hedited, hproperties.symm,
      by simp [ObjectLiteral.push], last?_push_of_isNamed (by simp [isNamed_entry]), rfl,
      hwritten.trans hinfix⟩
  · -- they take the place of a property
    obtain ⟨hproperties, hnamed, hbehind⟩ := splitLast?_eq_some_iff.mp hsplit
    obtain ⟨e, l', hedited, hinfix, hproperties'⟩ := exists_edited_of_replacement ho hproperties
      hbase (hprinted parameters hparameters)
    have hmerged : (ParameterAdditions.merged property parameters).isNamed parametersKey = true :=
      decide_eq_true (ParameterAdditions.name?_merged (of_decide_eq_true hnamed) parameters)
    rw [hvalue, htree]
    refine Or.inr ⟨?_, e, l', _, parameters, hedited, hproperties'.symm, by simp [hproperties],
      last?_of_splitLast? (splitLast?_eq_some_iff.mpr ⟨rfl, hmerged, hbehind⟩),
      ParameterAdditions.value?_merged property parameters, hinfix⟩
    rw [Option.isSome_iff_ne_none] at hbase
    simp [hempty, last?_of_splitLast? hsplit, hbase]

/-- Additions to an object that stands in a text are the same as edits of the text and as changes of
the tree. -/
structure ParameterAdditions.Agrees (p : ParameterAdditions) (l : Layout g c) (o : ObjectLiteral) :
    Prop where
  /-- The same is said about them. -/
  notices : (p.editOwner (Draft.ofText l.text) o).notices = (p.addToOwner o).notices
  /-- There are no edits exactly if nothing comes of the additions. -/
  unedited_iff : (p.editOwner (Draft.ofText l.text) o).value = .ok (Draft.ofText l.text) ↔ p.Idle o
  /-- The tree stays as it is then. -/
  unchanged : p.Idle o → (p.addToOwner o).value = o
  /-- Otherwise there is a single edit, which stands in the object and writes the parameters that the
  changed tree has, and what the edited text has in the place of the object is read as this tree. -/
  edited : ¬ p.Idle o → ∃ e property parameters w,
    (p.editOwner (Draft.ofText l.text) o).value = .ok ⟨l.text, [e], []⟩ ∧ e.Inside o.span
    ∧ (p.addToOwner o).value.last? parametersKey = some property
    ∧ property.value? = some (.object parameters) ∧ parameters.print 0 <:+: e.text
    ∧ (⟨l.text, [e], []⟩ : Draft).finish = l.before ++ (w ++ l.behind)
    ∧ (readObject g).Reads c (Clean c.lexMode) w (·.unplaced = (p.addToOwner o).value.unplaced)

/-- **Additions to the parameters of an object are the same as edits of its text and as changes of its
tree**, as long as the parameters that are printed are read again. If a property is added behind the
last one, line feeds have to end all comments there that go to the end of their lines. -/
theorem editOwner_agrees (ho : o.StandsIn l) (hbudget : o.properties.length + 1 < c.budget)
    (hclosing : o.last? parametersKey = none → l.slots ≠ [] →
      IsGap isLineFeed l.closing ∨ IsSeparator isLineFeed l.closing)
    (hprinted : ∀ parameters, p.parameters? o = some parameters →
      (bracketed g).Reads c.inObject EndsProperty (parameters.print 0)
        (·.unplaced = (Expr.object parameters).unplaced)) :
    p.Agrees l o := by
  obtain ⟨hidle, hvalue, htree⟩ | ⟨hactive, e, l', property, parameters, hedited, hproperties,
    hlength, hlast, hparameters, hwritten⟩ := exists_edited_of_editOwner ho hclosing hprinted
  · exact ⟨p.notices_editOwner _ o, ⟨fun _ => hidle, fun _ => hvalue⟩, fun _ => htree,
      fun h => absurd hidle h⟩
  · have hedit : (p.editOwner (Draft.ofText l.text) o).value ≠ .ok (Draft.ofText l.text) := by
      rw [hedited.accepted]
      simp [Draft.ofText]
    have hfinish : (⟨l.text, [e], []⟩ : Draft).finish = l.before ++ (l'.object ++ l.behind) := by
      rw [hedited.finish, Layout.text, hedited.before, hedited.behind]
    have hbudget' : l'.slots.length < c.budget := by
      have hsame := congrArg List.length hproperties
      rw [List.length_map] at hsame
      omega
    exact ⟨p.notices_editOwner _ o, ⟨fun h => absurd h hedit, fun h => absurd h hactive⟩,
      fun h => absurd h hactive, fun _ => ⟨e, property, parameters, l'.object, hedited.accepted,
        ho.span ▸ hedited.inside, hlast, hparameters, hwritten, hfinish,
        Layout.reads hbudget' hproperties⟩⟩

end

/-! ### Descriptions -/

section

variable {c : Context}

/-- A description of something. -/
def ParameterAdditions.describing (about : Described) (text : String) : ParameterAdditions :=
  ⟨none, some (about, text)⟩

/-- Parameters with nothing but a description are read again when they are printed. -/
lemma reads_description (hc : c.dialect.isTyped = false) (hbudget : 1 < c.budget) (n : Nat)
    (about : Described) (text : String) :
    (bracketed (grammar (n + 20))).Reads c EndsProperty
      (((ParameterAdditions.describing about text).addTo (objectOf [])).value.print 0)
      (·.unplaced = (Expr.object
        ((ParameterAdditions.describing about text).addTo (objectOf [])).value).unplaced) := by
  have hvalue : ((ParameterAdditions.describing about text).addTo (objectOf [])).value
      = objectOf [entry "docs" (.object (objectOf [entry "description"
        (.object (objectOf [entry about.key (stringExpr text)]))]))] := rfl
  rw [hvalue, ← print_object]
  have hkey : about.key.toList ≠ [] ∧ ∀ d ∈ about.key.toList, isAsciiLetter d = true := by
    cases about <;> decide
  -- from the inside out, in the context of each value
  refine reads_objectOf_entry hc hbudget (by decide) (by decide) ?_
  refine reads_objectOf_entry (by simpa using hc) (by simpa using hbudget) (by decide) (by decide) ?_
  refine reads_objectOf_entry (by simpa using hc) (by simpa using hbudget) hkey.1 hkey.2 ?_
  rw [print_stringExpr]
  exact reads_string (by simpa using hc) (by simpa using Nat.zero_lt_of_lt hbudget) text

end

/-- An object with a title, and a comment with a comma in it behind the title. -/
def titled : ObjectLiteral :=
  ⟨⟨13, 42⟩, [.keyValue (.identifier ⟨15, 20⟩ "title")
    (.literal ⟨22, 25⟩ (.string "A" "\"A\""))]⟩

/-- The property of the object with its text. -/
def titleSlot : Slot :=
  ⟨[' '], "title".toList ++ [] ++ ':' :: [' '], quote "A".toList,
    .keyValue (.identifier ⟨15, 20⟩ "title") (.literal ⟨22, 25⟩ (.string "A" "\"A\""))⟩

lemma titleSlot_text : SlotText (grammar 30) (Context.top .plainModule 100).inObject titleSlot := by
  have hkey : (readKey (grammar 30)).Reads (Context.top .plainModule 100).inObject
      (fun t => ∃ rest, t = ':' :: rest) "title".toList
      (·.unplaced = (PropertyKey.identifier nowhere (String.ofList "title".toList)).unplaced) :=
    reads_name (by decide) (by decide)
  rw [String.ofList_toList] at hkey
  exact .keyValue hkey .nil isGap_space (reads_string (n := 25) rfl (by decide) "A")

lemma titled_closing : IsGap isLineFeed " // first, last\n".toList := by
  have hinside : ∀ d ∈ " first, last".toList, isLineBreak d = false := by decide
  exact .blank (by decide) (.line hinside (by decide) .nil)

/-- The object in a script. -/
def titledLayout : Layout (grammar 30) (Context.top .plainModule 100) where
  before := "const meta = ".toList
  slots := [titleSlot]
  closing := " // first, last\n".toList
  behind := ";".toList
  separates := ⟨isGap_space, Or.inl (titled_closing.mono isLineBreak_of_isLineFeed)⟩
  texts _ hs := List.mem_singleton.mp hs ▸ titleSlot_text

/-- The theorem at an object with a comment behind its last property. -/
theorem titled_agrees :
    titled.StandsIn titledLayout ∧ IsGap isLineFeed titledLayout.closing
      ∧ (ParameterAdditions.describing .component "\"A\", or B\n").Agrees titledLayout titled := by
  have hstands : titled.StandsIn titledLayout := by
    refine ⟨rfl, by decide +kernel, fun left _ right h => ?_⟩
    obtain ⟨rfl, hs⟩ | ⟨t, rfl, hs⟩ := List.append_eq_cons_iff.mp h.symm
    · cases hs
      decide +kernel
    · simp at hs
  refine ⟨hstands, titled_closing, editOwner_agrees hstands (by decide) (fun _ _ => Or.inl titled_closing)
    fun parameters hparameters => ?_⟩
  cases hparameters
  exact reads_description rfl (by decide) 10 _ _

/-! ### Comments that end otherwise -/

/-- An object with a comment that a carriage return ends, and a comma in the comment behind it. -/
def hiddenComma : List Char :=
  "\x7b x: 1 // c\r/*\n,*/ \x7d".toList

/-- The object that it is. -/
def hiddenCommaObject : ObjectLiteral :=
  ⟨⟨0, 20⟩, [.keyValue (.identifier ⟨2, 3⟩ "x") (.literal ⟨5, 6⟩ (.number "1"))]⟩

/-- The object literal that a text is, if it is nested no deeper than this. -/
def objectAt (t : List Char) : Except SyntaxFault ObjectLiteral :=
  (readObject (grammar 30)).run .plainModule 0 t

/-- A carriage return ends a comment for the parser, but not for the search of a comma, which finds one
that stands in a comment: the edited text lacks a comma between its properties, and is no object. -/
theorem hiddenComma_breaks :
    objectAt hiddenComma = .ok hiddenCommaObject
      ∧ ¬ (ParameterAdditions.describing .story "D").Idle hiddenCommaObject
      ∧ ∃ draft, ((ParameterAdditions.describing .story "D").editOwner (Draft.ofText hiddenComma)
          hiddenCommaObject).value = .ok draft
        ∧ ∀ o, objectAt draft.finish ≠ .ok o := by
  refine ⟨rfl, ?_, ⟨hiddenComma, [⟨19, 19, ' ' :: parametersText
    ((ParameterAdditions.describing .story "D").addTo (objectOf [])).value ++ [' ']⟩], []⟩, rfl,
    fun o ho => ?_⟩
  · rintro (h | ⟨property, hlast, -⟩)
    · cases h
    · cases hlast
  · have hfails : (objectAt (Draft.finish ⟨hiddenComma, [⟨19, 19, ' ' :: parametersText
        ((ParameterAdditions.describing .story "D").addTo (objectOf [])).value ++ [' ']⟩], []⟩)).isOk
        = false := by
      decide +kernel
    rw [ho] at hfails
    cases hfails

end SvelteStories
