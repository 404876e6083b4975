/-
What the transform changes in a compiled module:

* `Draft.Confined`: a draft whose edits all have a property, which one more edit keeps if it is
  clear of all that have the property;
* `confined_editStories`, `exists_edit`, `confined_removeDefaultExport`: the three kinds of edits,
  each clear of those before it;
* `withStories_spec`: the transform is refused no edit, and changes nothing but the properties of
  the story calls, the declaration of the meta object and the default export.
-/
import SvelteStories.Proofs.Additions.Places
import SvelteStories.Proofs.Compiled.Places
import SvelteStories.Transform.StoriesModule

namespace SvelteStories

open Script

/-! ### Confined drafts -/

/-- A draft of a text whose edits all have a property, with nothing behind the end. -/
structure Draft.Confined (t : List Char) (confines : Edit → Prop) (d : Draft) : Prop where
  /-- The edits are in order and fit the text. -/
  holds : d.Holds t d.edits []
  /-- They have the property. -/
  confined : ∀ e ∈ d.edits, confines e

namespace Draft.Confined

variable {t : List Char} {d : Draft} {confines confines' : Edit → Prop}

lemma ofText (t : List Char) (confines : Edit → Prop) : (Draft.ofText t).Confined t confines :=
  ⟨Draft.Holds.ofText t, by simp [Draft.ofText]⟩

lemma mono (h : d.Confined t confines) (himp : ∀ e, confines e → confines' e) :
    d.Confined t confines' :=
  ⟨h.holds, fun e he => himp e (h.confined e he)⟩

/-- An edit that is clear of all that have the property is accepted. -/
lemma overwrite (h : d.Confined t confines) {e : Edit} (hfits : e.Fits t) (he : confines' e)
    (himp : ∀ a, confines a → confines' a) (hclear : ∀ a, confines a → ¬ a.Touches e) :
    ∃ d', d.overwrite e.start e.stop e.text = .ok d' ∧ d'.Confined t confines' := by
  obtain ⟨d', hd', hholds⟩ := h.holds.overwrite hfits fun a ha => hclear a (h.confined a ha)
  refine ⟨d', hd', hholds.of_edits, fun a ha => ?_⟩
  have hqueue : a ∈ d.edits ++ [e] := hholds.queue.mem_iff.mp ha
  rcases List.mem_append.mp hqueue with ha | ha
  · exact himp a (h.confined a ha)
  · rw [List.mem_singleton.mp ha]
    exact he

end Draft.Confined

/-- An edit between the braces of one of some objects. -/
def Edit.InObjects (objects : List ObjectLiteral) (e : Edit) : Prop :=
  ∃ o ∈ objects, e.Within o.inner

lemma Edit.InObjects.not_touches {t : List Char} {objects : List ObjectLiteral} {s : Span}
    {a e : Edit} (ha : a.InObjects objects) (hobjects : ∀ o ∈ objects, o.Braced t)
    (hapart : ∀ o ∈ objects, o.span.Apart s) (he : e.Within s) : ¬ a.Touches e := by
  obtain ⟨o, ho, hwithin⟩ := ha
  exact not_touches_of_apart (hwithin.inside_of_inner (hobjects o ho)) he (hapart o ho)

/-- Additions to the parameters of an object are accepted if the edits before are in other
objects. -/
lemma confined_editOwner {t : List Char} {objects : List ObjectLiteral} {o : ObjectLiteral}
    {draft : Draft} (h : draft.Confined t (Edit.InObjects objects))
    (hobjects : ∀ o' ∈ objects, o'.Braced t) (ho : (Tree.expr (.object o)).WellNested t)
    (hapart : ∀ o' ∈ objects, o'.span.Apart o.span) (p : ParameterAdditions) :
    ∃ draft', (p.editOwner draft o).value = .ok draft'
      ∧ draft'.Confined t (Edit.InObjects (objects ++ [o])) := by
  have himp : ∀ a : Edit, a.InObjects objects → a.InObjects (objects ++ [o]) :=
    fun a ⟨o', ho', ha⟩ => ⟨o', List.mem_append_left _ ho', ha⟩
  rcases editOwner_cases ho p draft with heq | ⟨e, hfits, hwithin, heq⟩
  · exact ⟨draft, heq, h.mono himp⟩
  · rw [heq]
    refine h.overwrite hfits ⟨o, by simp, hwithin⟩ himp fun a ha => ?_
    exact ha.not_touches hobjects hapart (hwithin.inside_of_inner ho.braced).1

/-! ### Story calls -/

/-- The objects that carry the properties of the stories. -/
def propsOf (pairs : List (StoryPair Story StoryCall)) : List ObjectLiteral :=
  pairs.filterMap fun pair => pair.compiled.props?

lemma editStory_eq_ok {pair : StoryPair Story StoryCall} {o : ObjectLiteral}
    {draft draft' : Draft} (ho : pair.compiled.props? = some o)
    (h : (pair.source.additions.editOwner draft o).value = .ok draft') :
    editStory draft pair
      = .ok ⟨draft', (pair.source.additions.editOwner draft o).notices⟩ := by
  rw [editStory, ho]
  simp only [h]
  rfl

/-- The additions to the stories are accepted if their calls have properties, apart from one
another. -/
lemma confined_editStories {t : List Char} {pairs : List (StoryPair Story StoryCall)}
    {objects : List ObjectLiteral} {draft : Draft}
    (h : draft.Confined t (Edit.InObjects objects))
    (hobjects : ∀ o ∈ objects ++ propsOf pairs, (Tree.expr (.object o)).WellNested t)
    (hapart : (objects ++ propsOf pairs).Pairwise fun a b => a.span.Apart b.span)
    (hprops : ∀ pair ∈ pairs, pair.compiled.props?.isSome = true) :
    ∃ edited, editStories draft pairs = .ok edited
      ∧ edited.value.Confined t (Edit.InObjects (objects ++ propsOf pairs)) := by
  induction pairs generalizing objects draft with
  | nil => exact ⟨⟨draft, []⟩, rfl, by simpa [propsOf] using h⟩
  | cons pair pairs ih =>
      obtain ⟨hpair, hprops⟩ := List.forall_mem_cons.mp hprops
      obtain ⟨o, ho⟩ := Option.isSome_iff_exists.mp hpair
      have hcons : objects ++ propsOf (pair :: pairs) = (objects ++ [o]) ++ propsOf pairs := by
        simp [propsOf, ho]
      rw [hcons] at hobjects hapart ⊢
      have hbefore := List.pairwise_append.mp (List.pairwise_append.mp hapart).1
      obtain ⟨draft', hdraft', hconfined⟩ := confined_editOwner h
        (fun o' ho' => (hobjects o' (by simp [ho'])).braced) (hobjects o (by simp))
        (fun o' ho' => hbefore.2.2 o' ho' o (by simp)) pair.source.additions
      obtain ⟨edited, hedited, hresult⟩ := ih hconfined hobjects hapart hprops
      rw [editStories, editStory_eq_ok ho hdraft', ok_bind, hedited, ok_bind]
      exact ⟨_, rfl, hresult⟩

/-- With as many calls as stories, the paired calls are all of them, last first. -/
lemma map_compiled_pairFrom {α β : Type} {n : Nat} {tags : List α} {calls : List β}
    (h : tags.length = calls.length) : (pairFrom n tags calls).map StoryPair.compiled = calls := by
  induction tags generalizing n calls with
  | nil =>
      obtain rfl : calls = [] := List.length_eq_zero_iff.mp h.symm
      rfl
  | cons tag tags ih =>
      cases calls with
      | nil => simp at h
      | cons call calls =>
          rw [pairFrom, List.map_cons, ih (by simpa using h)]

lemma exists_pairStories {stories : List Story} {calls : List StoryCall}
    (h : stories.length = calls.length) :
    ∃ pairs, pairStories stories calls = .ok pairs
      ∧ pairs.map StoryPair.compiled = calls.reverse := by
  refine ⟨_, if_pos h, ?_⟩
  rw [List.map_reverse, map_compiled_pairFrom h]

lemma propsOf_eq (pairs : List (StoryPair Story StoryCall)) :
    propsOf pairs = (pairs.map StoryPair.compiled).filterMap StoryCall.props? := by
  rw [List.filterMap_map]
  rfl

/-! ### The meta declaration -/

/-- A declaration may be printed over another one that is apart from the edits before. -/
lemma confined_reprintDeclaration {t : List Char} {objects : List ObjectLiteral} {draft : Draft}
    {s : Span} {trees : List Tree} (h : draft.Confined t (Edit.InObjects objects))
    (hobjects : ∀ o ∈ objects, o.Braced t) (hs : Encloses t s trees) (hlt : s.start < s.stop)
    (hapart : ∀ o ∈ objects, o.span.Apart s) (d : VariableDeclaration) :
    ∃ draft', reprintDeclaration draft s d = .ok draft'
      ∧ draft'.Confined t fun e => e.InObjects objects ∨ e.Inside s := by
  have hwithin := fun text => hs.within (Span.contains_refl s) text
  refine h.overwrite (hs.fits _) (Or.inr ⟨hwithin _, fun heq => ?_⟩) (fun a => Or.inl)
    fun a ha => ha.not_touches hobjects hapart (hwithin _)
  exact absurd heq (Nat.ne_of_lt hlt)

/-- The edit of the meta declaration is accepted besides those of the story calls. -/
lemma exists_edit {t : List Char} {found : CompiledStories} {objects : List ObjectLiteral}
    {draft : Draft} (hplaced : found.Placed t)
    (hbinding : found.metaDeclaration.pattern.binding metaKey ≠ .complex)
    (h : draft.Confined t (Edit.InObjects objects)) (hobjects : ∀ o ∈ objects, o.Braced t)
    (hapart : ∀ o ∈ objects, o.span.Apart found.metaDeclaration.declaration.span)
    (additions : ParameterAdditions) :
    ∃ declared, found.metaDeclaration.edit additions draft = .ok declared
      ∧ declared.value.draft.Confined t fun e =>
        e.InObjects objects ∨ e.Inside found.metaDeclaration.declaration.span := by
  have hdeclaration : Encloses t found.metaDeclaration.declaration.span
      (Tree.declaration found.metaDeclaration.declaration).children := hplaced.declaration.encloses
  have hargument := hplaced.argument
  have hlt : found.metaDeclaration.declaration.span.start
      < found.metaDeclaration.declaration.span.stop := by
    have hbraces := hargument.wellNested.braced.contains_inner
    have hinner := hargument.wellNested.braced.boundary_inner.1
    have hinside := Span.contains_iff.mp hargument.inside
    omega
  rw [CompiledDeclaration.edit, ObjectPattern.bindMeta]
  cases hmeta : found.metaDeclaration.pattern.binding metaKey with
  | complex => exact absurd hmeta hbinding
  | name name =>
      -- the additions go into the argument
      obtain ⟨draft', hdraft', hconfined⟩ := confined_editOwner h hobjects hargument.wellNested
        (fun o ho => (hapart o ho).mono (Span.contains_refl _) hargument.inside) additions
      simp only [ok_bind, Bool.false_eq_true, if_false, hdraft']
      refine ⟨_, rfl, hconfined.mono fun e ⟨o, ho, he⟩ => ?_⟩
      rcases List.mem_append.mp ho with ho | ho
      · exact Or.inl ⟨o, ho, he⟩
      · obtain rfl := List.mem_singleton.mp ho
        exact Or.inr ((he.inside_of_inner hargument.wellNested.braced).mono hargument.inside)
  | missing =>
      -- the declaration is printed anew
      have hreprint := fun d => confined_reprintDeclaration h hobjects hdeclaration hlt hapart d
      simp only [ok_bind, if_true]
      generalize VariableDeclaration.changeAt _ _ _ = d
      obtain ⟨draft', hdraft', hconfined⟩ := hreprint d
      rw [hdraft', ok_bind]
      exact ⟨_, rfl, hconfined⟩

/-! ### The default export -/

/-- What the transform removes of a default export: all of it, or the keywords before a function. -/
def ComponentExport.removed (source : Source) : ComponentExport → Span
  | .identifier span => span
  | .function span =>
    ⟨span.start, span.start + (keywordsLength? (source.slice span)).getD 0⟩

/-- A word and the blanks behind it. -/
lemma exists_of_behindWord? {word : String} {t rest : List Char}
    (h : behindWord? word t = some rest) :
    ∃ blanks, t = word.toList ++ (blanks ++ rest) ∧ ∀ c ∈ blanks, isBlank c = true := by
  rw [behindWord?] at h
  split_ifs at h with hword
  obtain rfl := Option.some.inj h
  obtain ⟨hstarts, -⟩ := Bool.and_eq_true_iff.mp hword
  obtain ⟨behind, rfl⟩ := List.isPrefixOf_iff_prefix.mp hstarts
  rw [← String.length_toList, List.drop_left, trimStart]
  refine ⟨behind.takeWhile isBlank, by rw [List.takeWhile_append_dropWhile], ?_⟩
  exact List.all_eq_true.mp List.all_takeWhile

/-- The keywords of a default export stand at the start of it, and there is no brace in them. -/
lemma exists_keywords {t : List Char} {n : Nat} (h : keywordsLength? t = some n) :
    ∃ keywords rest, t = keywords ++ rest ∧ byteLength keywords = n ∧ '{' ∉ keywords := by
  obtain ⟨rest, hwords, rfl⟩ := Option.map_eq_some_iff.mp h
  obtain ⟨middle, hmiddle, hrest⟩ := Option.bind_eq_some_iff.mp hwords
  obtain ⟨blanks, rfl, hblanks⟩ := exists_of_behindWord? hmiddle
  obtain ⟨blanks', rfl, hblanks'⟩ := exists_of_behindWord? hrest
  have hbrace : isBlank '{' = false := by decide
  refine ⟨"export".toList ++ (blanks ++ ("default".toList ++ blanks')), rest, by simp, ?_, ?_⟩
  · simp only [byteLength_append]
    omega
  · intro hmem
    simp only [List.mem_append] at hmem
    rcases hmem with hmem | hmem | hmem | hmem
    · exact absurd hmem (by decide)
    · exact absurd (hblanks _ hmem) (by simp [hbrace])
    · exact absurd hmem (by decide)
    · exact absurd (hblanks' _ hmem) (by simp [hbrace])

/-- An object that does not begin before a stretch without braces begins behind it. -/
lemma Script.ObjectLiteral.Braced.le_start {before keywords behind : List Char} {o : ObjectLiteral}
    (ho : o.Braced (before ++ (keywords ++ behind))) (hbrace : '{' ∉ keywords)
    (hstart : byteLength before ≤ o.span.start) :
    byteLength before + byteLength keywords ≤ o.span.start := by
  obtain ⟨inside, hslice⟩ := ho.braces
  obtain ⟨front, rest, heq, hfront, -⟩ := slice?_eq_some_iff.mp hslice
  rw [← hfront] at hstart ⊢
  obtain ⟨m, rfl, hinside⟩ := exists_append_of_byteLength_le heq hstart
  rw [byteLength_append]
  by_contra hlt
  have hle : byteLength m ≤ byteLength keywords := by omega
  obtain ⟨k, rfl, hrest⟩ := exists_append_of_byteLength_le hinside.symm hle
  cases k with
  | nil => simp at hlt
  | cons c k =>
      obtain ⟨rfl, -⟩ := List.cons.inj hrest
      exact hbrace (by simp)

/-- The keywords of a default export can be removed, and what is apart from the export or is an
object that begins in it is clear of them. -/
lemma exists_function_keywords {source : Source} {s : Span} {n : Nat}
    (hs : Encloses source.text s []) (hn : keywordsLength? (source.slice s) = some n) :
    Boundary source.text (s.start + n) ∧ s.start + n ≤ s.stop
      ∧ ∀ o : ObjectLiteral, o.Braced source.text → s.start ≤ o.span.start →
        s.start + n ≤ o.span.start := by
  obtain ⟨keywords, rest, hslice, rfl, hbrace⟩ := exists_keywords hn
  obtain ⟨inside, hinside⟩ : ∃ inside, slice? source.text s = some inside :=
    exists_slice? hs.start hs.stop hs.ordered
  rw [Source.slice, hinside, Option.getD_some] at hslice
  subst hslice
  obtain ⟨before, behind, htext, hstart, hstop⟩ := slice?_eq_some_iff.mp hinside
  rw [List.append_assoc] at htext
  rw [htext, ← hstart]
  simp only [byteLength_append] at hstop
  refine ⟨⟨before ++ keywords, rest ++ behind, by simp, by simp⟩, by omega, ?_⟩
  exact fun o ho hle => ho.le_start hbrace hle

/-- The default export may be removed after the other edits. A function without the keywords of a
default export is refused. -/
lemma confined_removeDefaultExport {source : Source} {exported : ComponentExport}
    {objects : List ObjectLiteral} {s : Span} {draft : Draft}
    (h : draft.Confined source.text fun e => e.InObjects objects ∨ e.Inside s)
    (hobjects : ∀ o ∈ objects, o.Braced source.text)
    (hexported : Encloses source.text exported.span []) (hs : s.Apart exported.span)
    (hadmits : ∀ o ∈ objects, exported.Admits o.span) :
    (∃ span, exported = .function span ∧ keywordsLength? (source.slice span) = none
        ∧ removeDefaultExport source exported draft = .error (.unsupportedDefaultExport
          "a default export without `export default` keywords"))
      ∨ ∃ draft', removeDefaultExport source exported draft = .ok draft'
        ∧ draft'.Confined source.text fun e =>
          (e.InObjects objects ∨ e.Inside s) ∨ e.Within (exported.removed source) := by
  cases exported with
  | identifier span =>
      right
      have hwithin := hexported.within (Span.contains_refl span) []
      refine h.overwrite (hexported.fits []) (Or.inr hwithin) (fun _ => Or.inl) fun a ha => ?_
      rcases ha with ha | ha
      · exact ha.not_touches hobjects (fun o ho => Span.Apart.symm (hadmits o ho)) hwithin
      · exact not_touches_of_apart ha hwithin hs
  | function span =>
      cases hn : keywordsLength? (source.slice span) with
      | none => exact Or.inl ⟨span, rfl, hn, by rw [removeDefaultExport, hn]⟩
      | some n =>
          right
          rw [removeDefaultExport, hn]
          obtain ⟨hboundary, hle, hbehind⟩ := exists_function_keywords hexported hn
          have hlt : span.start ≤ span.start + n := Nat.le_add_right _ _
          have hremoved : (ComponentExport.function span).removed source
              = ⟨span.start, span.start + n⟩ := by
            simp [ComponentExport.removed, hn]
          have hwithin : (⟨span.start, span.start + n, []⟩ : Edit).Within
              ((ComponentExport.function span).removed source) := by
            rw [hremoved]
            exact ⟨Nat.le_refl _, hlt, Nat.le_refl _⟩
          have hfits : (⟨span.start, span.start + n, []⟩ : Edit).Fits source.text :=
            ⟨hlt, hboundary.le, hexported.start, hboundary⟩
          refine h.overwrite hfits (Or.inr hwithin) (fun _ => Or.inl) fun a ha => ?_
          rw [hremoved] at hwithin
          rcases ha with ha | ha
          · refine ha.not_touches hobjects (fun o ho => Or.inr ?_) hwithin
            exact hbehind o (hobjects o ho) (hadmits o ho)
          · refine not_touches_of_apart ha hwithin (hs.mono (Span.contains_refl s) ?_)
            exact Span.contains_iff.mpr ⟨Nat.le_refl _, hle⟩

/-! ### The module -/

/-- Stories can be told to some calls of a module, last first. -/
lemma exists_editStories_of_sublist {t : List Char} {found : CompiledStories}
    {pairs : List (StoryPair Story StoryCall)} (hplaced : found.Placed t)
    (hcalls : (pairs.map StoryPair.compiled).Sublist found.stories.reverse)
    (hprops : ∀ pair ∈ pairs, pair.compiled.props?.isSome = true) :
    ∃ edited, editStories (Draft.ofText t) pairs = .ok edited
      ∧ edited.value.Confined t (Edit.InObjects found.props) := by
  have hobjects : (propsOf pairs).Sublist found.props.reverse := by
    rw [propsOf_eq, CompiledStories.props, ← List.filterMap_reverse]
    exact hcalls.filterMap _
  have hmem : ∀ o ∈ propsOf pairs, o ∈ found.props := fun o ho =>
    List.mem_reverse.mp (hobjects.subset ho)
  have hapart : (propsOf pairs).Pairwise fun a b => a.span.Apart b.span := by
    refine List.Pairwise.sublist hobjects ?_
    rw [List.pairwise_reverse]
    exact hplaced.propsApart.imp Span.Apart.symm
  have hnone : (Draft.ofText t).Confined t (Edit.InObjects []) := .ofText t _
  obtain ⟨edited, hedited, hconfined⟩ := confined_editStories hnone
    (fun o ho => hplaced.wellNested_props (hmem o ho)) hapart hprops
  exact ⟨edited, hedited, hconfined.mono fun e ⟨o, ho, hwithin⟩ => ⟨o, hmem o ho, hwithin⟩⟩

/-- The stories of a module are edited in its calls, last first. -/
lemma exists_editStories {t : List Char} {found : CompiledStories} {stories : List Story}
    (hplaced : found.Placed t) (hlength : stories.length = found.stories.length)
    (hprops : ∀ s ∈ found.stories, s.props?.isSome = true) :
    ∃ pairs edited, pairStories stories found.stories = .ok pairs
      ∧ editStories (Draft.ofText t) pairs = .ok edited
      ∧ edited.value.Confined t (Edit.InObjects found.props) := by
  obtain ⟨pairs, hpairs, hcalls⟩ := exists_pairStories hlength
  have hpairProps : ∀ pair ∈ pairs, pair.compiled.props?.isSome = true := by
    intro pair hpair
    refine hprops _ (List.mem_reverse.mp ?_)
    rw [← hcalls]
    exact List.mem_map_of_mem hpair
  obtain ⟨edited, hedited, hconfined⟩ := exists_editStories_of_sublist hplaced
    (hcalls ▸ List.Sublist.refl _) hpairProps
  exact ⟨pairs, edited, hpairs, hedited, hconfined⟩

/-- What the transform may change in a compiled module: the properties of the stories, the
declaration of the meta object and the default export. -/
def CompiledStories.editable (source : Source) (found : CompiledStories) : List Span :=
  found.props.map ObjectLiteral.inner
    ++ [found.metaDeclaration.declaration.span, found.component.exported.removed source]

lemma CompiledStories.exists_editable {source : Source} {found : CompiledStories} {e : Edit}
    (h : (e.InObjects found.props ∨ e.Inside found.metaDeclaration.declaration.span)
      ∨ e.Within (found.component.exported.removed source)) :
    ∃ r ∈ found.editable source, e.Within r := by
  rcases h with (⟨o, ho, hwithin⟩ | hinside) | hwithin
  · exact ⟨o.inner, List.mem_append_left _ (List.mem_map_of_mem ho), hwithin⟩
  · exact ⟨_, by simp [editable], hinside.1⟩
  · exact ⟨_, by simp [editable], hwithin⟩

/-- The edited text, and what is added behind it. -/
lemma Draft.Confined.finish_append {t : List Char} {d : Draft} {confines : Edit → Prop}
    {regions : List Span} (h : d.Confined t confines)
    (hregions : ∀ e, confines e → ∃ r ∈ regions, e.Within r) (text : List Char) :
    ∃ body, (d.append text).finish = body ++ text ∧ DiffersOnlyIn regions 0 t body := by
  refine ⟨applyEdits d.edits 0 t, ?_, ?_⟩
  · simp only [Draft.finish, Draft.append, h.holds.unedited, h.holds.appended, List.nil_append]
  · exact differsOnlyIn_applyEdits h.holds.fitsBehind fun e he => hregions e (h.confined e he)

/-- If a compiled module is well-nested and all its story calls have properties, the transform is
refused no edit, whatever the stories are; at most the default export has an unexpected form. It
changes the properties of the stories, the declaration of the meta object and the default export,
and nothing else, and adds the export surface. -/
theorem withStories_spec {m : CompiledModule} {found : CompiledStories} {stories : List Story}
    (hm : m.items.WellNested m.source.text) (hfound : m.stories = .ok found)
    (hlength : stories.length = found.stories.length)
    (hprops : ∀ s ∈ found.stories, s.props?.isSome = true)
    (additions : ParameterAdditions) (runtimeModule : String) :
    (∃ span, found.component.exported = .function span
        ∧ keywordsLength? (m.source.slice span) = none
        ∧ m.withStories found stories additions runtimeModule
          = .error (.unsupportedDefaultExport "a default export without `export default` keywords"))
      ∨ ∃ out body metaName, m.withStories found stories additions runtimeModule = .ok out
        ∧ out.value = body ++ (⟨runtimeModule, found.component.name, metaName,
            stories.map fun s => s.attributes.names.exportName⟩ : ExportSurface).text
        ∧ DiffersOnlyIn (found.editable m.source) 0 m.source.text body := by
  have hplaced := CompiledModule.placed_of_stories hm hfound
  obtain ⟨-, -, -, -, hbinding⟩ := CompiledModule.stories_eq_ok hfound
  have hbraced : ∀ o ∈ found.props, o.Braced m.source.text := fun o ho =>
    (hplaced.wellNested_props ho).braced
  obtain ⟨pairs, edited, hpairs, hedited, hconfined⟩ :=
    exists_editStories hplaced hlength hprops
  obtain ⟨declared, hdeclared, hconfined⟩ := exists_edit hplaced hbinding hconfined hbraced
    (fun o ho => hplaced.props_apart_declaration ho) additions
  rw [CompiledModule.withStories, hpairs, ok_bind, hedited, ok_bind, hdeclared, ok_bind]
  rcases confined_removeDefaultExport hconfined hbraced hplaced.exported hplaced.exportApart
    (fun o ho => hplaced.exportAdmits_props ho) with
    ⟨span, hspan, hkeywords, hfailed⟩ | ⟨draft, hdraft, hconfined⟩
  · left
    rw [hfailed]
    exact ⟨span, hspan, hkeywords, rfl⟩
  · right
    rw [hdraft]
    obtain ⟨body, hbody, hdiffers⟩ :=
      hconfined.finish_append (fun e he => CompiledStories.exists_editable he) _
    exact ⟨_, body, _, rfl, hbody, hdiffers⟩

/-- The import of the function that defines the meta of stories files. -/
def metaImport : List Char :=
  "import \x7b defineMeta \x7d ".toList ++ "from '@storybook/".toList ++ "addon-svelte-csf';\n".toList

/-- A compiled module with the given statements in the function of the component. -/
def moduleOf (statements : List Char) : List Char :=
  metaImport ++ "const \x7b Story \x7d ".toList ++ "= defineMeta(\x7b\x7d);\n".toList
    ++ "export default ".toList ++ "function A(a) \x7b ".toList ++ statements ++ " \x7d".toList

/-- A module with two stories, one in a call and one in a statement of a checked call. -/
def checkedModule : List Char :=
  moduleOf ("$.push(a, false); ".toList ++ "Story(a, \x7b name: 'A' \x7d); ".toList
    ++ "\x7b if (a) ".toList ++ "$.validate_component(Story)".toList
    ++ "(a, \x7b name: 'B' \x7d); \x7d".toList)

/-- A story of a name, without a description. -/
def plainStory (name : String) : Story :=
  ⟨⟨⟨⟨0, 9⟩, .component, "Story".toList, [], ⟨⟨9, 9⟩, []⟩, true⟩, none⟩,
    ⟨⟨name, name⟩, none, none⟩, "<A />".toList, none⟩

theorem checkedModule_withStories :
    ∃ m found, CompiledModule.parse "A.js" checkedModule = .ok m ∧ m.stories = .ok found
      ∧ found.stories.map (·.isStatement) = [false, true]
      ∧ m.items.WellNested m.source.text
      ∧ [plainStory "A", plainStory "B"].length = found.stories.length
      ∧ (∀ s ∈ found.stories, s.props?.isSome = true)
      ∧ ∃ out body metaName,
        m.withStories found [plainStory "A", plainStory "B"] ⟨none, none⟩ "runtime" = .ok out
        ∧ out.value = body ++ (⟨"runtime", found.component.name, metaName, ["A", "B"]⟩ :
            ExportSurface).text
        ∧ DiffersOnlyIn (found.editable m.source) 0 m.source.text body := by
  have hcheck : ((CompiledModule.parse "A.js" checkedModule).toOption.any fun m =>
      m.items.isWellNested m.source.text 12 && m.stories.toOption.any fun found =>
        found.stories.map (·.isStatement) = [false, true]
          && found.stories.all (fun s => s.props?.isSome)
          && (m.withStories found [plainStory "A", plainStory "B"] ⟨none, none⟩ "runtime").isOk)
        = true := by
    -- the kernel is faster with characters than with literals
    unfold checkedModule moduleOf metaImport plainStory
    repeat rewrite [String.toList_ofList]
    decide +kernel
  obtain ⟨m, hm, hcheck⟩ := exists_of_toOption_any hcheck
  obtain ⟨hnested, hcheck⟩ := Bool.and_eq_true_iff.mp hcheck
  obtain ⟨found, hfound, hcheck⟩ := exists_of_toOption_any hcheck
  simp only [Bool.and_eq_true, decide_eq_true_eq, List.all_eq_true] at hcheck
  obtain ⟨⟨hforms, hprops⟩, hok⟩ := hcheck
  have hnested := Program.wellNested_of_isWellNested hnested
  have hlength : [plainStory "A", plainStory "B"].length = found.stories.length := by
    simpa using (congrArg List.length hforms).symm
  refine ⟨m, found, hm, hfound, hforms, hnested, hlength, hprops, ?_⟩
  rcases withStories_spec hnested hfound hlength hprops ⟨none, none⟩ "runtime" with
    ⟨_, _, _, hfailed⟩ | hspec
  · rw [hfailed] at hok
    exact absurd hok (by decide)
  · exact hspec

end SvelteStories
