/-
Which story is told to which call:

* `Story.Tells`: what a call is told about a story, and where that is read;
* `filter_edits_within`: in a well-nested module the edits in the properties of a call are those for
  the story at its position;
* `withStories_of_missing`: the fault if calls have no properties is about the last one of them;
* `storiesModule_tells_stories`: all of this for a stories file and the module it is compiled to.
-/
import SvelteStories.Proofs.Story.ReadOff
import SvelteStories.Proofs.Transform.Edits

namespace SvelteStories

open Script

/-! ### What a call is told -/

/-- What a call is told about a story: the code of the story's tag, the tags if the tag has the
attribute, and a description if a comment is attached to the tag. -/
structure Story.Tells (f : StoriesFile) (tag : StoryTag) (s : Story) : Prop
    extends Story.ReadOff f tag s where
  /-- The code, and the tags if there are any. -/
  internal : s.additions.internal = some (.object (objectOf
    (entry "rawCode" (stringExpr (String.ofList s.rawCode))
      :: (s.attributes.tags.map fun tags => entry "tags" (stringsExpr tags)).toList)))
  /-- There are if the tag has the attribute. -/
  tags : s.attributes.tags.isSome = (tag.element.attribute? "tags").isSome
  /-- The description, if there is any. -/
  description_eq : s.additions.description = s.description.map fun text =>
    (.story, String.ofList text)
  /-- There is none without a comment. -/
  comment : s.description.isSome = true → tag.comment.isSome = true

lemma Story.ReadOff.tells {f : StoriesFile} {tag : StoryTag} {s : Story} (h : s.ReadOff f tag) :
    s.Tells f tag := by
  refine ⟨h, ?_, h.isSome_tags, rfl, h.isSome_comment⟩
  rw [Story.additions, Story.internalParameter]
  cases s.attributes.tags <;> rfl

/-! ### Where it is told -/

/-- The edits for additions to an object stand between its braces. -/
lemma within_of_mem_editsAlone {t : List Char} {p : ParameterAdditions} {o : ObjectLiteral}
    {e : Edit} (ho : (Tree.expr (.object o)).WellNested t) (he : e ∈ p.editsAlone t o) :
    e.Within o.inner := by
  rw [ParameterAdditions.editsAlone] at he
  rcases editOwner_cases ho p (Draft.ofText t) with hnothing | ⟨a, hfits, hwithin, hedit⟩
  · rw [hnothing] at he
    simp [Draft.ofText] at he
  · rw [hedit, Draft.overwrite_ofText hfits] at he
    rw [List.mem_singleton.mp he]
    exact hwithin

/-- The edits for a story stand between the braces of the properties that its call has. -/
lemma within_of_mem_editsIn {t : List Char} {s : Story} {c : StoryCall} {e : Edit}
    (hc : (Tree.expr (.call c.call)).WellNested t) (he : e ∈ s.editsIn t c) :
    ∃ o, c.props? = some o ∧ e.Within o.inner := by
  rw [Story.editsIn] at he
  split at he
  · rename_i o ho
    exact ⟨o, ho, within_of_mem_editsAlone (StoryCall.within_props hc ho).wellNested he⟩
  · simp at he

instance (e : Edit) (s : Span) : Decidable (e.Within s) := by
  unfold Edit.Within
  infer_instance

/-- An edit of a range that has no byte in common with an object is none between its braces. -/
lemma not_within_inner_of_apart {t : List Char} {o : ObjectLiteral} {e : Edit} {s : Span}
    (ho : o.Braced t) (he : e.Within s) (hapart : o.span.Apart s) : ¬ e.Within o.inner := by
  have hinner := ho.contains_inner
  rw [Edit.Within] at he ⊢
  rw [Span.Apart] at hapart
  omega

/-- The edits of the meta declaration stand in it. -/
lemma within_of_mem_declaration_edits {t : List Char} {found : CompiledStories}
    {bound : MetaBinding} {additions : ParameterAdditions} {e : Edit} (hplaced : found.Placed t)
    (he : e ∈ found.metaDeclaration.edits bound additions t) :
    e.Within found.metaDeclaration.declaration.span := by
  rw [CompiledDeclaration.edits] at he
  split at he
  · rw [List.mem_singleton.mp he]
    exact hplaced.declaration.encloses.within (Span.contains_refl _) _
  · have hwithin := within_of_mem_editsAlone hplaced.argument.wellNested he
    exact (hwithin.inside_of_inner hplaced.argument.wellNested.braced).1.mono
      hplaced.argument.inside

/-- The removal of the default export leaves the inside of an object alone that the export admits. -/
lemma removal_not_within_inner {source : Source} {exported : ComponentExport} {o : ObjectLiteral}
    (ho : o.Braced source.text) (hexported : Encloses source.text exported.span [])
    (hadmits : exported.Admits o.span) : ¬ (exported.removal source).Within o.inner := by
  have hinner := ho.contains_inner
  cases exported with
  | identifier span =>
      have hwithin := hexported.within (Span.contains_refl _) []
      exact not_within_inner_of_apart ho hwithin (Span.Apart.symm hadmits)
  | function span =>
      -- it begins where the export begins, which is not behind the opening brace
      intro h
      have hstart : span.start ≤ o.span.start := hadmits
      have hwithin : o.inner.start ≤ span.start := h.1
      omega

/-- In a well-nested module the edits in the properties of a call are those for the story at its
position, and no others. -/
lemma filter_edits_within {m : CompiledModule} {found : CompiledStories} {stories : List Story}
    {bound : MetaBinding} {additions : ParameterAdditions} (hplaced : found.Placed m.source.text)
    (hlength : stories.length = found.stories.length) {s : Story} {c : StoryCall}
    (hpair : (s, c) ∈ stories.zip found.stories) {o : ObjectLiteral} (ho : c.props? = some o) :
    (found.edits m.source stories bound additions).filter (fun e => e.Within o.inner)
      = s.additions.editsAlone m.source.text o := by
  have hnested : ∀ pair ∈ stories.zip found.stories,
      (Tree.expr (.call pair.2.call)).WellNested m.source.text := fun pair h =>
    hplaced.calls pair.2 (List.of_mem_zip h).2
  have hprops : o ∈ found.props := List.mem_filterMap.mpr ⟨c, (List.of_mem_zip hpair).2, ho⟩
  have hobject := hplaced.wellNested_props hprops
  have hinside := StoryCall.within_props (hnested _ hpair) ho
  -- what is told to another call stands in that call
  have hother : ∀ pair ∈ stories.zip found.stories, c.call.span.Apart pair.2.call.span →
      (pair.1.editsIn m.source.text pair.2).filter (fun e => e.Within o.inner) = [] := by
    intro pair hmem hapart
    refine List.filter_eq_nil_iff.mpr fun e he => ?_
    obtain ⟨o', ho', hwithin⟩ := within_of_mem_editsIn (hnested pair hmem) he
    have hinside' := StoryCall.within_props (hnested pair hmem) ho'
    have hspan := (hwithin.inside_of_inner hinside'.wellNested.braced).1
    rw [decide_eq_true_eq]
    exact not_within_inner_of_apart hobject.braced hspan
      (hapart.mono hinside.inside hinside'.inside)
  have hapart : (stories.zip found.stories).Pairwise fun p q =>
      p.2.call.span.Apart q.2.call.span := by
    have hcalls := hplaced.callsApart
    have hzip : (stories.zip found.stories).map Prod.snd = found.stories :=
      List.map_snd_zip (Nat.le_of_eq hlength.symm)
    rw [← hzip, List.pairwise_map] at hcalls
    exact hcalls
  have hstories : ((stories.zip found.stories).flatMap fun pair =>
      pair.1.editsIn m.source.text pair.2).filter (fun e => e.Within o.inner)
        = s.additions.editsAlone m.source.text o := by
    obtain ⟨before, behind, hsplit⟩ := List.append_of_mem hpair
    rw [hsplit] at hapart hother ⊢
    obtain ⟨-, hright, hcross⟩ := List.pairwise_append.mp hapart
    have hown : (s.editsIn m.source.text c).filter (fun e => e.Within o.inner)
        = s.additions.editsAlone m.source.text o := by
      rw [Story.editsIn, ho]
      refine List.filter_eq_self.mpr fun e he => ?_
      rw [decide_eq_true_eq]
      exact within_of_mem_editsAlone hobject he
    have hbefore : before.flatMap (fun pair => (pair.1.editsIn m.source.text pair.2).filter
        fun e => e.Within o.inner) = [] := List.flatMap_eq_nil_iff.mpr fun pair hmem =>
      hother pair (by simp [hmem]) (hcross pair hmem _ List.mem_cons_self).symm
    have hbehind : behind.flatMap (fun pair => (pair.1.editsIn m.source.text pair.2).filter
        fun e => e.Within o.inner) = [] := List.flatMap_eq_nil_iff.mpr fun pair hmem =>
      hother pair (by simp [hmem]) ((List.pairwise_cons.mp hright).1 pair hmem)
    rw [List.filter_flatMap, List.flatMap_append, List.flatMap_cons, hbefore, hown, hbehind,
      List.nil_append, List.append_nil]
  have hdeclaration : (found.metaDeclaration.edits bound additions m.source.text).filter
      (fun e => e.Within o.inner) = [] := by
    refine List.filter_eq_nil_iff.mpr fun e he => ?_
    rw [decide_eq_true_eq]
    exact not_within_inner_of_apart hobject.braced (within_of_mem_declaration_edits hplaced he)
      (hplaced.props_apart_declaration hprops)
  have hremoval : [found.component.exported.removal m.source].filter (fun e => e.Within o.inner)
      = [] := by
    refine List.filter_eq_nil_iff.mpr fun e he => ?_
    rw [List.mem_singleton.mp he, decide_eq_true_eq]
    exact removal_not_within_inner hobject.braced hplaced.exported (hplaced.exportAdmits_props hprops)
  rw [CompiledStories.edits, List.filter_append, List.filter_append, hstories, hdeclaration, hremoval,
    List.append_nil, List.append_nil]

/-! ### Calls without properties -/

/-- The pairs behind a position, last first. -/
def pairsBehind (k : Nat) (stories : List Story) (calls : List StoryCall) :
    List (StoryPair Story StoryCall) :=
  (pairFrom (k + 1) (stories.drop (k + 1)) (calls.drop (k + 1))).reverse

/-- The pair at a position, between the pairs before it and behind it. -/
lemma pairFrom_split {n k : Nat} {stories : List Story} {calls : List StoryCall} {c : StoryCall}
    (hlength : stories.length = calls.length) (hc : calls[k]? = some c) :
    ∃ s, pairFrom n stories calls = pairFrom n (stories.take k) (calls.take k)
      ++ ⟨n + k, s, c⟩ :: pairFrom (n + k + 1) (stories.drop (k + 1)) (calls.drop (k + 1)) := by
  induction k generalizing n stories calls with
  | zero =>
      cases stories with
      | nil => simp [List.length_eq_zero_iff.mp hlength.symm] at hc
      | cons s stories =>
          cases calls with
          | nil => simp at hc
          | cons c' calls =>
              obtain rfl : c' = c := by simpa using hc
              exact ⟨s, by simp [pairFrom]⟩
  | succ k ih =>
      cases stories with
      | nil => simp [List.length_eq_zero_iff.mp hlength.symm] at hc
      | cons s stories =>
          cases calls with
          | nil => simp at hc
          | cons c' calls =>
              obtain ⟨s', hsplit⟩ := ih (n := n + 1) (by simpa using hlength) (by simpa using hc)
              have hindex : n + 1 + k = n + (k + 1) := by omega
              exact ⟨s', by simp [pairFrom, hsplit, hindex]⟩

/-- The stories are told one after the other, up to the first that cannot be told. -/
lemma editStories_append_of_error {draft : Draft} {done rest : List (StoryPair Story StoryCall)}
    {pair : StoryPair Story StoryCall} {edited : Noted Draft} {f : Fault}
    (hdone : editStories draft done = .ok edited)
    (hpair : editStory edited.value pair = .error f) :
    editStories draft (done ++ pair :: rest) = .error f := by
  induction done generalizing draft edited with
  | nil =>
      obtain rfl := Except.ok.inj hdone
      rw [List.nil_append, editStories, hpair]
      rfl
  | cons first done ih =>
      rw [editStories] at hdone
      simp only [bind_eq_ok_iff, pure_eq_ok_iff] at hdone
      obtain ⟨one, hone, all, hall, rfl⟩ := hdone
      rw [List.cons_append, editStories, hone, ok_bind, ih hall hpair]
      rfl

/-- If calls have no properties, and the stories behind the last of these can be told, that one is
reported. -/
theorem withStories_of_missing {m : CompiledModule} {found : CompiledStories}
    {stories : List Story} {k : Nat} {c : StoryCall}
    (hlength : stories.length = found.stories.length) (hc : found.stories[k]? = some c)
    (hmissing : c.props? = none)
    (hbehind : ∃ edited, editStories (Draft.ofText m.source.text)
      (pairsBehind k stories found.stories) = .ok edited)
    (additions : ParameterAdditions) (runtimeModule : String) :
    m.withStories found stories additions runtimeModule = .error (.missingStoryProps k) := by
  obtain ⟨edited, hedited⟩ := hbehind
  obtain ⟨s, hsplit⟩ := pairFrom_split (n := 0) hlength hc
  have hpairs : pairStories stories found.stories = .ok (pairsBehind k stories found.stories
      ++ ⟨k, s, c⟩ :: (pairFrom 0 (stories.take k) (found.stories.take k)).reverse) := by
    rw [pairStories, if_pos hlength, hsplit]
    simp [pairsBehind]
  have hpair : editStory edited.value ⟨k, s, c⟩ = .error (.missingStoryProps k) := by
    rw [editStory, hmissing]
    rfl
  rw [CompiledModule.withStories, hpairs, ok_bind, editStories_append_of_error hedited hpair]
  rfl

/-- In a well-nested module the stories behind the last call without properties can be told. -/
lemma exists_editStories_behind {m : CompiledModule} {found : CompiledStories}
    {stories : List Story} {k : Nat} (hplaced : found.Placed m.source.text)
    (hlength : stories.length = found.stories.length)
    (hprops : ∀ j c, k < j → found.stories[j]? = some c → c.props?.isSome = true) :
    ∃ edited, editStories (Draft.ofText m.source.text) (pairsBehind k stories found.stories)
      = .ok edited := by
  have hcompiled : (pairsBehind k stories found.stories).map StoryPair.compiled
      = (found.stories.drop (k + 1)).reverse := by
    rw [pairsBehind, List.map_reverse, map_compiled_pairFrom (by simp [hlength])]
  have hcalls : ∀ pair ∈ pairsBehind k stories found.stories,
      pair.compiled.props?.isSome = true := by
    intro pair hpair
    have hmem := List.mem_map_of_mem (f := StoryPair.compiled) hpair
    rw [hcompiled, List.mem_reverse] at hmem
    obtain ⟨j, hj⟩ := List.mem_iff_getElem?.mp hmem
    rw [List.getElem?_drop] at hj
    exact hprops _ _ (by omega) hj
  obtain ⟨edited, hedited, -⟩ := exists_editStories_of_sublist hplaced
    (hcompiled ▸ (List.drop_sublist _ _).reverse) hcalls
  exact ⟨edited, hedited⟩

/-! ### The transform -/

/-- **Each story is told to the call at its position.** A transform that succeeds has found as many
calls as stories. The edits that it makes in them are those for the stories at the same positions;
the story at each position is that of the tag there, and the tags are in the order of the text. In a
well-nested module a call gets no others.
If the numbers differ, both are reported; if some calls have no properties, and the stories behind
the last of these can be told, as they can in a well-nested module, that one is reported. -/
theorem storiesModule_tells_stories (source : Source) (compiled : List Char)
    (options : TransformOptions) :
    (∀ out, storiesModule source compiled options = .ok out →
      ∃ file stories m found bound, ReadsInputs source compiled file stories m found
        ∧ file.stories.Pairwise (fun x y => x.element.span.start < y.element.span.start)
        ∧ List.Forall₂ (fun tag s => s.Tells file tag) file.stories stories
        ∧ stories.length = found.stories.length
        ∧ (let told := (stories.zip found.stories).flatMap fun pair =>
              pair.1.editsIn compiled pair.2
            let edits := told ++ found.metaDeclaration.edits bound file.additions compiled
              ++ [found.component.exported.removal m.source]
            (∀ e ∈ edits, e.Fits compiled) ∧ edits.Pairwise (fun a b => ¬ a.Touches b)
              ∧ out.value = edited edits 0 compiled
                ++ (found.surface stories bound options.runtimeModule).text
              ∧ ∀ s c, (s, c) ∈ stories.zip found.stories → ∃ o, c.props? = some o
                ∧ (m.items.WellNested compiled →
                  edits.filter (fun e => e.Within o.inner) = s.additions.editsAlone compiled o)))
      ∧ ∀ file stories m found, ReadsInputs source compiled file stories m found →
        (stories.length ≠ found.stories.length →
          storiesModule source compiled options = .error (m.source.report
            (.storyCountMismatch stories.length found.stories.length)))
        ∧ ∀ k c, stories.length = found.stories.length → found.stories[k]? = some c →
          c.props? = none →
          (∀ j c', k < j → found.stories[j]? = some c' → c'.props?.isSome = true) →
          ((∃ edited, editStories (Draft.ofText compiled) (pairsBehind k stories found.stories)
              = .ok edited) ∨ m.items.WellNested compiled) →
          storiesModule source compiled options
            = .error (m.source.report (.missingStoryProps k)) := by
  constructor
  · intro out h
    obtain ⟨file, stories, m, found, bound, hreads, hbecomes⟩ := storiesModule_eq_ok h
    have htext := hreads.text_eq
    have htells : List.Forall₂ (fun tag s => s.Tells file tag) file.stories stories :=
      (readStories_forall₂ hreads.readStories).imp fun _ _ hread => hread.tells
    have hfits := hbecomes.fits
    have hapart := hbecomes.apart
    have hout := hbecomes.text
    rw [CompiledStories.edits, htext] at hfits hapart hout
    refine ⟨file, stories, m, found, bound, hreads, hreads.pairwise_start, htells,
      hbecomes.length_eq, hfits, hapart, hout, fun s c hpair => ?_⟩
    obtain ⟨o, ho⟩ := Option.isSome_iff_exists.mp (hbecomes.props c (List.of_mem_zip hpair).2)
    refine ⟨o, ho, fun hm => ?_⟩
    have hplaced := CompiledModule.placed_of_stories hm hreads.readModule
    rw [← htext] at hplaced ⊢
    exact filter_edits_within hplaced hbecomes.length_eq hpair ho
  · intro file stories m found hreads
    rw [hreads.storiesModule_eq]
    refine ⟨fun hlength => ?_, fun k c hlength hc hmissing hprops hbehind => ?_⟩
    · rw [CompiledModule.withStories, pairStories, if_neg hlength]
      rfl
    · have hbehind : ∃ edited, editStories (Draft.ofText m.source.text)
          (pairsBehind k stories found.stories) = .ok edited := by
        rw [hreads.text_eq]
        refine hbehind.elim id fun hm => ?_
        have hplaced := CompiledModule.placed_of_stories hm hreads.readModule
        rw [← hreads.text_eq] at hplaced ⊢
        exact exists_editStories_behind hplaced hlength hprops
      rw [withStories_of_missing hlength hc hmissing hbehind]
      rfl

/-- A compiled module with one story. -/
def oneStoryModule : List Char :=
  "import \x7b defineMeta \x7d from \"@storybook/addon-svelte-csf\";\n".toList
    ++ "const \x7b Story \x7d = defineMeta(\x7b\x7d);\n".toList
    ++ "export default function A(a) \x7b Story(a, \x7b\x7d); \x7d".toList

/-- A module in which one of the calls has no properties. -/
def barePropsModule : List Char :=
  moduleOf "Story(a, b); Story(a, \x7b name: 'B' \x7d);".toList

theorem twoStories_told :
    (∃ out file stories m found bound,
        storiesModule twoStories twoStoriesModule plainOptions = .ok out
      ∧ ReadsInputs twoStories twoStoriesModule file stories m found
      ∧ List.Forall₂ (fun tag s => s.Tells file tag) file.stories stories
      ∧ m.items.WellNested twoStoriesModule
      ∧ ∀ s c, (s, c) ∈ stories.zip found.stories → ∃ o, c.props? = some o
        ∧ (((stories.zip found.stories).flatMap fun pair => pair.1.editsIn twoStoriesModule pair.2)
            ++ found.metaDeclaration.edits bound file.additions twoStoriesModule
            ++ [found.component.exported.removal m.source]).filter (fun e => e.Within o.inner)
          = s.additions.editsAlone twoStoriesModule o)
      ∧ (∃ file stories m found, ReadsInputs twoStories oneStoryModule file stories m found
        ∧ storiesModule twoStories oneStoryModule plainOptions
          = .error (m.source.report (.storyCountMismatch 2 1)))
      ∧ ∃ file stories m found, ReadsInputs twoStories barePropsModule file stories m found
        ∧ storiesModule twoStories barePropsModule plainOptions
          = .error (m.source.report (.missingStoryProps 0)) := by
  refine ⟨?_, ?_, ?_⟩
  · obtain ⟨_, _, m', _, out, hreads', hnested, hout⟩ := exists_twoStories
    obtain ⟨file, stories, m, found, bound, hreads, -, htells, -, -, -, -, hedits⟩ :=
      (storiesModule_tells_stories twoStories twoStoriesModule plainOptions).1 out hout
    obtain rfl : m' = m := Except.ok.inj (hreads'.parse.symm.trans hreads.parse)
    refine ⟨out, file, stories, m', found, bound, hout, hreads, htells, hnested, fun s c hpair => ?_⟩
    obtain ⟨o, ho, hfilter⟩ := hedits s c hpair
    exact ⟨o, ho, hfilter hnested⟩
  · have hread : ((readInputs twoStories oneStoryModule).toOption.any fun ((_, stories), _, found) =>
        stories.length = 2 && found.stories.length = 1) = true := by
      -- the kernel is faster with characters than with literals
      unfold twoStories oneStoryModule metaImport
      repeat rewrite [String.toList_ofList]
      decide +kernel
    obtain ⟨file, stories, m, found, hreads, hcheck⟩ := exists_readsInputs hread
    simp only [Bool.and_eq_true, decide_eq_true_eq] at hcheck
    have hmismatch := ((storiesModule_tells_stories twoStories oneStoryModule plainOptions).2 file
      stories m found hreads).1 (by omega)
    rw [hcheck.1, hcheck.2] at hmismatch
    exact ⟨file, stories, m, found, hreads, hmismatch⟩
  · have hread : ((readInputs twoStories barePropsModule).toOption.any fun ((_, stories), m, found) =>
        stories.length = 2 && (found.stories.map fun c => c.props?.isSome) = [false, true]
          && m.items.isWellNested barePropsModule 12) = true := by
      unfold twoStories barePropsModule moduleOf metaImport
      repeat rewrite [String.toList_ofList]
      decide +kernel
    obtain ⟨file, stories, m, found, hreads, hcheck⟩ := exists_readsInputs hread
    simp only [Bool.and_eq_true, decide_eq_true_eq] at hcheck
    obtain ⟨⟨hlength, hprops⟩, hnested⟩ := hcheck
    obtain ⟨first, second, hfound⟩ : ∃ first second, found.stories = [first, second] :=
      List.length_eq_two.mp (by simpa using congrArg List.length hprops)
    obtain ⟨hfirst, hsecond⟩ : first.props? = none ∧ second.props?.isSome = true := by
      simpa [hfound] using hprops
    refine ⟨file, stories, m, found, hreads,
      ((storiesModule_tells_stories twoStories barePropsModule plainOptions).2 file stories m found
        hreads).2 0 first (by simp [hlength, hfound]) (by simp [hfound]) hfirst (fun j c hj hc => ?_)
        (Or.inr (Program.wellNested_of_isWellNested hnested))⟩
    -- the only call behind the first has properties
    match j, hj with
    | 1, _ =>
        obtain rfl : second = c := by simpa [hfound] using hc
        exact hsecond
    | j + 2, _ => simp [hfound] at hc

end SvelteStories
