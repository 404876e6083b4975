/-
The edits of the transform, in terms of what it reads:

* `ParameterAdditions.editsAlone`: the edits that additions to the parameters of an object ask for,
  which do not depend on the edits before (`Draft.Holds.editOwner`);
* `CompiledDeclaration.emitted`, `CompiledDeclaration.edits`: the meta declaration of the stories
  module, and the edits that put it there;
* `CompiledStories.edits`: all edits, those of the stories paired by position;
* `CompiledModule.Becomes`: what the transform made of a module, in these terms;
* `ReadsInputs`, `readInputs`: what the transform reads before it edits anything;
* `storiesModule_eq_ok`: a transform that succeeds has read all that, and has made this of it.
-/
import SvelteStories.Proofs.Edit.Finish
import SvelteStories.Proofs.Story.Comments
import SvelteStories.Proofs.Transform.StoriesModule

namespace SvelteStories

open Script

/-! ### Accepted edits -/

/-- A draft that nothing has been done to accepts every edit that fits the text. -/
lemma Draft.overwrite_ofText {t : List Char} {e : Edit} (h : e.Fits t) :
    (Draft.ofText t).overwrite e.start e.stop e.text = .ok ⟨t, [e], []⟩ :=
  Draft.overwrite_of_clear (by simp [Draft.ofText]) h (by simp [Draft.ofText])

/-! ### Additions -/

/-- The edits that additions to the parameters of an object ask for in a text, told from a draft that
nothing else has been done to. -/
def ParameterAdditions.editsAlone (p : ParameterAdditions) (t : List Char) (o : ObjectLiteral) :
    List Edit :=
  match (p.editOwner (Draft.ofText t) o).value with
  | .ok d => d.edits
  | .error _ => []

/-- A further property asks a draft for one edit, which does not depend on the edits before. -/
lemma appendProperty_asks (t : List Char) (o : ObjectLiteral) (text : List Char) :
    ∃ e : Edit, ∀ d : Draft, d.unedited = t →
      appendProperty d o text = d.overwrite e.start e.stop e.text := by
  let atEnd : Edit := ⟨o.span.stop - 1, o.span.stop - 1, ' ' :: text ++ [' ']⟩
  simp only [appendProperty]
  cases o.properties.getLast? with
  | none => exact ⟨atEnd, fun d _ => rfl⟩
  | some last =>
      cases hcomma : hasComma .blank ((slice? t ⟨last.span.stop, o.span.stop - 1⟩).getD []) with
      | true =>
          refine ⟨atEnd, fun d hd => ?_⟩
          dsimp only
          rw [hd, hcomma]
          rfl
      | false =>
          refine ⟨⟨last.span.stop, last.span.stop, ',' :: ' ' :: text⟩, fun d hd => ?_⟩
          dsimp only
          rw [hd, hcomma]
          rfl

/-- Additions ask a draft for nothing, or for one edit that does not depend on the edits before. -/
lemma editOwner_asks (p : ParameterAdditions) (t : List Char) (o : ObjectLiteral) :
    (∀ d : Draft, (p.editOwner d o).value = .ok d)
      ∨ ∃ e : Edit, ∀ d : Draft, d.unedited = t →
        (p.editOwner d o).value = d.overwrite e.start e.stop e.text := by
  simp only [ParameterAdditions.editOwner]
  cases p.isEmpty with
  | true => exact Or.inl fun d => rfl
  | false =>
      simp only [Bool.false_eq_true, if_false]
      cases splitLast? (fun q : Property => q.isNamed parametersKey) o.properties with
      | none => exact Or.inr (appendProperty_asks t o _)
      | some parts =>
          obtain ⟨-, property, -⟩ := parts
          dsimp only
          cases ParameterAdditions.base? property with
          | none => exact Or.inl fun d => rfl
          | some base =>
              cases property with
              | keyValue key value => exact Or.inr ⟨⟨_, _, _⟩, fun d _ => rfl⟩
              | _ => exact Or.inr ⟨⟨_, _, _⟩, fun d _ => rfl⟩

/-- A draft that has accepted additions holds the edits that they ask for alone. -/
lemma Draft.Holds.editOwner {t : List Char} {accepted : List Edit} {appended : List Char}
    {d d' : Draft} (h : d.Holds t accepted appended) {p : ParameterAdditions} {o : ObjectLiteral}
    (hok : (p.editOwner d o).value = .ok d') :
    d'.Holds t (accepted ++ p.editsAlone t o) appended := by
  rw [ParameterAdditions.editsAlone]
  rcases editOwner_asks p t o with hnothing | ⟨e, he⟩
  · rw [hnothing] at hok ⊢
    obtain rfl := Except.ok.inj hok
    simpa [Draft.ofText] using h
  · rw [he d h.unedited] at hok
    obtain ⟨hfits, hholds⟩ := h.of_overwrite hok
    rw [he (Draft.ofText t) rfl, Draft.overwrite_ofText hfits]
    exact hholds

/-! ### Stories -/

/-- The edits that tell a story call about a story. -/
def Story.editsIn (t : List Char) (s : Story) (c : StoryCall) : List Edit :=
  match c.props? with
  | some o => s.additions.editsAlone t o
  | none => []

lemma exists_props_of_editStory {draft : Draft} {pair : StoryPair Story StoryCall}
    {edited : Noted Draft} (h : editStory draft pair = .ok edited) :
    ∃ o, pair.compiled.props? = some o
      ∧ (pair.source.additions.editOwner draft o).value = .ok edited.value := by
  rw [editStory] at h
  split at h
  · rename_i o ho
    simp only [bind_eq_ok_iff, pure_eq_ok_iff] at h
    obtain ⟨d, hd, rfl⟩ := h
    exact ⟨o, ho, hd⟩
  · exact absurd h throw_ne_ok

/-- A draft that all stories have been told to their calls in holds the edits of each pair. -/
lemma Draft.Holds.editStories {t : List Char} {accepted : List Edit} {appended : List Char}
    {d : Draft} (h : d.Holds t accepted appended) {pairs : List (StoryPair Story StoryCall)}
    {edited : Noted Draft} (hok : editStories d pairs = .ok edited) :
    edited.value.Holds t (accepted ++ pairs.flatMap fun pair => pair.source.editsIn t pair.compiled)
        appended
      ∧ ∀ pair ∈ pairs, pair.compiled.props?.isSome = true := by
  induction pairs generalizing accepted d edited with
  | nil =>
      obtain rfl := Except.ok.inj hok
      simpa using h
  | cons pair pairs ih =>
      rw [SvelteStories.editStories] at hok
      simp only [bind_eq_ok_iff, pure_eq_ok_iff] at hok
      obtain ⟨first, hfirst, all, hall, rfl⟩ := hok
      obtain ⟨o, ho, hedit⟩ := exists_props_of_editStory hfirst
      obtain ⟨hholds, hprops⟩ := ih (h.editOwner hedit) hall
      have hpair : pair.source.editsIn t pair.compiled = pair.source.additions.editsAlone t o := by
        rw [Story.editsIn, ho]
      refine ⟨?_, List.forall_mem_cons.mpr ⟨by simp [ho], hprops⟩⟩
      rw [List.flatMap_cons, hpair, ← List.append_assoc]
      exact hholds

/-- The pairs are those of equal position. -/
lemma map_pairFrom {α β : Type} (n : Nat) (tags : List α) (calls : List β) :
    (pairFrom n tags calls).map (fun pair => (pair.source, pair.compiled)) = tags.zip calls := by
  induction tags generalizing n calls with
  | nil => simp [pairFrom]
  | cons tag tags ih =>
      cases calls with
      | nil => simp [pairFrom]
      | cons call calls => simp [pairFrom, ih]

/-- Whatever is made of the pairs, it comes from the elements of equal position. -/
lemma flatMap_pairFrom_perm {α β γ : Type} (f : α → β → List γ) (tags : List α) (calls : List β) :
    ((pairFrom 0 tags calls).reverse.flatMap fun pair => f pair.source pair.compiled).Perm
      ((tags.zip calls).flatMap fun pair => f pair.1 pair.2) := by
  rw [← map_pairFrom 0 tags calls, List.flatMap_map]
  exact (List.reverse_perm _).flatMap_right _

/-! ### The meta declaration -/

namespace CompiledDeclaration

/-- The meta declaration of the stories module: it binds the meta object, and its argument has the
additions. -/
def emitted (m : CompiledDeclaration) (bound : MetaBinding) (additions : ParameterAdditions) :
    VariableDeclaration :=
  m.declaration.changeAt m.pattern.span fun v =>
    (v.withPattern bound.pattern).withArgument (additions.addToOwner m.argument).value

/-- The edits that make the meta declaration that of the stories module: the additions in the argument
if the declaration binds the meta object, and otherwise the declaration as a whole. -/
def edits (m : CompiledDeclaration) (bound : MetaBinding) (additions : ParameterAdditions)
    (t : List Char) : List Edit :=
  if bound.isNew then
    let span := m.declaration.span
    let replaced := trimEnd ((slice? t span).getD [])
    let ending := if replaced.getLast? = some ';' then [';'] else []
    [⟨span.start, span.stop, (m.emitted bound additions).text ++ ending⟩]
  else additions.editsAlone t m.argument

end CompiledDeclaration

/-- A draft that the meta declaration has been edited in holds the edits for it. -/
lemma Draft.Holds.editDeclaration {t : List Char} {accepted : List Edit} {appended : List Char}
    {d : Draft} (h : d.Holds t accepted appended) {m : CompiledDeclaration}
    {additions : ParameterAdditions} {declared : Noted MetaDraft}
    (hok : m.edit additions d = .ok declared) :
    ∃ bound, m.pattern.bindMeta = .ok bound ∧ declared.value.name = bound.name
      ∧ declared.value.draft.Holds t (accepted ++ m.edits bound additions t) appended := by
  rw [CompiledDeclaration.edit] at hok
  obtain ⟨bound, hbound, hok⟩ := bind_eq_ok_iff.mp hok
  refine ⟨bound, hbound, ?_⟩
  rw [CompiledDeclaration.edits]
  cases hnew : bound.isNew with
  | true =>
      simp only [hnew, if_true, bind_eq_ok_iff, pure_eq_ok_iff] at hok ⊢
      obtain ⟨draft, hdraft, rfl⟩ := hok
      rw [reprintDeclaration, h.unedited] at hdraft
      exact ⟨rfl, (h.of_overwrite hdraft).2⟩
  | false =>
      simp only [hnew, Bool.false_eq_true, if_false, bind_eq_ok_iff, pure_eq_ok_iff] at hok ⊢
      obtain ⟨draft, hdraft, rfl⟩ := hok
      exact ⟨rfl, h.editOwner hdraft⟩

/-! ### The default export -/

/-- The edit that removes the default export, or the keywords before a function. -/
def ComponentExport.removal (source : Source) (exported : ComponentExport) : Edit :=
  ⟨(exported.removed source).start, (exported.removed source).stop, []⟩

lemma Draft.Holds.removeDefaultExport {source : Source} {accepted : List Edit}
    {appended : List Char} {d d' : Draft} {exported : ComponentExport}
    (h : d.Holds source.text accepted appended)
    (hok : removeDefaultExport source exported d = .ok d') :
    d'.Holds source.text (accepted ++ [exported.removal source]) appended := by
  rw [SvelteStories.removeDefaultExport.eq_def] at hok
  split at hok
  · exact (h.of_overwrite hok).2
  · rename_i span
    split at hok
    · rename_i n hn
      have hremoval : (ComponentExport.function span).removal source
          = ⟨span.start, span.start + n, []⟩ := by
        simp [ComponentExport.removal, ComponentExport.removed, hn]
      rw [hremoval]
      exact (h.of_overwrite hok).2
    · cases hok

/-! ### The module -/

/-- The edits that make a compiled module one of stories. The story at a position is told to the call
at that position. -/
def CompiledStories.edits (source : Source) (found : CompiledStories) (stories : List Story)
    (bound : MetaBinding) (additions : ParameterAdditions) : List Edit :=
  ((stories.zip found.stories).flatMap fun pair => pair.1.editsIn source.text pair.2)
    ++ found.metaDeclaration.edits bound additions source.text
    ++ [found.component.exported.removal source]

/-- The export surface of the stories module. -/
def CompiledStories.surface (found : CompiledStories) (stories : List Story) (bound : MetaBinding)
    (runtimeModule : String) : ExportSurface :=
  ⟨runtimeModule, found.component.name, bound.name,
    stories.map fun s => s.attributes.names.exportName⟩

/-- What the transform makes of a compiled module, given the binding of the meta object. -/
structure CompiledModule.Becomes (m : CompiledModule) (found : CompiledStories)
    (stories : List Story) (additions : ParameterAdditions) (runtimeModule : String)
    (bound : MetaBinding) (out : List Char) : Prop where
  /-- There are as many calls as stories. -/
  length_eq : stories.length = found.stories.length
  /-- All calls have properties. -/
  props : ∀ c ∈ found.stories, c.props?.isSome = true
  /-- The meta object is bound. -/
  binding : found.metaDeclaration.pattern.bindMeta = .ok bound
  /-- The edits fit the module. -/
  fits : ∀ e ∈ found.edits m.source stories bound additions, e.Fits m.source.text
  /-- They do not touch one another. -/
  apart : (found.edits m.source stories bound additions).Pairwise fun a b => ¬ a.Touches b
  /-- The text is the edited one, with the export surface behind it. -/
  text : out = edited (found.edits m.source stories bound additions) 0 m.source.text
    ++ (found.surface stories bound runtimeModule).text

/-- The transform makes nothing else of a module. -/
theorem becomes_of_withStories {m : CompiledModule} {found : CompiledStories}
    {stories : List Story} {additions : ParameterAdditions} {runtimeModule : String}
    {out : Noted (List Char)}
    (h : m.withStories found stories additions runtimeModule = .ok out) :
    ∃ bound, m.Becomes found stories additions runtimeModule bound out.value := by
  rw [CompiledModule.withStories] at h
  simp only [bind_eq_ok_iff, pure_eq_ok_iff] at h
  obtain ⟨pairs, hpairs, told, htold, declared, hdeclared, draft, hdraft, rfl⟩ := h
  rw [pairStories] at hpairs
  split_ifs at hpairs with hlength
  obtain rfl := Except.ok.inj hpairs
  obtain ⟨hholds, hprops⟩ := (Draft.Holds.ofText m.source.text).editStories htold
  obtain ⟨bound, hbound, hname, hholds⟩ := hholds.editDeclaration hdeclared
  have hholds := hholds.removeDefaultExport hdraft
  have hperm := (flatMap_pairFrom_perm (Story.editsIn m.source.text) stories
    found.stories).append_right (found.metaDeclaration.edits bound additions m.source.text)
  have hholds := (hholds.perm (hperm.append_right _) :
    draft.Holds m.source.text (found.edits m.source stories bound additions) [])
  refine ⟨bound, hlength, fun c hc => ?_, hbound, fun e he => ?_, hholds.pairwise_not_touches, ?_⟩
  · rw [← map_compiled_pairFrom (n := 0) hlength] at hc
    obtain ⟨pair, hpair, rfl⟩ := List.mem_map.mp hc
    exact hprops pair (List.mem_reverse.mpr hpair)
  · exact hholds.fits e (hholds.queue.mem_iff.mpr he)
  · rw [CompiledStories.surface, ← hname, (hholds.append _).finish_eq, List.nil_append]

/-! ### A stories file and its module -/

/-- What the transform reads in a stories file and in the module that it is compiled to. -/
structure ReadsInputs (source : Source) (compiled : List Char) (file : StoriesFile)
    (stories : List Story) (m : CompiledModule) (found : CompiledStories) : Prop where
  /-- The stories file. -/
  readFile : ∃ document, readDocument source = .ok document ∧ readStoriesFile document = .ok file
  /-- Its stories. -/
  readStories : file.readStories = .ok stories
  /-- The compiled module. -/
  parse : CompiledModule.parse source.filename compiled = .ok m
  /-- What the transform needs of it. -/
  readModule : m.stories = .ok found

namespace ReadsInputs

variable {source : Source} {compiled : List Char} {file : StoriesFile} {stories : List Story}
  {m : CompiledModule} {found : CompiledStories}

lemma text_eq (h : ReadsInputs source compiled file stories m found) : m.source.text = compiled := by
  have hparse := h.parse
  unfold CompiledModule.parse at hparse
  dsimp only at hparse
  split at hparse
  · rw [← Except.ok.inj hparse]
  · cases hparse

/-- The stories of the file are in the order of the text. -/
lemma pairwise_start (h : ReadsInputs source compiled file stories m found) :
    file.stories.Pairwise fun x y => x.element.span.start < y.element.span.start := by
  obtain ⟨document, hdocument, hfile⟩ := h.readFile
  exact pairwise_start_stories hdocument hfile

/-- Behind the readers there is only the transform of the module. -/
lemma storiesModule_eq (h : ReadsInputs source compiled file stories m found)
    (options : TransformOptions) :
    storiesModule source compiled options
      = (m.withStories found stories file.additions options.runtimeModule).mapError
        m.source.report := by
  obtain ⟨document, hdocument, hfile⟩ := h.readFile
  have hfound : m.read = .ok found := by
    rw [CompiledModule.read, h.readModule]
    rfl
  rw [storiesModule, hdocument, ok_bind, hfile, ok_bind, h.readStories, ok_bind, h.parse, ok_bind,
    hfound, ok_bind]

end ReadsInputs

/-- What the transform reads, or the first fault in it. -/
def readInputs (source : Source) (compiled : List Char) :
    Except Report ((StoriesFile × List Story) × CompiledModule × CompiledStories) := do
  let file ← readStoriesFile (← readDocument source)
  let stories ← file.readStories
  let m ← CompiledModule.parse source.filename compiled
  return ((file, stories), m, ← m.read)

lemma readInputs_eq_ok_iff {source : Source} {compiled : List Char} {file : StoriesFile}
    {stories : List Story} {m : CompiledModule} {found : CompiledStories} :
    readInputs source compiled = .ok ((file, stories), m, found)
      ↔ ReadsInputs source compiled file stories m found := by
  simp only [readInputs, bind_eq_ok_iff, pure_eq_ok_iff, CompiledModule.read,
    mapError_eq_ok_iff, Prod.mk.injEq]
  constructor
  · rintro ⟨document, hdocument, _, hfile, _, hstories, _, hm, _, hfound, ⟨rfl, rfl⟩, rfl, rfl⟩
    exact ⟨⟨document, hdocument, hfile⟩, hstories, hm, hfound⟩
  · rintro ⟨⟨document, hdocument, hfile⟩, hstories, hm, hfound⟩
    exact ⟨document, hdocument, file, hfile, stories, hstories, m, hm, found, hfound,
      ⟨rfl, rfl⟩, rfl, rfl⟩

/-- Nothing else can be read. -/
lemma ReadsInputs.unique {source : Source} {compiled : List Char} {file file' : StoriesFile}
    {stories stories' : List Story} {m m' : CompiledModule} {found found' : CompiledStories}
    (h : ReadsInputs source compiled file stories m found)
    (h' : ReadsInputs source compiled file' stories' m' found') :
    file = file' ∧ stories = stories' ∧ m = m' ∧ found = found' := by
  have hsame := (readInputs_eq_ok_iff.mpr h).symm.trans (readInputs_eq_ok_iff.mpr h')
  simpa [and_assoc] using Except.ok.inj hsame

/-- What is read can be looked at. -/
lemma exists_readsInputs {source : Source} {compiled : List Char}
    {p : (StoriesFile × List Story) × CompiledModule × CompiledStories → Bool}
    (h : (readInputs source compiled).toOption.any p = true) :
    ∃ file stories m found, ReadsInputs source compiled file stories m found
      ∧ p ((file, stories), m, found) = true := by
  obtain ⟨⟨⟨file, stories⟩, m, found⟩, hread, hp⟩ := exists_of_toOption_any h
  exact ⟨file, stories, m, found, readInputs_eq_ok_iff.mp hread, hp⟩

/-- A transform that succeeds has read all that it needs, and makes nothing else of it. -/
theorem storiesModule_eq_ok {source : Source} {compiled : List Char} {options : TransformOptions}
    {out : Noted (List Char)} (h : storiesModule source compiled options = .ok out) :
    ∃ file stories m found bound, ReadsInputs source compiled file stories m found
      ∧ m.Becomes found stories file.additions options.runtimeModule bound out.value := by
  rw [storiesModule] at h
  simp only [bind_eq_ok_iff, mapError_eq_ok_iff] at h
  obtain ⟨document, hdocument, file, hfile, stories, hstories, m, hm, found, hfound, h⟩ := h
  obtain ⟨bound, hbecomes⟩ := becomes_of_withStories h
  exact ⟨file, stories, m, found, bound,
    ⟨⟨document, hdocument, hfile⟩, hstories, hm, mapError_eq_ok_iff.mp hfound⟩, hbecomes⟩

/-- A stories file with two stories, the first with a comment and with tags. -/
def twoStories : Source :=
  ⟨"A.stories.svelte", "<script module>\n".toList ++ metaImport
    ++ "const \x7b Story \x7d ".toList ++ "= defineMeta(\x7b\x7d);\n".toList ++ "</script>\n".toList
    ++ "<!-- c -->\n".toList ++ "<Story name=\"A\" ".toList ++ "tags=\x7b['t']\x7d />\n".toList
    ++ "<Story name=\"B\" />".toList⟩

/-- The module that the file is compiled to. -/
def twoStoriesModule : List Char :=
  moduleOf ("Story(a, \x7b name: 'A', ".toList ++ "tags: ['t'] \x7d); ".toList
    ++ "Story(a, \x7b name: 'B' \x7d);".toList)

/-- The options of the transform of that file. -/
def plainOptions : TransformOptions := ⟨false, "runtime", false⟩

/-- The file and the module are read, and the transform succeeds. -/
lemma exists_twoStories :
    ∃ file stories m found out, ReadsInputs twoStories twoStoriesModule file stories m found
      ∧ m.items.WellNested twoStoriesModule
      ∧ storiesModule twoStories twoStoriesModule plainOptions = .ok out := by
  have hread : ((readInputs twoStories twoStoriesModule).toOption.any
      fun ((file, stories), m, found) => m.items.isWellNested twoStoriesModule 12
        && (m.withStories found stories file.additions "runtime").toOption.isSome) = true := by
    -- the kernel is faster with characters than with literals
    unfold twoStoriesModule moduleOf twoStories metaImport
    repeat rewrite [String.toList_ofList]
    decide +kernel
  obtain ⟨file, stories, m, found, hreads, hcheck⟩ := exists_readsInputs hread
  obtain ⟨hnested, hsome⟩ := Bool.and_eq_true_iff.mp hcheck
  obtain ⟨out, hout⟩ := Option.isSome_iff_exists.mp hsome
  refine ⟨file, stories, m, found, out, hreads, Program.wellNested_of_isWellNested hnested, ?_⟩
  rw [hreads.storiesModule_eq, plainOptions, mapError_eq_ok_iff]
  exact toOption_eq_some_iff.mp hout

end SvelteStories
