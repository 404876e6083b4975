/-
The file that a report is about:

* `ReportsOn`: an outcome whose report, if it is one, names a file, and the steps that keep this;
* `reportsOn_readDocument`, `reportsOn_readStoriesFile`, `reportsOn_componentInfo`,
  `reportsOn_storiesFrom`: the parts of a file;
* `reportsOn_indexStories`: the index of a file is refused with a report on this file.
-/
import SvelteStories.Proofs.Story.Comments
import SvelteStories.Proofs.Story.Relocated
import SvelteStories.Story.Index

namespace SvelteStories

open Script Markup

variable {ε α β : Type} {name : String}

/-- Whatever an outcome reports, it reports on the file of a name. -/
def ReportsOn (name : String) (x : Except Report α) : Prop :=
  ∀ r, x = .error r → r.filename = name

/-! ### Steps -/

@[simp] lemma reportsOn_ok (a : α) : ReportsOn name (.ok a) := by
  intro r hr
  cases hr

@[simp] lemma reportsOn_pure (a : α) : ReportsOn name (pure a) :=
  reportsOn_ok a

@[simp] lemma reportsOn_error {r : Report} :
    ReportsOn name (.error r : Except Report α) ↔ r.filename = name :=
  ⟨fun h => h r rfl, fun h _ hr => Except.error.inj hr ▸ h⟩

@[simp] lemma reportsOn_throw {r : Report} :
    ReportsOn name (throw r : Except Report α) ↔ r.filename = name :=
  reportsOn_error

lemma ReportsOn.bind {x : Except Report α} {f : α → Except Report β} (hx : ReportsOn name x)
    (hf : ∀ a, x = .ok a → ReportsOn name (f a)) : ReportsOn name (x >>= f) := by
  cases x with
  | error r => exact reportsOn_error.mpr (hx r rfl)
  | ok a => exact hf a rfl

lemma reportsOn_error_bind {r : Report} {f : α → Except Report β} :
    ReportsOn name ((.error r : Except Report α) >>= f) ↔ r.filename = name :=
  reportsOn_error

lemma ReportsOn.map {x : Except Report α} (hx : ReportsOn name x) (f : α → β) :
    ReportsOn name (x.map f) := by
  cases x with
  | error r => exact reportsOn_error.mpr (hx r rfl)
  | ok a => exact reportsOn_ok (f a)

lemma reportsOn_mapError {x : Except ε α} {f : ε → Report} (hf : ∀ e, (f e).filename = name) :
    ReportsOn name (x.mapError f) := by
  cases x with
  | error e => exact reportsOn_error.mpr (hf e)
  | ok a => exact reportsOn_ok a

lemma reportsOn_mapError_reportAt (source : Source) (x : Except Fault α) (offset : Nat) :
    ReportsOn source.filename (x.mapError fun fault => source.reportAt fault offset) :=
  reportsOn_mapError fun _ => rfl

lemma reportsOn_mapM {f : α → Except Report β} (hf : ∀ a, ReportsOn name (f a)) (o : Option α) :
    ReportsOn name (o.mapM f) := by
  cases o with
  | none => exact reportsOn_ok _
  | some a => exact (hf a).map some

lemma reportsOn_foldlM {f : β → α → Except Report β} (hf : ∀ b a, ReportsOn name (f b a))
    (as : List α) (b : β) : ReportsOn name (as.foldlM f b) := by
  induction as generalizing b with
  | nil => exact reportsOn_ok b
  | cons a as ih => exact (hf b a).bind fun b' _ => ih b'

/-! ### The document -/

variable (source : Source)

lemma filename_report (fault : ReadFault) : (fault.report source).filename = source.filename := by
  cases fault <;> rfl

lemma reportsOn_readScript (e : Markup.Element) : ReportsOn source.filename (readScript source e) := by
  unfold readScript
  dsimp only
  split
  · exact reportsOn_ok _
  · exact reportsOn_error.mpr rfl

lemma reportsOn_add (scripts : Scripts) (e : Markup.Element) :
    ReportsOn source.filename (scripts.add source e) := by
  refine (reportsOn_readScript source e).bind fun script _ => ?_
  cases script.role <;> dsimp only <;> split_ifs <;> simp [Source.reportAt]

lemma reportsOn_readDocument : ReportsOn source.filename (readDocument source) := by
  rw [readDocument]
  refine (reportsOn_mapError (filename_report source)).bind fun nodes _ => ?_
  refine (reportsOn_foldlM (reportsOn_add source) _ _).bind fun scripts _ => ?_
  exact reportsOn_ok _

/-! ### What is read in it -/

lemma reportsOn_metaFunction (script : ScriptBlock) :
    ReportsOn source.filename (metaFunction source script) := by
  rw [metaFunction]
  split <;> simp [Source.reportAt]

lemma reportsOn_metaDeclaration (script : ScriptBlock) (name : String) :
    ReportsOn source.filename (metaDeclaration source script name) := by
  rw [metaDeclaration]
  split <;> simp [Source.reportAt]

lemma reportsOn_topSnippets (d : Document) : ReportsOn d.source.filename (topSnippets d) := by
  rw [topSnippets]
  split <;> simp [Source.reportAt]

lemma reportsOn_readStoriesFile (d : Document) :
    ReportsOn d.source.filename (readStoriesFile d) := by
  rw [readStoriesFile]
  split
  · refine (reportsOn_metaFunction _ _).bind fun name _ => ?_
    refine (reportsOn_metaDeclaration _ _ _).bind fun declared _ => ?_
    cases declared.pattern.binding storyKey with
    | missing => exact reportsOn_error_bind.mpr rfl
    | complex => exact reportsOn_error_bind.mpr rfl
    | name storyName =>
        refine (reportsOn_pure _).bind fun storyName _ => ?_
        cases declared.pattern.binding metaKey with
        | missing => exact (reportsOn_topSnippets d).bind fun snippets _ => reportsOn_pure _
        | name metaName => exact (reportsOn_topSnippets d).bind fun snippets _ => reportsOn_pure _
        | complex => exact reportsOn_error_bind.mpr rfl
  · exact reportsOn_throw.mpr rfl

/-! ### Stories and component -/

lemma reportsOn_stringProperty (key : String) (p : Property) :
    ReportsOn source.filename (stringProperty source key p) := by
  rw [stringProperty]
  split <;> simp [Source.reportAt]

lemma reportsOn_stringsProperty (key : String) (p : Property) :
    ReportsOn source.filename (stringsProperty source key p) := by
  rw [stringsProperty]
  split <;> simp [Source.reportAt]

lemma reportsOn_stringAttribute (a : Attribute) :
    ReportsOn source.filename (stringAttribute source a) := by
  rw [stringAttribute]
  split <;> simp [Source.reportAt]

lemma reportsOn_stringsAttribute (a : Attribute) :
    ReportsOn source.filename (stringsAttribute source a) := by
  rw [stringsAttribute]
  split <;> simp [Source.reportAt]

lemma reportsOn_storyAttributes (e : Markup.Element) :
    ReportsOn source.filename (storyAttributes source e) := by
  rw [storyAttributes]
  refine (reportsOn_mapM (reportsOn_stringAttribute source) _).bind fun name _ => ?_
  refine (reportsOn_mapM (reportsOn_stringAttribute source) _).bind fun exportName _ => ?_
  refine (reportsOn_mapError_reportAt _ _ _).bind fun names _ => ?_
  refine (reportsOn_mapM (reportsOn_stringsAttribute source) _).bind fun tags _ => ?_
  exact (reportsOn_mapError_reportAt _ _ _).bind fun template _ => reportsOn_pure _

lemma reportsOn_componentInfo (f : StoriesFile) :
    ReportsOn f.source.filename f.componentInfo := by
  rw [StoriesFile.componentInfo]
  refine (reportsOn_mapM (reportsOn_stringProperty _ _) _).bind fun id _ => ?_
  refine (reportsOn_mapM (reportsOn_stringProperty _ _) _).bind fun title _ => ?_
  exact (reportsOn_mapM (reportsOn_stringsProperty _ _) _).bind fun tags _ => reportsOn_pure _

lemma reportsOn_rawCode (f : StoriesFile) (e : Markup.Element) (a : StoryAttributes) :
    ReportsOn f.source.filename (f.rawCode e a) := by
  refine ReportsOn.map ?_ _
  rw [StoriesFile.rawCodeSpan]
  split
  · exact reportsOn_ok _
  · exact reportsOn_ok _
  · dsimp only
    split <;> simp [Source.reportAt]

lemma reportsOn_storiesFrom (f : StoriesFile) (taken : NameRegistry) (tags : List StoryTag) :
    ReportsOn f.source.filename (f.storiesFrom taken tags) := by
  induction tags generalizing taken with
  | nil => exact reportsOn_ok _
  | cons tag rest ih =>
      rw [StoriesFile.storiesFrom]
      refine (reportsOn_storyAttributes _ _).bind fun attributes _ => ?_
      refine (reportsOn_mapError_reportAt _ _ _).bind fun taken _ => ?_
      refine (reportsOn_rawCode f _ _).bind fun rawCode _ => ?_
      exact (ih taken).bind fun stories _ => reportsOn_pure _

/-! ### The index -/

lemma reportsOn_readIndex : ReportsOn source.filename (readIndex source) := by
  rw [readIndex]
  refine (reportsOn_readDocument source).bind fun document hdocument => ?_
  rw [← source_of_readDocument hdocument]
  refine (reportsOn_readStoriesFile document).bind fun file hfile => ?_
  rw [← (parts_of_readStoriesFile hfile).1]
  refine (reportsOn_componentInfo file).bind fun component _ => ?_
  exact (reportsOn_storiesFrom file [] _).bind fun stories _ => reportsOn_pure _

lemma filename_hintLegacy (r : Report) : r.hintLegacy.filename = r.filename := by
  rw [Report.hintLegacy]
  split_ifs <;> rfl

/-- Where there is no index, the report is on the file. -/
lemma reportsOn_indexStories (options : IndexOptions) :
    ReportsOn source.filename (indexStories source options) := by
  rw [indexStories]
  cases hindex : readIndex source with
  | ok index => exact reportsOn_ok index
  | error r =>
      have hname : r.filename = source.filename := reportsOn_readIndex source r hindex
      refine reportsOn_error.mpr ?_
      split_ifs
      · exact hname
      · rw [filename_hintLegacy, hname]

end SvelteStories
