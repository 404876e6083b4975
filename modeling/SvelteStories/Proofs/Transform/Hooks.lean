/-
Hooks around a component compiler that the build tool runs itself, and the way through one that the
transform runs:

* `Hooks.build`: what a build tool makes of a file with the hooks: one before it compiles, one behind;
* `Hooks.ofChanges`, `ComponentCompiler.ofChanges`: the same changes to a text as preprocessors of
  hooks, and as what a component compiler does to a file first;
* `before?_eq`, `after?_eq`: what the hooks do to a stories file, and that they do nothing to others;
* `hooks_agree`: both ways give the same module or the same fault.

The hooks run the preprocessors twice, once for each of them, and the transform only once. That makes
no difference, because preprocessors that write their own texts do it the same way each time.
-/
import SvelteStories.Proofs.Transform.Edits
import SvelteStories.Transform.Hooks

namespace SvelteStories

/-! ### A build with hooks -/

/-- What keeps a build with hooks from a module. -/
inductive BuildFailure
  /-- A hook reports a fault. -/
  | hook (report : Report)
  /-- The component compiler fails, with this message. -/
  | compiler (message : String)

/-- A failure as a report about a file. -/
def BuildFailure.report (filename : String) : BuildFailure → Report
  | hook report => report
  | compiler message => ⟨.componentCompiler message, filename, none⟩

section

variable {m : Type → Type} [Monad m]

/-- What a build tool makes of a file: it runs the hook before the component compiler, compiles what
the hook gives back, and runs the hook behind it with the text that the file had at first. A file that
the first hook gives nothing for is left to others. -/
def Hooks.build (h : Hooks) (compile : List Char → CompileRequest → m (Except String (List Char)))
    (id : String) (t : List Char) : m (Except BuildFailure (Option (Noted (List Char)))) := do
  match h.before? id t with
  | .error report => return .error (.hook report)
  | .ok none => return .ok none
  | .ok (some prepared) =>
    match ← compile prepared ⟨id, h.options.dev⟩ with
    | .error message => return .error (.compiler message)
    | .ok compiled => return (h.after? id compiled t).mapError .hook

end

/-! ### Changes to the text -/

/-- A text after changes to it, one after the other. -/
def changed (changes : List (List Char → List Char)) (t : List Char) : List Char :=
  changes.foldl (fun t change => change t) t

/-- Hooks with changes as preprocessors, which write the text that they give back. -/
def Hooks.ofChanges (options : TransformOptions) (changes : List (List Char → List Char)) : Hooks :=
  changes.foldl (fun h change => h.withPreprocessor fun t => .written (change t)) (ofOptions options)

/-- A component compiler that makes changes to a file before it compiles it. -/
def ComponentCompiler.ofChanges {m : Type → Type} [Monad m]
    (changes : List (List Char → List Char))
    (compile : List Char → CompileRequest → m (Except String (List Char))) : ComponentCompiler m :=
  ⟨fun t _ => pure (.ok (changed changes t)), compile⟩

lemma ofChanges_eq (options : TransformOptions) (changes : List (List Char → List Char)) :
    Hooks.ofChanges options changes
      = ⟨options, changes.map fun change t => .written (change t)⟩ := by
  induction changes using List.reverseRecOn with
  | nil => rfl
  | append_singleton changes change ih =>
      have hlast : Hooks.ofChanges options (changes ++ [change])
          = (Hooks.ofChanges options changes).withPreprocessor fun t => .written (change t) := by
        rw [Hooks.ofChanges, List.foldl_append]
        rfl
      rw [hlast, ih, Hooks.withPreprocessor, List.map_append]
      rfl

/-- Preprocessors that write their own texts make the changes. -/
lemma read_ofChanges (options : TransformOptions) (changes : List (List Char → List Char))
    (filename : String) (t : List Char) :
    (Hooks.ofChanges options changes).read filename t = ⟨filename, changed changes t⟩ := by
  rw [Hooks.read, ofChanges_eq, runPreprocessors, List.foldl_map]
  rfl

/-- A transform in which nothing fails. -/
lemma transformStories_ofChanges {m : Type → Type} [Monad m] [LawfulMonad m]
    {changes : List (List Char → List Char)}
    {compile : List Char → CompileRequest → m (Except String (List Char))} {source : Source}
    {options : TransformOptions} {t prepared compiled : List Char} {out : Noted (List Char)}
    (ht : changed changes source.text = t)
    (hprepare : prepareStories ⟨source.filename, t⟩ = .ok prepared)
    (hcompile : compile prepared ⟨source.filename, options.dev⟩ = pure (.ok compiled))
    (hout : storiesModule ⟨source.filename, t⟩ compiled options = .ok out) :
    transformStories (.ofChanges changes compile) source options = pure (.ok out) := by
  simp only [transformStories, ComponentCompiler.ofChanges, pure_bind, ht, hprepare, hcompile, hout]

/-! ### The two ways -/

section

variable {h : Hooks} {id : String}

lemma before?_eq (hid : namesStoriesFile id = true) (t : List Char) :
    h.before? id t = (prepareStories (h.read id t)).map some := by
  rw [Hooks.before?, if_pos hid]

lemma after?_eq (hid : namesStoriesFile id = true) (compiled t : List Char) :
    h.after? id compiled t = (storiesModule (h.read id t) compiled h.options).map some := by
  rw [Hooks.after?, if_pos hid]

/-- The hooks give nothing for other files, whatever their text. -/
lemma hooks_eq_none (hid : namesStoriesFile id = false) (compiled t : List Char) :
    h.before? id t = .ok none ∧ h.after? id compiled t = .ok none := by
  rw [Hooks.before?, Hooks.after?, hid]
  exact ⟨rfl, rfl⟩

variable {m : Type → Type} [Monad m] [LawfulMonad m]

/-- **The hooks and the transform are interchangeable.** For a stories file, a build with hooks whose
preprocessors make some changes to the text gives just what the transform gives with a component
compiler that makes these changes first: it asks the compiler for the same, and ends with the same
module or the same report. For any other file the hooks give nothing, whatever the text and whatever
the preprocessors, and nothing is compiled. -/
theorem hooks_agree (options : TransformOptions) (changes : List (List Char → List Char))
    (compile : List Char → CompileRequest → m (Except String (List Char))) (id : String) :
    (namesStoriesFile id = true → ∀ t,
        (fun built => built.mapError (BuildFailure.report id))
            <$> (Hooks.ofChanges options changes).build compile id t
          = (fun transformed => transformed.map some)
            <$> transformStories (.ofChanges changes compile) ⟨id, t⟩ options)
      ∧ (namesStoriesFile id = false → ∀ (h : Hooks) (compiled t : List Char),
        h.before? id t = .ok none ∧ h.after? id compiled t = .ok none
          ∧ h.build compile id t = pure (.ok none)) := by
  constructor
  · intro hid t
    have hoptions : (Hooks.ofChanges options changes).options = options := by rw [ofChanges_eq]
    -- both ways prepare the changed text
    rw [Hooks.build, before?_eq hid, read_ofChanges, transformStories, hoptions]
    simp only [ComponentCompiler.ofChanges, pure_bind]
    cases prepareStories ⟨id, changed changes t⟩ with
    | error report => simp only [Except.map, map_pure]; rfl
    | ok prepared =>
        -- and both compile what they have prepared
        simp only [Except.map, map_bind]
        refine congrArg (compile prepared ⟨id, options.dev⟩ >>= ·) (funext fun outcome => ?_)
        cases outcome with
        | error message => simp only [map_pure]; rfl
        | ok compiled =>
            simp only [after?_eq hid, read_ofChanges, hoptions, map_pure]
            cases storiesModule ⟨id, changed changes t⟩ compiled options <;> rfl
  · intro hid h compiled t
    obtain ⟨hbefore, hafter⟩ := hooks_eq_none (h := h) hid compiled t
    exact ⟨hbefore, hafter, by rw [Hooks.build, hbefore]⟩

end

/-! ### A file with a mark in it -/

/-- The text of the file with two stories, with a mark in place of the name of the second one. -/
def markedStories : List Char :=
  twoStories.text.map fun c => if c = 'B' then '%' else c

/-- The change that puts the name in. -/
def unmark (t : List Char) : List Char :=
  t.map fun c => if c = '%' then 'B' else c

/-- A component compiler that knows one file only. -/
def compileMarked (t : List Char) (request : CompileRequest) : Id (Except String (List Char)) :=
  if t.contains '%' || request.dev then .error "unexpected token" else .ok twoStoriesModule

lemma changed_markedStories : changed [unmark] markedStories = twoStories.text := by
  have hchar : ∀ c ∈ twoStories.text, (if (if c = 'B' then '%' else c) = '%' then 'B'
      else if c = 'B' then '%' else c) = c := by
    decide +kernel
  calc changed [unmark] markedStories
      = twoStories.text.map fun c => if (if c = 'B' then '%' else c) = '%' then 'B'
          else if c = 'B' then '%' else c := List.map_map
    _ = twoStories.text := (List.map_congr_left hchar).trans (List.map_id _)

lemma prepareStories_twoStories :
    ((prepareStories twoStories).toOption.any fun t => !t.contains '%') = true := by
  -- the kernel is faster with characters than with literals
  unfold twoStories metaImport
  repeat rewrite [String.toList_ofList]
  decide +kernel

/-- The transform makes a module of the file: the mark is gone when it is prepared. -/
lemma exists_transformed :
    ∃ out, (transformStories (.ofChanges [unmark] compileMarked)
      ⟨"A.stories.svelte", markedStories⟩ plainOptions).run = .ok out := by
  obtain ⟨prepared, hprepare, hclean⟩ := exists_of_toOption_any prepareStories_twoStories
  obtain ⟨-, -, -, -, out, -, -, hout⟩ := exists_twoStories
  have hcompile : compileMarked prepared ⟨"A.stories.svelte", plainOptions.dev⟩
      = pure (.ok twoStoriesModule) := by
    rw [compileMarked, if_neg]
    · rfl
    · simpa [plainOptions] using hclean
  exact ⟨out, congrArg Id.run
    (transformStories_ofChanges changed_markedStories hprepare hcompile hout)⟩

theorem markedStories_hooks_agree :
    namesStoriesFile "A.stories.svelte" = true ∧ namesStoriesFile "A.svelte" = false
      ∧ (∃ out, ((Hooks.ofChanges plainOptions [unmark]).build compileMarked "A.stories.svelte"
            markedStories).run = .ok (some out)
          ∧ (transformStories (.ofChanges [unmark] compileMarked)
            ⟨"A.stories.svelte", markedStories⟩ plainOptions).run = .ok out)
      ∧ (Hooks.ofChanges plainOptions [unmark]).before? "A.svelte" markedStories = .ok none := by
  have hname : namesStoriesFile "A.stories.svelte" = true := by decide
  have hother : namesStoriesFile "A.svelte" = false := by decide
  have hsame := congrArg Id.run
    ((hooks_agree plainOptions [unmark] compileMarked "A.stories.svelte").1 hname markedStories)
  have hnothing := (hooks_agree plainOptions [unmark] compileMarked "A.svelte").2 hother
    (Hooks.ofChanges plainOptions [unmark]) [] markedStories
  obtain ⟨out, hout⟩ := exists_transformed
  rw [Id.run_map, Id.run_map, hout, Except.map, mapError_eq_ok_iff] at hsame
  exact ⟨hname, hother, ⟨out, hsame, hout⟩, hnothing.1⟩

end SvelteStories
