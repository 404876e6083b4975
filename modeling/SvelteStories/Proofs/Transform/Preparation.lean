/-
Stories files made ready for the component compiler:

* `StoriesFile.boundDeclaration`, `StoriesFile.boundScript`: the meta declaration of a file with a
  binding of the meta object, and the module script with its text in place of the old one;
* `StoriesFile.PrintsBack`: this script is read as the one that is meant;
* `prepare_cases`: a file stays as it is, or the text of its meta declaration is replaced;
* `prepareStories_spec`: the file that is made ready has the same stories, binds the meta object, and
  stays as it is when it is made ready once more.

The component compiler sees the one file and the transform reads the other, so all that is told of the
stories rests on this.
-/
import Mathlib.Data.List.Infix
import SvelteStories.Proofs.Additions.Layout
import SvelteStories.Proofs.Story.Relocated
import SvelteStories.Proofs.Transform.Restated
import SvelteStories.Transform.Preparation

namespace SvelteStories

open Script Markup

/-! ### The meta declaration with a binding -/

namespace StoriesFile

/-- The meta declaration with a binding of the meta object. -/
def boundDeclaration (f : StoriesFile) (bound : MetaBinding) : VariableDeclaration :=
  f.declared.declaration.changeAt f.declared.pattern.span (·.withPattern bound.pattern)

/-- Its text. It ends with a semicolon if the text of the old one does. -/
def boundText (f : StoriesFile) (bound : MetaBinding) : List Char :=
  let replaced := trimEnd (f.source.slice f.declared.declaration.span)
  (f.boundDeclaration bound).text ++ if replaced.getLast? = some ';' then [';'] else []

/-- The text of the module script with this one in place of the old one. -/
def boundScript (f : StoriesFile) (bound : MetaBinding) : List Char :=
  f.source.slice ⟨f.script.content.start, f.declared.declaration.span.start⟩
    ++ (f.boundText bound
      ++ f.source.slice ⟨f.declared.declaration.span.stop, f.script.content.stop⟩)

/-- The printed declaration is read back where it stands: the script with it in place of the old one
is read as the items of the script, with the declaration that was printed among them, and does not
end before. -/
structure PrintsBack (f : StoriesFile) (bound : MetaBinding) : Prop where
  /-- The meta declaration stands in the module script. -/
  inside : f.script.content.contains f.declared.declaration.span = true
  /-- The script is read as the one that is meant. -/
  reads : ∃ items,
    parseModule f.script.language.dialect f.script.content.start (f.boundScript bound) = .ok items
      ∧ RestatedFrom f.metaFunction (f.boundDeclaration bound) f.script.items items
  /-- The script does not close its element. -/
  staysOpen : ¬ "</script".toList <:+: f.boundScript bound

end StoriesFile

section

variable {source : Source} {d : Document} {f : StoriesFile} {t : List Char}

/-- A draft that accepts an edit puts its text in place of what stands there. -/
lemma finish_of_overwrite_ofText {text new : List Char} {span : Span} {draft : Draft}
    (h : (Draft.ofText text).overwrite span.start span.stop new = .ok draft) :
    ∃ before old behind, text = before ++ (old ++ behind)
      ∧ span = ⟨byteLength before, byteLength before + byteLength old⟩
      ∧ draft.finish = before ++ (new ++ behind) := by
  have hfits : (span.start ≤ span.stop ∧ Boundary text span.start) ∧ Boundary text span.stop := by
    have hcheck := h
    rw [Draft.overwrite] at hcheck
    split_ifs at hcheck with hfits
    simpa only [Draft.ofText, Bool.and_eq_true, decide_eq_true_eq, isBoundary_iff] using hfits
  obtain ⟨before, old, behind, rfl, hstart, hstop⟩ := hfits.1.2.between hfits.2 hfits.1.1
  rw [byteLength_append] at hstop
  obtain ⟨haccepted, hfinish⟩ := finish_overwrite before old behind new
  rw [← hstart, ← hstop, haccepted] at h
  refine ⟨before, old, behind, rfl, ?_, ?_⟩
  · rw [hstop, hstart]
  · rw [← Except.ok.inj h, hfinish]

/-- A file that binds the meta object stays as it is. In another one the text of the meta declaration
is replaced. -/
lemma prepare_cases (h : f.prepare = .ok t) :
    (f.metaName.isSome = true ∧ t = f.source.text)
      ∨ f.metaName = none ∧ ∃ bound before old behind,
        f.declared.pattern.bindMeta = .ok bound ∧ f.source.text = before ++ (old ++ behind)
          ∧ f.declared.declaration.span = ⟨byteLength before, byteLength before + byteLength old⟩
          ∧ t = before ++ (f.boundText bound ++ behind) := by
  simp only [StoriesFile.prepare] at h
  split at h
  · rename_i name hname
    exact Or.inl ⟨by rw [hname]; rfl, (Except.ok.inj h).symm⟩
  · rename_i hname
    split at h
    · rename_i draft hdraft
      obtain ⟨bound, hbound, hdraft⟩ := bind_eq_ok_iff.mp hdraft
      obtain ⟨before, old, behind, htext, hspan, hfinish⟩ := finish_of_overwrite_ofText hdraft
      exact Or.inr ⟨hname, bound, before, old, behind, hbound, htext, hspan,
        (Except.ok.inj h).symm.trans hfinish⟩
    · cases h

/-- A new binding of the meta object goes by its own name. -/
lemma name_bindMeta {bound : MetaBinding} (hfile : readStoriesFile d = .ok f)
    (hnone : f.metaName = none) (hbound : f.declared.pattern.bindMeta = .ok bound) :
    bound.name = metaKey := by
  obtain ⟨-, -, -, -, hmissing⟩ := declared_of_readStoriesFile hfile
  rw [hnone] at hmissing
  rcases bindMeta_cases hbound with ⟨-, -, hname⟩ | ⟨-, hname, -⟩
  · cases hmissing.symm.trans hname
  · exact hname

/-- A script without text is empty. -/
lemma items_eq_nil {script : ScriptBlock} (hdoc : readDocument source = .ok d)
    (hscript : d.scripts.ofModule = some script)
    (hempty : script.content.stop ≤ script.content.start) : script.items = [] := by
  obtain ⟨nodes₁, e, nodes₂, -, -, hread⟩ := exists_element_of_readDocument hdoc hscript
  obtain ⟨items, hitems, rfl⟩ := readScript_eq_ok_iff.mp hread
  have hslice : source.slice e.fragment.span = [] := by
    rw [Source.slice]
    cases hs : slice? source.text e.fragment.span with
    | none => rfl
    | some w =>
        obtain ⟨_, _, -, -, hstop⟩ := slice?_eq_some_iff.mp hs
        dsimp only at hempty
        exact byteLength_eq_zero_iff.mp (show byteLength w = 0 by omega)
  have hnil (language : ScriptLanguage) (n : Nat) : parseModule language.dialect n [] = .ok [] := by
    cases language <;> rfl
  rw [hslice, hnil] at hitems
  exact (Except.ok.inj hitems).symm

/-- To replace the meta declaration is to replace the module script that it stands in. -/
lemma boundScript_eq {before old behind left script right : List Char} (bound : MetaBinding)
    (htext : f.source.text = before ++ (old ++ behind))
    (hspan : f.declared.declaration.span = ⟨byteLength before, byteLength before + byteLength old⟩)
    (hscript : f.source.text = left ++ (script ++ right))
    (hcontent : f.script.content = ⟨byteLength left, byteLength left + byteLength script⟩)
    (hinside : f.script.content.contains f.declared.declaration.span = true) :
    left ++ (f.boundScript bound ++ right) = before ++ (f.boundText bound ++ behind) := by
  rw [hcontent, hspan, Span.contains_iff] at hinside
  dsimp only at hinside
  obtain ⟨inner, rfl, hinner⟩ :=
    exists_append_of_byteLength_le (hscript.symm.trans htext) hinside.1
  obtain ⟨outer, rfl, rfl⟩ := exists_append_of_byteLength_le
    (show inner ++ old ++ behind = script ++ right by rw [List.append_assoc, hinner]) (by
      rw [byteLength_append] at hinside ⊢
      omega)
  have hbefore : slice? f.source.text ⟨f.script.content.start, f.declared.declaration.span.start⟩
      = some inner := by
    refine slice?_eq_some_iff.mpr ⟨left, old ++ (outer ++ right), ?_, ?_, ?_⟩
    · rw [htext, List.append_assoc]
    · rw [hcontent]
    · rw [hcontent, hspan]
      exact byteLength_append _ _
  have hbehind : slice? f.source.text ⟨f.declared.declaration.span.stop, f.script.content.stop⟩
      = some outer := by
    refine slice?_eq_some_iff.mpr ⟨left ++ inner ++ old, right, ?_, ?_, ?_⟩
    · rw [htext, List.append_assoc (left ++ inner)]
    · rw [hspan, byteLength_append]
    · simp only [hcontent, hspan, byteLength_append]
      omega
  rw [StoriesFile.boundScript, Source.slice, Source.slice, hbefore, hbehind]
  simp

/-- The stories of a file are told of the file that is made ready as well, and a fault in them is
found in both.

A file that binds the meta object stays as it is. In another one the text of the meta declaration is
replaced by one that binds the meta object under its own name. If this text is read back, the new file
is a stories file with the same story component, and it stays as it is when it is made ready. -/
theorem prepareStories_spec (hdoc : readDocument source = .ok d) (hfile : readStoriesFile d = .ok f)
    (h : prepareStories source = .ok t)
    (hback : ∀ bound, f.metaName = none → f.declared.pattern.bindMeta = .ok bound →
      f.PrintsBack bound) :
    (f.metaName.isSome = true → t = source.text)
      ∧ (f.metaName = none → ∃ bound before old behind,
        f.declared.pattern.bindMeta = .ok bound ∧ source.text = before ++ (old ++ behind)
          ∧ f.declared.declaration.span = ⟨byteLength before, byteLength before + byteLength old⟩
          ∧ t = before ++ (f.boundText bound ++ behind))
      ∧ ∃ d' f', readDocument ⟨source.filename, t⟩ = .ok d' ∧ readStoriesFile d' = .ok f'
        ∧ f'.metaName = some (f.metaName.getD metaKey) ∧ f'.storyName = f.storyName
        ∧ faultOnly (f'.readStories.map (List.map Story.told))
          = faultOnly (f.readStories.map (List.map Story.told))
        ∧ prepareStories ⟨source.filename, t⟩ = .ok t := by
  have hprepare : f.prepare = .ok t := by
    simpa only [prepareStories, hdoc, hfile, ok_bind] using h
  have hsource : f.source = source := by
    rw [StoriesFile.source, (parts_of_readStoriesFile hfile).1, source_of_readDocument hdoc]
  have hcases := prepare_cases hprepare
  rw [hsource] at hcases
  rcases hcases with ⟨hname, rfl⟩ | ⟨hnone, bound, before, old, behind, hbound, htext, hspan, rfl⟩
  · obtain ⟨name, hname⟩ := Option.isSome_iff_exists.mp hname
    refine ⟨fun _ => rfl, fun hnone => absurd (hnone.symm.trans hname) (by simp), d, f, hdoc, hfile,
      by rw [hname]; rfl, rfl, rfl, h⟩
  · refine ⟨fun hname => absurd hnone (Option.isSome_iff_ne_none.mp hname),
      fun _ => ⟨bound, before, old, behind, hbound, htext, hspan, rfl⟩, ?_⟩
    obtain ⟨hinside, ⟨items, hitems, hrestated⟩, hopen⟩ := hback bound hnone hbound
    obtain ⟨hscript, hmeta, -⟩ := declared_of_readStoriesFile hfile
    have hlt : f.script.content.start < f.script.content.stop := by
      by_contra hempty
      rw [metaFunction, items_eq_nil hdoc hscript (Nat.le_of_not_lt hempty)] at hmeta
      cases hmeta
    obtain ⟨left, script, right, hwhole, hcontent, d', script', hd', hscript', rfl, hrelocated⟩ :=
      readDocument_replaceScript hdoc hscript hlt hopen hitems
    rw [← hsource] at htext hwhole
    rw [boundScript_eq bound htext hspan hwhole hcontent hinside] at hd'
    obtain ⟨snippets, hsnippets⟩ :=
      topSnippets_relocated hrelocated (parts_of_readStoriesFile hfile).2.2
    obtain ⟨f', hf', hstory, hname⟩ :=
      readStoriesFile_restated hfile hbound hscript' hrestated hsnippets
    refine ⟨d', f', hd', hf', ?_, hstory,
      readStories_relocated hrelocated hdoc hfile hf' hstory, ?_⟩
    · rw [hname, hnone, name_bindMeta hfile hnone hbound]
      rfl
    · rw [prepareStories, hd', ok_bind, hf', ok_bind, StoriesFile.prepare, hname, StoriesFile.source,
        (parts_of_readStoriesFile hf').1, source_of_readDocument hd']

/-! ### A check -/

/-- What a script says that imports the meta function and destructures its result into two names. -/
def metaForms (names : String × String) : List ItemForm :=
  [.imports false [.named metaFunctionName metaFunctionName false] addonPackage,
    .statement (.variables ⟨nowhere, "const", [⟨.object ⟨nowhere,
      [.shorthand nowhere names.1 none, .shorthand nowhere names.2 none], []⟩,
      some (.call ⟨nowhere, .identifier nowhere metaFunctionName, [],
        [.plain (.object ⟨nowhere, []⟩)]⟩)⟩]⟩)]

/-- The two names, if a script without its places says no more than this. -/
def metaNames? : List ItemForm → Option (String × String)
  | [.imports false [.named imported name false] package,
      .statement (.variables ⟨s₁, keyword, [⟨.object ⟨s₂, [.shorthand s₃ first none,
        .shorthand s₄ second none], []⟩, some (.call ⟨s₅, .identifier s₆ callee, [],
          [.plain (.object ⟨s₇, []⟩)]⟩)⟩]⟩)] =>
    if [imported, name, callee].all (· = metaFunctionName) ∧ package = addonPackage
        ∧ keyword = "const" ∧ [s₁, s₂, s₃, s₄, s₅, s₆, s₇].all (· = nowhere) then
      some (first, second)
    else none
  | _ => none

lemma eq_metaForms {forms : List ItemForm} {names : String × String}
    (h : metaNames? forms = some names) : forms = metaForms names := by
  rw [metaNames?.eq_def] at h
  split at h
  · split_ifs at h with hforms
    obtain rfl := Option.some.inj h
    simp only [List.all_cons, List.all_nil, Bool.and_true, Bool.and_eq_true,
      decide_eq_true_eq] at hforms
    obtain ⟨⟨rfl, rfl, rfl⟩, rfl, rfl, rfl, rfl, rfl, rfl, rfl, rfl, rfl⟩ := hforms
    rfl
  · cases h

/-- Whether a file with such a script is made ready, and its printed meta declaration is read back. -/
def printsBack (source : Source) : Bool :=
  (readDocument source).toOption.any fun d => (readStoriesFile d).toOption.any fun f =>
    f.metaName.isNone && f.prepare.toOption.isSome
      && f.script.content.contains f.declared.declaration.span
      && f.declared.pattern.bindMeta.toOption.any fun bound =>
        decide (¬ "</script".toList <:+: f.boundScript bound)
          && (parseModule f.script.language.dialect f.script.content.start
            (f.boundScript bound)).toOption.any fun items =>
              let names := metaNames? (items.map fun i => i.form.unplaced)
              names.isSome && names = metaNames? ((restated
                (VariableDeclaration.calls f.metaFunction) (f.boundDeclaration bound)
                (f.script.items.map Item.form)).map ItemForm.unplaced)

/-- The check is sound. -/
lemma exists_of_printsBack (h : printsBack source = true) :
    ∃ d f t, readDocument source = .ok d ∧ readStoriesFile d = .ok f
      ∧ prepareStories source = .ok t ∧ f.metaName = none
      ∧ ∀ bound, f.declared.pattern.bindMeta = .ok bound → f.PrintsBack bound := by
  obtain ⟨d, hd, h⟩ := exists_of_toOption_any h
  obtain ⟨f, hf, h⟩ := exists_of_toOption_any h
  simp only [Bool.and_eq_true, Option.isNone_iff_eq_none] at h
  obtain ⟨⟨⟨hnone, hprepare⟩, hinside⟩, h⟩ := h
  obtain ⟨t, ht⟩ := Option.isSome_iff_exists.mp hprepare
  obtain ⟨bound, hbound, h⟩ := exists_of_toOption_any h
  obtain ⟨hopen, h⟩ := Bool.and_eq_true_iff.mp h
  obtain ⟨items, hitems, h⟩ := exists_of_toOption_any h
  obtain ⟨hsome, hsame⟩ := Bool.and_eq_true_iff.mp h
  obtain ⟨names, hnames⟩ := Option.isSome_iff_exists.mp hsome
  refine ⟨d, f, t, hd, hf, ?_, hnone, fun bound' hbound' => ?_⟩
  · rw [prepareStories, hd, ok_bind, hf, ok_bind, toOption_eq_some_iff.mp ht]
  · obtain rfl := Except.ok.inj (hbound.symm.trans hbound')
    refine ⟨hinside, ⟨items, hitems, ?_⟩, of_decide_eq_true hopen⟩
    rw [RestatedFrom, eq_metaForms hnames,
      eq_metaForms ((of_decide_eq_true hsame).symm.trans hnames)]

end

/-- A stories file that does not bind the meta object, with a comment in the text that is replaced. -/
def unboundStories : Source :=
  ⟨"A.stories.svelte", ("<script module>\n".toList ++ metaImport
    ++ "const \x7b Story /* c */ \x7d ".toList ++ "= defineMeta(\x7b\x7d);\n</script>\n".toList
    ++ "<!-- d --><Story name=\"B\"> b </Story><Story name=\"C\" />".toList)⟩

theorem unboundStories_prepared :
    ∃ d f t, readDocument unboundStories = .ok d ∧ readStoriesFile d = .ok f
      ∧ prepareStories unboundStories = .ok t ∧ f.metaName = none
      ∧ (∀ bound, f.declared.pattern.bindMeta = .ok bound → f.PrintsBack bound)
      ∧ (f.metaName.isSome = true → t = unboundStories.text)
      ∧ (f.metaName = none → ∃ bound before old behind,
        f.declared.pattern.bindMeta = .ok bound ∧ unboundStories.text = before ++ (old ++ behind)
          ∧ f.declared.declaration.span = ⟨byteLength before, byteLength before + byteLength old⟩
          ∧ t = before ++ (f.boundText bound ++ behind))
      ∧ ∃ d' f', readDocument ⟨unboundStories.filename, t⟩ = .ok d' ∧ readStoriesFile d' = .ok f'
        ∧ f'.metaName = some (f.metaName.getD metaKey) ∧ f'.storyName = f.storyName
        ∧ faultOnly (f'.readStories.map (List.map Story.told))
          = faultOnly (f.readStories.map (List.map Story.told))
        ∧ prepareStories ⟨unboundStories.filename, t⟩ = .ok t := by
  have hcheck : printsBack unboundStories = true := by
    -- the kernel is faster with characters than with literals
    unfold unboundStories metaImport
    repeat rewrite [String.toList_ofList]
    decide +kernel
  obtain ⟨d, f, t, hd, hf, ht, hnone, hback⟩ := exists_of_printsBack hcheck
  exact ⟨d, f, t, hd, hf, ht, hnone, hback,
    prepareStories_spec hd hf ht fun bound _ hbound => hback bound hbound⟩

end SvelteStories
