/-
The ids of stories:

* `foldedRuns`: the alphanumeric runs of a text in lower case; `slug_eq` puts a slug together from
  them, and `slug_eq_slug_iff` says that it tells no more about a text;
* `idWords`: what is left of an export name in an id, its words in lower case;
* `indexStories_ids`: the ids that a file is listed with, which differ exactly if these words do;
* `primaryStories_share_id`: two export names that differ in one capital letter share an id.
-/
import Mathlib.Data.List.TakeWhile
import SvelteStories.Proofs.Story.ReadOff
import SvelteStories.Story.Index

namespace SvelteStories

/-! ### Runs -/

section

variable {p : Char → Bool} {c : Char}

/-- What holds of the empty text, and of every text if it holds behind the run or the single other
character at its beginning, holds of all texts. -/
lemma induction_on_runs (p : Char → Bool) {motive : List Char → Prop} (nil : motive [])
    (skip : ∀ c t, p c = false → motive t → motive (c :: t))
    (run : ∀ c t, p c = true → motive (t.dropWhile p) → motive (c :: t)) : ∀ t, motive t
  | [] => nil
  | c :: t => by
      cases hc : p c with
      | false => exact skip c t hc (induction_on_runs p nil skip run t)
      | true =>
          have hshorter := List.length_dropWhile_le p t
          exact run c t hc (induction_on_runs p nil skip run (t.dropWhile p))
  termination_by t => t.length

lemma runs_cons_of_neg (hc : p c = false) (t : List Char) : runs p (c :: t) = runs p t := by
  rw [runs.eq_def]
  simp [hc]

/-- A run begins with a character that satisfies the test and goes on as long as one does. -/
lemma runs_cons_of_pos (hc : p c = true) (t : List Char) :
    runs p (c :: t) = (c :: t.takeWhile p) :: runs p (t.dropWhile p) := by
  induction t generalizing c with
  | nil => simp [runs, hc]
  | cons d t ih =>
      rw [runs, if_pos hc]
      cases hd : p d with
      | true =>
          rw [if_pos rfl, ih hd]
          simp [hd]
      | false =>
          simp [hd]

/-- No run goes on behind a character that does not satisfy the test. -/
lemma runs_append_cons (hc : p c = false) (a b : List Char) :
    runs p (a ++ c :: b) = runs p a ++ runs p b := by
  induction a using induction_on_runs p with
  | nil => exact runs_cons_of_neg hc b
  | skip d a hd ih =>
      rw [List.cons_append, runs_cons_of_neg hd, runs_cons_of_neg hd, ih]
  | run d a hd ih =>
      have hstop : (a ++ c :: b).takeWhile p = a.takeWhile p := by
        rw [List.takeWhile_append]
        split
        · rename_i hall
          rw [List.takeWhile_cons_of_neg (by simp [hc]), List.append_nil]
          exact ((List.takeWhile_sublist p).eq_of_length hall).symm
        · rfl
      have hrest : (a ++ c :: b).dropWhile p = a.dropWhile p ++ c :: b := by
        rw [List.dropWhile_append]
        split
        · rename_i hall
          simp [List.isEmpty_iff.mp hall, hc]
        · rfl
      rw [List.cons_append, runs_cons_of_pos hd, runs_cons_of_pos hd, hstop, hrest, ih,
        List.cons_append]

/-- Runs are not empty and hold what satisfies the test. -/
lemma of_mem_runs {t r : List Char} (hr : r ∈ runs p t) : r ≠ [] ∧ ∀ d ∈ r, p d = true := by
  induction t using induction_on_runs p with
  | nil => simp [runs] at hr
  | skip c t hc ih =>
      rw [runs_cons_of_neg hc] at hr
      exact ih hr
  | run c t hc ih =>
      rw [runs_cons_of_pos hc] at hr
      rcases List.mem_cons.mp hr with rfl | hr
      · refine ⟨List.cons_ne_nil _ _, List.forall_mem_cons.mpr ⟨hc, fun d hd => ?_⟩⟩
        exact List.mem_takeWhile_imp hd
      · exact ih hr

end

/-! ### Lower case -/

/-- A code point behind that of a character is not of this character, even if it is of none. -/
lemma ofNat_ne {d : Char} (hd : 0 < d.toNat) {n : Nat} (h : d.toNat < n) : Char.ofNat n ≠ d := by
  intro heq
  have hnat : (Char.ofNat n).toNat = d.toNat := heq ▸ rfl
  by_cases hvalid : n.isValidChar
  · have hcode : (Char.ofNat n).toNat = n := by rw [Char.ofNat, dif_pos hvalid]; rfl
    omega
  · rw [Char.ofNat, dif_neg hvalid] at hnat
    exact absurd hnat (Nat.ne_of_lt hd)

/-- A case mapping whose images all lie behind a character gives this character for itself only, and
gives something. -/
lemma mapCase_ne {d : Char} (hd : 0 < d.toNat) {expansions : List (Nat × List Nat)}
    {maps : List (Nat × Nat × Nat × Nat)}
    (hexpansions : ∀ e ∈ expansions, e.2 ≠ [] ∧ ∀ n ∈ e.2, d.toNat < n)
    (hmaps : ∀ m ∈ maps, d.toNat < m.2.2.2) {c : Char} (hc : c ≠ d) :
    mapCase expansions maps c ≠ [] ∧ d ∉ mapCase expansions maps c := by
  rw [mapCase]
  split
  · rename_i codes hlookup
    obtain ⟨l₁, l₂, hl, -⟩ := List.lookup_eq_some_iff.mp hlookup
    obtain ⟨hne, hcodes⟩ := hexpansions (c.toNat, codes) (by simp [hl])
    refine ⟨by simpa using hne, fun hmem => ?_⟩
    obtain ⟨n, hn, heq⟩ := List.mem_map.mp hmem
    exact ofNat_ne hd (hcodes n hn) heq
  · refine ⟨List.cons_ne_nil _ _, fun hmem => ?_⟩
    have heq := List.mem_singleton.mp hmem
    cases hshifted : shifted? maps c.toNat with
    | none =>
        rw [hshifted] at heq
        exact hc heq.symm
    | some n =>
        obtain ⟨m, hm, hn⟩ := List.exists_of_findSome?_eq_some hshifted
        have hbehind := hmaps m hm
        dsimp only at hn
        split_ifs at hn
        obtain rfl := Option.some.inj hn
        rw [hshifted] at heq
        exact ofNat_ne hd (Nat.lt_add_right _ hbehind) heq.symm

/-- The lower case of an alphanumeric character is not empty and holds no dash. -/
lemma lowerCase_ne_dash {c : Char} (hc : isAlphanumeric c = true) :
    lowerCase c ≠ [] ∧ '-' ∉ lowerCase c := by
  have hdash : c ≠ '-' := by
    rintro rfl
    exact absurd hc (by decide)
  rw [lowerCase]
  split
  · refine ⟨List.cons_ne_nil _ _, fun hmem => ?_⟩
    have heq := List.mem_singleton.mp hmem
    split_ifs at heq with hupper
    · have hbehind : '-'.toNat < c.toNat + 32 := by
        simp only [Bool.and_eq_true, decide_eq_true_eq] at hupper
        exact Nat.lt_add_right 32 (Nat.lt_of_lt_of_le (by decide) hupper.1)
      exact ofNat_ne (by decide) hbehind heq.symm
    · exact hdash heq.symm
  · exact mapCase_ne (by decide) (by decide) (by decide +kernel) hdash

/-! ### Slugs -/

/-- The alphanumeric runs of a text, in lower case. -/
def foldedRuns (t : List Char) : List (List Char) :=
  (runs isAlphanumeric t).map fun r => r.flatMap lowerCase

lemma foldedRuns_cons_of_neg {c : Char} (hc : isAlphanumeric c = false) (t : List Char) :
    foldedRuns (c :: t) = foldedRuns t := by
  rw [foldedRuns, runs_cons_of_neg hc, foldedRuns]

lemma foldedRuns_cons_of_pos {c : Char} (hc : isAlphanumeric c = true) (t : List Char) :
    foldedRuns (c :: t) = (lowerCase c ++ (t.takeWhile isAlphanumeric).flatMap lowerCase)
      :: foldedRuns (t.dropWhile isAlphanumeric) := by
  rw [foldedRuns, runs_cons_of_pos hc]
  rfl

lemma of_mem_foldedRuns {t w : List Char} (hw : w ∈ foldedRuns t) : w ≠ [] ∧ '-' ∉ w := by
  obtain ⟨r, hr, rfl⟩ := List.mem_map.mp hw
  obtain ⟨hne, hall⟩ := of_mem_runs hr
  constructor
  · obtain ⟨c, r, rfl⟩ := List.exists_cons_of_ne_nil hne
    have := (lowerCase_ne_dash (hall c (by simp))).1
    simp [this]
  · intro hmem
    obtain ⟨c, hc, hdash⟩ := List.mem_flatMap.mp hmem
    exact (lowerCase_ne_dash (hall c hc)).2 hdash

/-- A list of words with a dash between each two, told from the first one on. -/
lemma intercalate_cons {w : List Char} {ws : List (List Char)} :
    ['-'].intercalate (w :: ws) = w ++ ws.flatMap ('-' :: ·) := by
  induction ws generalizing w with
  | nil => simp
  | cons v ws ih => simp [ih]

/-- What a slug goes on with: the rest of the run that it is in, and a dash before each further
one. -/
lemma slugFrom_started (t : List Char) :
    slugFrom true true t = (foldedRuns t).flatMap ('-' :: ·)
      ∧ slugFrom true false t = (t.takeWhile isAlphanumeric).flatMap lowerCase
        ++ (foldedRuns (t.dropWhile isAlphanumeric)).flatMap ('-' :: ·) := by
  induction t with
  | nil => simp [slugFrom, foldedRuns, runs]
  | cons c t ih =>
      obtain ⟨hgap, hrun⟩ := ih
      cases hc : isAlphanumeric c with
      | true =>
          rw [slugFrom, slugFrom, if_pos hc, if_pos hc, hrun, foldedRuns_cons_of_pos hc]
          simp [hc]
      | false =>
          have hstep : ∀ gap, slugFrom true gap (c :: t) = slugFrom true true t := fun gap => by
            rw [slugFrom, hc]
            rfl
          rw [hstep, hstep, hgap]
          simp [hc, foldedRuns_cons_of_neg]

/-- A slug is made of the alphanumeric runs in lower case, with a dash between each two. -/
theorem slug_eq (t : List Char) : slug t = ['-'].intercalate (foldedRuns t) := by
  have hstart : ∀ gap, slugFrom false gap t = ['-'].intercalate (foldedRuns t) := by
    induction t with
    | nil => simp [slugFrom, foldedRuns, runs]
    | cons c t ih =>
        intro gap
        cases hc : isAlphanumeric c with
        | true =>
            rw [slugFrom, if_pos hc, (slugFrom_started t).2, foldedRuns_cons_of_pos hc,
              intercalate_cons]
            simp
        | false =>
            rw [slugFrom, hc, foldedRuns_cons_of_neg hc]
            exact ih true
  exact hstart false

/-- A slug tells the alphanumeric runs of a text up to case, and nothing else. -/
theorem slug_eq_slug_iff {t t' : List Char} : slug t = slug t' ↔ foldedRuns t = foldedRuns t' := by
  have hsplit : ∀ t, foldedRuns t ≠ [] → (slug t).splitOn '-' = foldedRuns t := fun t ht => by
    rw [slug_eq]
    exact List.splitOn_intercalate '-' (fun w hw => (of_mem_foldedRuns hw).2) ht
  have hnil : ∀ t, foldedRuns t = [] ↔ slug t = [] := fun t => by
    rw [slug_eq]
    cases hruns : foldedRuns t with
    | nil => simp
    | cons w ws =>
        have hw := (of_mem_foldedRuns (t := t) (w := w) (by simp [hruns])).1
        simp [intercalate_cons, hw]
  refine ⟨fun h => ?_, fun h => by rw [slug_eq, slug_eq, h]⟩
  by_cases ht : foldedRuns t = []
  · rw [ht, eq_comm, hnil, ← h, ← hnil]
    exact ht
  · have ht' : foldedRuns t' ≠ [] := fun ht' => ht ((hnil t).mpr (h ▸ (hnil t').mp ht'))
    rw [← hsplit t ht, ← hsplit t' ht', h]

/-! ### Names in ids -/

/-- What an id says about an export name: its words, which are capitalised for the catalog, in lower
case. -/
def idWords (exportName : List Char) : List (List Char) :=
  (wordsOf exportName).flatMap fun w => foldedRuns (capitalize w)

lemma foldedRuns_joinWords (ws : List (List Char)) :
    foldedRuns (joinWords ws) = ws.flatMap foldedRuns := by
  induction ws with
  | nil => rfl
  | cons w ws ih =>
      cases ws with
      | nil => simp [joinWords]
      | cons v ws =>
          have hspace : isAlphanumeric ' ' = false := by decide
          rw [joinWords, List.flatMap_cons, ← ih, foldedRuns, runs_append_cons hspace,
            List.map_append]
          · rfl
          · exact List.cons_ne_nil _ _

lemma foldedRuns_displayNameOf (exportName : List Char) :
    foldedRuns (displayNameOf exportName) = idWords exportName := by
  rw [displayNameOf, foldedRuns_joinWords, List.flatMap_map]
  rfl

/-- Two stories of a component share an id exactly if their export names have the same words, up to
case. -/
theorem storyId_eq_iff {component name name' : List Char} :
    storyId component (displayNameOf name) = storyId component (displayNameOf name')
      ↔ idWords name = idWords name' := by
  rw [storyId, storyId, List.append_cancel_left_eq, slug_eq_slug_iff, foldedRuns_displayNameOf,
    foldedRuns_displayNameOf]

/-! ### The ids of a file -/

/-- The readers that an index is made by all succeed. -/
lemma indexStories_eq_ok {source : Source} {options : IndexOptions} {i : Index}
    (h : indexStories source options = .ok i) :
    ∃ document file stories, readDocument source = .ok document
      ∧ readStoriesFile document = .ok file ∧ file.readStories = .ok stories
      ∧ file.componentInfo = .ok i.component ∧ i.stories = stories.map Story.info := by
  rw [indexStories, mapError_eq_ok_iff, readIndex] at h
  simp only [bind_eq_ok_iff, pure_eq_ok_iff] at h
  obtain ⟨document, hdocument, file, hfile, component, hcomponent, stories, hstories, rfl⟩ := h
  exact ⟨document, file, stories, hdocument, hfile, hstories, hcomponent, rfl⟩

/-- The export names in an index. -/
def Index.exportNames (i : Index) : List String :=
  i.stories.map fun s => s.names.exportName

lemma Index.exportNames_eq {i : Index} {stories : List Story}
    (h : i.stories = stories.map Story.info) : i.exportNames = exportNamesOf stories := by
  rw [exportNames, h, List.map_map]
  rfl

/-- **The ids of a file.** If the component has a name, every story has an id, which is made of that
name and of the words of its export name in lower case. The export names of a file differ from one
another, and its ids do exactly if these words do. -/
theorem indexStories_ids {source : Source} {options : IndexOptions} {i : Index} {component : String}
    (h : indexStories source options = .ok i) (hcomponent : i.component.name? = some component) :
    i.exportNames.Nodup
      ∧ i.entries.map CatalogEntry.id = i.exportNames.map (fun name => some (String.ofList
        (slug component.toList ++ ['-', '-'] ++ ['-'].intercalate (idWords name.toList))))
      ∧ ((i.entries.map CatalogEntry.id).Nodup
        ↔ (i.exportNames.map fun name => idWords name.toList).Nodup) := by
  obtain ⟨document, file, stories, -, -, hstories, -, hinfo⟩ := indexStories_eq_ok h
  have hnames : i.exportNames = exportNamesOf stories := Index.exportNames_eq hinfo
  have hids : i.entries.map CatalogEntry.id = i.exportNames.map fun name =>
      some (String.ofList (storyId component.toList (displayNameOf name.toList))) := by
    rw [Index.entries, Index.exportNames, List.map_map, List.map_map]
    refine List.map_congr_left fun s _ => ?_
    simp [ComponentInfo.entry, hcomponent]
  refine ⟨hnames ▸ nodup_exportNames hstories, ?_, ?_⟩
  · rw [hids]
    refine List.map_congr_left fun name _ => ?_
    rw [storyId, slug_eq (displayNameOf _), foldedRuns_displayNameOf]
  · rw [hids, List.Nodup, List.Nodup, List.pairwise_map, List.pairwise_map]
    refine List.Pairwise.iff fun name name' => ?_
    rw [ne_eq, ne_eq, Option.some_inj, String.ofList_inj, storyId_eq_iff]

/-- A stories file of a component with a title. -/
def buttonStories (markup : List Char) : Source :=
  ⟨"A.stories.svelte", "<script module>\n".toList
    ++ "  import \x7b defineMeta \x7d from '@storybook/addon-svelte-csf';\n".toList
    ++ "  const \x7b Story \x7d = defineMeta(\x7b title: 'Button' \x7d);\n</script>\n".toList
    ++ markup⟩

/-- A stories file with two export names, one of which has a word more. -/
def sizedStories : Source :=
  buttonStories
    ("<Story exportName=\"Primary\" />\n".toList ++ "<Story exportName=\"PrimaryLarge\" />".toList)

/-- The index of that file. -/
def sizedIndex : Index :=
  ⟨⟨none, some "Button", []⟩,
    [⟨⟨"Primary", "Primary"⟩, []⟩, ⟨⟨"PrimaryLarge", "Primary Large"⟩, []⟩]⟩

theorem sizedStories_ids :
    indexStories sizedStories ⟨false⟩ = .ok sizedIndex
      ∧ sizedIndex.component.name? = some "Button"
      ∧ sizedIndex.exportNames.Nodup
      ∧ sizedIndex.entries.map CatalogEntry.id = sizedIndex.exportNames.map (fun name =>
        some (String.ofList
          (slug "Button".toList ++ ['-', '-'] ++ ['-'].intercalate (idWords name.toList))))
      ∧ ((sizedIndex.entries.map CatalogEntry.id).Nodup
        ↔ (sizedIndex.exportNames.map fun name => idWords name.toList).Nodup)
      ∧ (sizedIndex.entries.map CatalogEntry.id).Nodup := by
  have hindex : indexStories sizedStories ⟨false⟩ = .ok sizedIndex := by
    refine toOption_eq_some_iff.mp ?_
    -- the kernel is faster with characters than with literals
    unfold sizedStories buttonStories
    repeat rewrite [String.toList_ofList]
    decide +kernel
  have hwords : (sizedIndex.exportNames.map fun name => idWords name.toList).Nodup := by
    decide +kernel
  obtain ⟨hnames, hids, hdistinct⟩ := indexStories_ids hindex rfl
  exact ⟨hindex, rfl, hnames, hids, hdistinct, hdistinct.mpr hwords⟩

/-- A stories file with two export names that differ in a capital letter only. -/
def primaryStories : Source :=
  buttonStories "<Story exportName=\"Primary\" />\n<Story exportName=\"primary\" />".toList

/-- The index of that file. -/
def primaryIndex : Index :=
  ⟨⟨none, some "Button", []⟩, [⟨⟨"Primary", "Primary"⟩, []⟩, ⟨⟨"primary", "Primary"⟩, []⟩]⟩

/-- Both stories of the file are listed under one id. -/
theorem primaryStories_share_id :
    indexStories primaryStories ⟨false⟩ = .ok primaryIndex
      ∧ primaryIndex.entries.map CatalogEntry.id
        = [some "button--primary", some "button--primary"]
      ∧ ¬ (primaryIndex.entries.map CatalogEntry.id).Nodup := by
  have hindex : indexStories primaryStories ⟨false⟩ = .ok primaryIndex := by
    refine toOption_eq_some_iff.mp ?_
    unfold primaryStories buttonStories
    repeat rewrite [String.toList_ofList]
    decide +kernel
  have hids : primaryIndex.entries.map CatalogEntry.id
      = [some "button--primary", some "button--primary"] := by decide +kernel
  refine ⟨hindex, hids, ?_⟩
  rw [hids]
  decide

end SvelteStories
