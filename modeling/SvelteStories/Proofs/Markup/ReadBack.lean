/-
Templates that are read back:

* `NodeReader.Restores`: a reader of templates gives back the parts that were written, up to a size;
* `readElement_markup`, `readBlock_markup`, …: a part is given back if the parts in it are;
* `beginning_markup`: each part is told by what its markup begins with;
* `restores_readNodes`: the reader of templates gives back all parts;
* `readDocument_markup`: a file with the markup of parts holds a document with these parts.
-/
import Mathlib.Data.List.Infix
import SvelteStories.Proofs.Markup.Document
import SvelteStories.Proofs.Markup.SimpleParts
import SvelteStories.Proofs.Script.Moved

namespace SvelteStories

namespace Markup

open Place

variable {source : Source} {read : ExpressionReader} {p q : Place}

/-! ### Readers of children -/

/-- The ending that closes what encloses parts. -/
def Enclosure.ending : Enclosure → Ending
  | document => .text
  | element _ => .tag
  | block => .clause

/-- A reader gives back the parts that were written, as long as their markup is shorter than a
limit and is closed by what encloses it. -/
def NodeReader.Restores (source : Source) (read : ExpressionReader) (children : NodeReader)
    (limit : Nat) : Prop :=
  ∀ (enclosure : Enclosure) ⦃parts : List Part⦄ ⦃p q : Place⦄, p.In source →
    ValidParts read parts → (markup parts).length < limit → p.Reads (markup parts) q →
    beginning q.rest = .ending enclosure.ending →
    ∃ nodes, children enclosure p = .ok (nodes, q) ∧ partsOf source nodes = parts

section

variable {children : NodeReader} {limit : Nat}

/-! ### Elements -/

lemma readContent_markup {name : List Char} {selfClosing : Bool} {content : List Part}
    (opening : Place) (hchildren : children.Restores source read limit) (hp : p.In source)
    (hname : IsElementName name) (hvoid : name.map Char.toLower ∉ voidElements)
    (hraw : name.map Char.toLower ∉ rawTextElements) (hempty : selfClosing = true → content = [])
    (hcontent : ValidParts read content) (hlimit : (markup content).length < limit)
    (h : p.Reads (if selfClosing then [] else markup content ++ closingTag name) q) :
    ∃ f, readContent children name selfClosing opening p = .ok (f, q)
      ∧ f.parts source = content := by
  cases selfClosing with
  | true =>
      obtain rfl : p = q := h.after_eq
      refine ⟨⟨p.spanTo p, []⟩, by simp [readContent], ?_⟩
      rw [hempty rfl]
      rfl
  | false =>
      obtain ⟨m, hm, hclosing⟩ := reads_append_iff.mp h
      have hending : beginning m.rest = .ending .tag := by
        simp [hclosing.1, closingTag, beginning]
      obtain ⟨nodes, hnodes, hparts⟩ :=
        hchildren (.element name) hp hcontent hlimit hm hending
      refine ⟨⟨p.spanTo m, nodes⟩, ?_, by rw [Fragment.parts, hparts]⟩
      simp only [readContent, hnodes, readClosingTag_markup hclosing hname, ok_bind]
      simp [hvoid, hraw, pure, Except.pure]

lemma length_le_length_tagMarkup (tag : List TagPart) : tag.length ≤ (tagMarkup tag).length := by
  induction tag with
  | nil => rfl
  | cons a tag ih =>
      simp only [tagMarkup, List.length_cons, List.length_append]
      omega

/-- Behind the name of an element stands a blank or the end of its tag. -/
lemma not_isElementNamePart_of_reads {tag : List TagPart} {selfClosing : Bool} {s : List Char}
    (h : p.Reads (tagMarkup tag ++ (tagEnd selfClosing ++ s)) q) :
    ∀ c, p.rest.head? = some c → isElementNamePart c = false := by
  intro c hc
  have hhead : c = ' ' ∨ c = '>' := by
    rw [h.1] at hc
    cases tag with
    | nil => cases selfClosing <;> simp [tagMarkup, tagEnd] at hc <;> simp [← hc]
    | cons a tag => exact Or.inl (by simpa [tagMarkup] using hc.symm)
  rcases hhead with rfl | rfl <;> decide

lemma readElement_markup {kind : ElementKind} {name : List Char} {tag : List TagPart}
    {selfClosing : Bool} {content : List Part}
    (hchildren : children.Restores source read limit) (hp : p.In source)
    (hvalid : (Part.element kind name tag selfClosing content).Valid read)
    (hlimit : (markup content).length < limit)
    (h : p.Reads (Part.element kind name tag selfClosing content).markup q) :
    ∃ n, readElement read children p = .ok (n, q)
      ∧ n.part source = .element kind name tag selfClosing content := by
  cases hvalid with
  | element hname hvoid hraw htag hempty hseparate hvalid =>
      rw [Part.markup, List.append_assoc, List.append_assoc, List.cons_append] at h
      obtain ⟨a, hopen, ha⟩ := reads_cons_iff.mp h
      obtain ⟨b, hb, hbehind⟩ := reads_append_iff.mp ha
      have hnext := not_isElementNamePart_of_reads hbehind
      rw [← List.append_assoc] at hbehind
      obtain ⟨inside, hinside, hcontent⟩ := reads_append_iff.mp hbehind
      have hin := (hp.of_reads hopen).of_reads hb
      have hfuel : tag.length < p.rest.length + 1 := by
        have hlength := length_le_length_tagMarkup tag
        simp only [h.1, List.length_append, List.length_cons]
        omega
      obtain ⟨attributes, hattributes, htags⟩ :=
        readAttributes_markup p name hin htag hinside hfuel
      obtain ⟨f, hf, hparts⟩ := readContent_markup p hchildren (hin.of_reads hinside) hname hvoid
        hraw hempty ⟨hseparate, hvalid⟩ hlimit hcontent
      refine ⟨.element ⟨p.spanTo q, .ofName name, name, attributes, f, selfClosing⟩, ?_, ?_⟩
      · have hrun : (p.after ['<']).run isElementNamePart = name := by
          rw [hopen.after_eq]
          exact hb.run_eq hname.forall hnext
        have hafter : p.after ('<' :: name) = b := (hopen.trans hb).after_eq
        simp only [readElement, hrun, hafter, hattributes, hf, ok_bind]
        rfl
      · rw [Node.part, Element.part, htags, hparts]

/-! ### Snippets -/

/-- The parameters of a snippet stand where they were written. -/
lemma slice_parameterSpan {header : Header} {word name parameters : List Char}
    (hheader : header.Holds source word (name ++ '(' :: (parameters ++ [')'])))
    (hname : ∀ c ∈ name, isSnippetNamePart c = true) :
    source.slice (parameterSpan header) = parameters := by
  obtain ⟨m, m', hm, hreads, hspan⟩ := hheader.place (by simp)
  obtain ⟨a, ha, hbehind⟩ := reads_append_iff.mp hreads
  obtain ⟨b, hb, hparameters⟩ := reads_cons_iff.mp hbehind
  obtain ⟨b', hb', -⟩ := reads_append_iff.mp hparameters
  have hopen : ∀ c ∈ name, (c != '(') = true := by
    intro c hc
    rw [bne_iff_ne]
    rintro rfl
    exact absurd (hname _ hc) (by decide)
  have hbefore : header.code.takeWhile (· != '(') = name := by
    rw [hheader.code_eq, List.takeWhile_append_of_pos hopen]
    simp
  have hnothing : header.code.reverse.takeWhile (· != ')') = [] := by
    simp [hheader.code_eq]
  have htake : header.code.take (header.code.length - 0 - 1) = name ++ '(' :: parameters := by
    have hcode : header.code = (name ++ '(' :: parameters) ++ [')'] := by simp [hheader.code_eq]
    rw [hcode]
    exact List.take_left' (by simp)
  have hparens : (header.code.contains '(' && header.code.contains ')') = true := by
    simp [hheader.code_eq]
  have hplace : parameterSpan header = b.spanTo b' := by
    have hparen : '('.utf8Size = 1 := by decide
    have hstart : b.offset = m.offset + byteLength name + 1 := by
      rw [hb.2, ha.2, byteLength_cons, hparen, byteLength_nil]
    have hstop : b'.offset = m.offset + (byteLength name + (1 + byteLength parameters)) := by
      rw [hb'.2, hstart]
      omega
    simp only [parameterSpan, hbefore, hnothing, List.length_nil, htake, hspan, hparens,
      Bool.true_and, spanTo, decide_eq_true_eq, byteLength_append, byteLength_cons, hparen]
    rw [if_pos (by omega), hstart, hstop]
  rw [hplace]
  exact slice_of_reads ((hm.of_reads ha).of_reads hb) hb'

lemma readSnippet_markup {header : Header} {name parameters : List Char} {body : List Part}
    (opening : Place) (hchildren : children.Restores source read limit) (hp : p.In source)
    (hheader : header.Holds source "snippet".toList (name ++ '(' :: (parameters ++ [')'])))
    (hne : name ≠ []) (hname : ∀ c ∈ name, isSnippetNamePart c = true)
    (hbody : ValidParts read body) (hlimit : (markup body).length < limit)
    (h : p.Reads (markup body ++ inBraces ('/' :: "snippet".toList)) q) :
    ∃ n, readSnippet children header opening p = .ok (n, q)
      ∧ n.part source = .snippet name parameters body := by
  obtain ⟨clause, hbody', hclause⟩ := reads_append_iff.mp h
  have hending : beginning clause.rest = .ending .clause := by
    simp [hclause.1, inBraces, beginning]
  obtain ⟨nodes, hnodes, hparts⟩ := hchildren .block hp hbody hlimit hbody' hending
  have hbraced := braced_eq_ok hclause (code_slash_cons (by decide))
  have hstarts : clause.startsWith ['{', '/'] = true := by
    simp [startsWith, hclause.1, inBraces]
  have hread : (header.code.takeWhile fun c => isAsciiAlphanumeric c || c = '_' || c = '$')
      = name := by
    change header.code.takeWhile isSnippetNamePart = name
    rw [hheader.code_eq, List.takeWhile_append_of_pos hname]
    simp [isSnippetNamePart, isAsciiAlphanumeric, isAsciiLetter, isAsciiDigit]
  have hsnippet : trim "snippet".toList = "snippet".toList := by decide
  refine ⟨.snippet ⟨opening.spanTo q, name, parameterSpan header, ⟨p.spanTo clause, nodes⟩⟩,
    ?_, ?_⟩
  · simp only [readSnippet, hread, hnodes, ok_bind, hstarts, hbraced, List.drop_one, List.tail_cons,
      hsnippet]
    simp [hne, pure, Except.pure]
  · rw [Node.part, Snippet.part, slice_parameterSpan hheader hname, Fragment.parts, hparts]

/-! ### Blocks -/

/-- The code of a clause stands between its colon and its closing brace. -/
lemma slice_clause {code : List Char} (hp : p.In source)
    (h : p.Reads (inBraces (':' :: code)) q) :
    source.slice ⟨p.offset + 2, q.offset - 1⟩ = code := by
  obtain ⟨m, m', hopen, hinside, hclose, -⟩ := reads_brace h
  obtain ⟨a, hcolon, hcode⟩ := reads_cons_iff.mp hinside
  have hspan : a.spanTo m' = ⟨p.offset + 2, q.offset - 1⟩ := by
    have ha : a.offset = m.offset + 1 := hcolon.2
    have hm : m.offset = p.offset + 1 := hopen.2
    have hq : q.offset = m'.offset + 1 := hclose.2
    simp [spanTo, ha, hm, hq]
  rw [← hspan]
  exact slice_of_reads ((hp.of_reads hopen).of_reads hcolon) hcode

/-- The branches of a block and its closing clause. -/
lemma readBranches_markup {kind : List Char} {first : List Part} {others : List Branch}
    {fuel : Nat} (hchildren : children.Restores source read limit) (hp : p.In source)
    (hkind : ∀ c ∈ kind, isAsciiLetter c = true) (htrim : trim kind = kind)
    (hfirst : ValidParts read first)
    (hothers : ∀ b ∈ others, Code b.clause ∧ ValidParts read b.parts)
    (hlimit : (markup first ++ markupOfBranches others).length < limit)
    (h : p.Reads (markup first ++ (markupOfBranches others ++ inBraces ('/' :: kind))) q)
    (hfuel : others.length < fuel) :
    ∃ f fs, readBranches children kind fuel p = .ok (f :: fs, q) ∧ f.span.start = p.offset
      ∧ f.parts source = first ∧ branchesOf source f.span.stop fs = others := by
  induction others generalizing p first fuel with
  | nil =>
      obtain ⟨fuel, rfl⟩ : ∃ n, fuel = n + 1 := ⟨fuel - 1, by omega⟩
      obtain ⟨clause, hm, hclause⟩ := reads_append_iff.mp h
      have hending : beginning clause.rest = .ending .clause := by
        simp [hclause.1, markupOfBranches, inBraces, beginning]
      obtain ⟨nodes, hnodes, hparts⟩ :=
        hchildren .block hp hfirst (by simpa [markupOfBranches] using hlimit) hm
          hending
      have hbraced := braced_eq_ok hclause (code_slash_cons hkind)
      refine ⟨⟨p.spanTo clause, nodes⟩, [], ?_, rfl, by rw [Fragment.parts, hparts],
        by rw [branchesOf]⟩
      simp [readBranches, hnodes, hbraced, htrim, pure, Except.pure]
  | cons b others ih =>
      obtain ⟨fuel, rfl⟩ : ∃ n, fuel = n + 1 := ⟨fuel - 1, by omega⟩
      obtain ⟨code, parts⟩ := b
      obtain ⟨hsecond, hrest⟩ := List.forall_mem_cons.mp hothers
      obtain ⟨hcode, hbranch⟩ : Code code ∧ ValidParts read parts := hsecond
      obtain ⟨clause, hm, hclause⟩ := reads_append_iff.mp h
      rw [markupOfBranches, Branch.markup, List.append_assoc, List.append_assoc] at hclause
      obtain ⟨m, hclause, hbehind⟩ := reads_append_iff.mp hclause
      simp only [markupOfBranches, Branch.markup, List.length_append] at hlimit
      have hending : beginning clause.rest = .ending .clause := by
        simp [hclause.1, inBraces, beginning]
      obtain ⟨nodes, hnodes, hparts⟩ :=
        hchildren .block hp hfirst (by omega) hm hending
      have hin := hp.of_reads hm
      have hcode' : Code (':' :: code) :=
        code_append_of_plain (s := [':']) (by simp [IsPlain]) hcode
      obtain ⟨f, fs, hread, hstart, hf, hfs⟩ := ih (hin.of_reads hclause) hbranch hrest
        (by rw [List.length_append]; omega) hbehind (by simpa using hfuel)
      refine ⟨⟨p.spanTo clause, nodes⟩, f :: fs, ?_, rfl, by rw [Fragment.parts, hparts], ?_⟩
      · simp [readBranches, hnodes, braced_eq_ok hclause hcode', hread, pure, Except.pure]
      · rw [branchesOf, hf, hfs, hstart]
        simp only [spanTo]
        rw [slice_clause hin hclause]

/-- The words of blocks with branches are letters, and not the word of a snippet. -/
lemma branchingBlocks_spec : ∀ kind ∈ branchingBlocks,
    (∀ c ∈ kind, isAsciiLetter c = true) ∧ trim kind = kind ∧ kind ≠ "snippet".toList := by
  decide

lemma length_le_length_markupOfBranches (branches : List Branch) :
    branches.length ≤ (markupOfBranches branches).length := by
  induction branches with
  | nil => simp
  | cons b branches ih =>
      obtain ⟨clause, parts⟩ := b
      simp only [markupOfBranches, Branch.markup, inBraces, List.length_cons, List.length_append]
      omega

lemma readBlock_markup {kind code : List Char} {first : List Part} {others : List Branch}
    (hchildren : children.Restores source read limit) (hp : p.In source)
    (hvalid : (Part.block kind code first others).Valid read)
    (hlimit : (markup first ++ markupOfBranches others).length < limit)
    (h : p.Reads (Part.block kind code first others).markup q) :
    ∃ n, readBlock children p = .ok (n, q) ∧ n.part source = .block kind code first others := by
  cases hvalid with
  | block hkind hcode htrim hseparate hfirst hbranch hothers =>
      obtain ⟨hletters, hword, hsnippet⟩ := branchingBlocks_spec kind hkind
      rw [Part.markup, List.append_assoc, List.append_assoc] at h
      obtain ⟨inside, hopen, hinside⟩ := reads_append_iff.mp h
      obtain ⟨hbraced, hheader⟩ := braced_headed hp hopen (by simp [IsPlain]) hletters hcode htrim
      set header := Header.ofCode (p.offset + 1) (headed '#' kind code)
      have hfuel : others.length < inside.rest.length + 1 := by
        have hlength := length_le_length_markupOfBranches others
        simp only [hinside.1, List.length_append]
        omega
      obtain ⟨f, fs, hread, -, hf, hfs⟩ := readBranches_markup hchildren (hp.of_reads hopen)
        hletters hword ⟨hseparate, hfirst⟩
        (fun b hb => ⟨(hbranch b hb).1, (hbranch b hb).2, hothers b hb⟩) hlimit hinside hfuel
      refine ⟨.block ⟨p.spanTo q, header.word, header.span, f :: fs⟩, ?_, ?_⟩
      · have hother : header.word ≠ "snippet".toList := by
          rw [hheader.word_eq]
          exact hsnippet
        have hbranching : branchingBlocks.contains header.word = true := by
          rw [hheader.word_eq]
          exact List.contains_iff_mem.mpr hkind
        simp only [readBlock, hbraced, ok_bind]
        rw [if_neg hother, if_pos hbranching, hheader.word_eq, hread]
        rfl
      · rw [Node.part, Block.part, hheader.word_eq, hheader.slice_eq, hf, hfs]

/-- No name of a snippet holds a blank. -/
lemma isBlank_of_snippetNamePart {c : Char} (h : isSnippetNamePart c = true) :
    isBlank c = false := by
  have hrange : c.toNat < 0x80 ∧ 0x20 < c.toNat := by
    simp only [isSnippetNamePart, isAsciiAlphanumeric, isAsciiLetter, isAsciiDigit,
      Bool.or_eq_true, Bool.and_eq_true, decide_eq_true_eq] at h
    rcases h with (h | rfl) | rfl
    · omega
    · decide
    · decide
  obtain ⟨hascii, hsign⟩ := hrange
  have hspace : c.toNat ≠ 0x20 := by omega
  have hline : ¬ c.toNat ≤ 13 := by omega
  simp [isBlank, hascii, hspace, hline]

/-- Nothing is cut off a name with parameters. -/
lemma trim_signature {name parameters : List Char} (hne : name ≠ [])
    (hname : ∀ c ∈ name, isSnippetNamePart c = true) :
    trim (name ++ '(' :: (parameters ++ [')'])) = name ++ '(' :: (parameters ++ [')']) := by
  rw [trim_eq_self_iff, trimStart_eq_self_iff, trimEnd_eq_self_iff]
  constructor
  · intro c hc
    obtain ⟨d, rest, rfl⟩ := List.exists_cons_of_ne_nil hne
    obtain rfl : d = c := by simpa using hc
    exact isBlank_of_snippetNamePart (hname d List.mem_cons_self)
  · intro c hc
    have hlast : name ++ '(' :: (parameters ++ [')']) = name ++ '(' :: parameters ++ [')'] := by
      simp
    rw [hlast, List.getLast?_concat] at hc
    obtain rfl := Option.some.inj hc
    decide

lemma readBlock_snippet_markup {name parameters : List Char} {body : List Part}
    (hchildren : children.Restores source read limit) (hp : p.In source)
    (hvalid : (Part.snippet name parameters body).Valid read)
    (hlimit : (markup body).length < limit)
    (h : p.Reads (Part.snippet name parameters body).markup q) :
    ∃ n, readBlock children p = .ok (n, q) ∧ n.part source = .snippet name parameters body := by
  cases hvalid with
  | snippet hne hname hcode hseparate hbody =>
      rw [Part.markup, List.append_assoc] at h
      obtain ⟨inside, hopen, hinside⟩ := reads_append_iff.mp h
      have hparameters : Code (name ++ '(' :: (parameters ++ [')'])) := by
        refine code_append_of_plain (fun c hc => isPlain_of_snippetNamePart (hname c hc)) ?_
        exact code_append_of_plain (s := ['(']) (by simp [IsPlain])
          (code_append_singleton hcode (by simp [IsPlain]) (by decide))
      obtain ⟨hbraced, hheader⟩ := braced_headed hp hopen (by simp [IsPlain]) (by decide)
        hparameters (trim_signature hne hname)
      set header := Header.ofCode (p.offset + 1)
        (headed '#' "snippet".toList (name ++ '(' :: (parameters ++ [')'])))
      obtain ⟨n, hn, hpart⟩ := readSnippet_markup p hchildren (hp.of_reads hopen) hheader hne hname
        ⟨hseparate, hbody⟩ hlimit hinside
      refine ⟨n, ?_, hpart⟩
      simp only [readBlock, hbraced, ok_bind]
      rw [if_pos hheader.word_eq, hn]

/-! ### Templates -/

/-- The form that a part begins with. -/
def Part.form : Part → NodeForm
  | text _ => .text
  | comment _ => .comment
  | element _ _ _ _ _ => .element
  | expression _ => .expression
  | snippet _ _ _ | block _ _ _ _ => .block
  | tag _ _ => .tag

/-- A part is told by what its markup begins with. -/
lemma beginning_markup {part : Part} {r : List Char} (h : part.Valid read)
    (hr : part.isText = true → textRun r = []) :
    beginning (part.markup ++ r) = .node part.form := by
  cases h with
  | text hne hdata => exact beginning_append hne hdata (hr rfl)
  | comment _ => simp [Part.markup, beginning, Part.form]
  | element hname _ _ _ _ _ _ =>
      obtain ⟨c, rest, rfl, hletter, -⟩ := hname
      simp only [Part.markup, Part.form, List.cons_append, List.append_assoc]
      exact beginning_of_letter hletter
  | @expression code hcode hsign =>
      rw [Part.markup, Part.form, inBraces, List.cons_append]
      refine beginning_of_brace fun c hc => ?_
      cases code with
      | nil =>
          rintro ⟨rfl⟩
          exact absurd hc (by decide)
      | cons d code => exact hsign c hc
  | snippet _ _ _ _ _ => simp [Part.markup, inBraces, headed, beginning, Part.form]
  | block _ _ _ _ _ _ _ => simp [Part.markup, inBraces, headed, beginning, Part.form]
  | tag _ _ _ => simp [Part.markup, inBraces, headed, beginning, Part.form]

/-- A part is given back if the parts in it are. -/
theorem readNode_markup {part : Part} (hchildren : children.Restores source read limit)
    (hp : p.In source) (hvalid : part.Valid read) (hlimit : part.markup.length ≤ limit)
    (h : p.Reads part.markup q) (hq : part.isText = true → textRun q.rest = []) :
    ∃ n, readNode read children part.form p = .ok (n, q) ∧ n.part source = part := by
  cases part with
  | text data =>
      cases hvalid with
      | text hne hdata =>
          obtain ⟨n, hn, hpart⟩ := readText_markup h hne hdata (hq rfl)
          exact ⟨n, congrArg Except.ok hn, hpart⟩
  | comment data =>
      cases hvalid with
      | comment hdata => exact readComment_markup h hdata
  | element kind name tag selfClosing content =>
      refine readElement_markup hchildren hp hvalid ?_ h
      simp only [Part.markup, List.cons_append, List.length_cons, List.length_append] at hlimit
      cases selfClosing with
      | true =>
          cases hvalid with
          | element _ _ _ _ hempty _ _ =>
              rw [hempty rfl, markup, List.length_nil]
              omega
      | false =>
          simp only [Bool.false_eq_true, if_false, List.length_append] at hlimit
          omega
  | expression code =>
      cases hvalid with
      | expression hcode _ => exact readExpressionTag_markup hp h hcode
  | snippet name parameters body =>
      refine readBlock_snippet_markup hchildren hp hvalid ?_ h
      simp only [Part.markup, inBraces, List.length_append, List.length_cons] at hlimit
      omega
  | block kind code first others =>
      refine readBlock_markup hchildren hp hvalid ?_ h
      simp only [Part.markup, inBraces, List.length_append, List.length_cons] at hlimit ⊢
      omega
  | tag kind code =>
      cases hvalid with
      | tag hkind hcode htrim => exact readTag_markup hp h hkind hcode htrim

lemma markup_ne_nil {part : Part} (h : part.Valid read) : part.markup ≠ [] := by
  cases h with
  | text hne _ => exact hne
  | comment _ => simp [Part.markup]
  | element _ _ _ _ _ _ _ | expression _ _ | snippet _ _ _ _ _ | block _ _ _ _ _ _ _
  | tag _ _ _ => simp [Part.markup, inBraces]

lemma ValidParts.tail {part : Part} {parts : List Part} (h : ValidParts read (part :: parts)) :
    ValidParts read parts :=
  ⟨h.separate.tail, fun p hp => h.valid p (List.mem_cons_of_mem _ hp)⟩

/-- Behind text stands something else. -/
lemma ValidParts.endsText {part : Part} {parts : List Part} {ending : Ending}
    (h : ValidParts read (part :: parts)) (hp : p.Reads (markup parts) q)
    (hq : beginning q.rest = .ending ending) (htext : part.isText = true) :
    textRun p.rest = [] := by
  refine textRun_eq_nil ?_
  rw [hp.1]
  cases parts with
  | nil => simp [markup, hq]
  | cons next parts =>
      have hnext : ¬ next.isText = true := fun hnext =>
        List.isChain_cons_cons.mp h.separate |>.1 ⟨htext, hnext⟩
      have hvalid := h.valid next (List.mem_cons_of_mem _ List.mem_cons_self)
      rw [markup, List.append_assoc, beginning_markup hvalid fun hn => absurd hn hnext]
      cases next <;> simp_all [Part.isText, Part.form]

end

/-- The reader of templates gives back all parts. -/
theorem restores_readNodes (source : Source) (read : ExpressionReader) (fuel : Nat) :
    NodeReader.Restores source read (readNodes read fuel) fuel := by
  induction fuel with
  | zero => exact fun _ _ _ _ _ _ hlimit => absurd hlimit (Nat.not_lt_zero _)
  | succ fuel ih =>
      intro enclosure parts p q hp hvalid hlimit h hq
      cases parts with
      | nil =>
          obtain rfl : p = q := h.after_eq
          refine ⟨[], ?_, by rw [partsOf]⟩
          have hclose : enclosure.close enclosure.ending p = .ok () := by cases enclosure <;> rfl
          simp only [readNodes, hq, hclose, ok_bind]
          rfl
      | cons part parts =>
          obtain ⟨m, hpart, hrest⟩ := reads_append_iff.mp h
          have hfirst := hvalid.valid part List.mem_cons_self
          have hpositive := List.length_pos_iff.mpr (markup_ne_nil hfirst)
          rw [markup, List.length_append] at hlimit
          have htext := hvalid.endsText hrest hq
          obtain ⟨n, hn, hnpart⟩ := readNode_markup ih hp hfirst (by omega) hpart htext
          obtain ⟨nodes, hnodes, hparts⟩ :=
            ih enclosure (hp.of_reads hpart) hvalid.tail (by omega) hrest hq
          refine ⟨n :: nodes, ?_, by rw [partsOf, hnpart, hparts]⟩
          have hbeginning : beginning p.rest = .node part.form := by
            rw [hpart.1]
            exact beginning_markup hfirst htext
          simp only [readNodes, hbeginning, hn, hnodes, ok_bind]
          rfl

/-! ### Component files -/

lemma partsOf_eq_map (source : Source) (nodes : List Node) :
    partsOf source nodes = nodes.map (Node.part source) := by
  induction nodes with
  | nil => rw [partsOf, List.map_nil]
  | cons n nodes ih => rw [partsOf, List.map_cons, ih]

/-- No part is an element with nothing but text in it. -/
lemma elementNamed?_eq_none {n : Node} {name : String} (h : (n.part source).Valid read)
    (hraw : name.toList.map Char.toLower ∈ rawTextElements) : n.elementNamed? name = none := by
  cases n with
  | element e =>
      obtain ⟨span, kind, found, attributes, fragment, selfClosing⟩ := e
      rw [Node.part, Element.part] at h
      cases h with
      | element _ _ hfound _ _ _ _ =>
          rw [Node.elementNamed?, if_neg]
          rintro rfl
          exact hfound hraw
  | text _ _ | comment _ _ | expression _ _ | snippet _ | block _ | tag _ _ _ => rfl

end Markup

open Markup

/-- A file with the markup of parts holds a document with these parts, without scripts and
styles. -/
theorem readDocument_markup (name : String) {parts : List Part}
    (h : ValidParts readAttributeExpression parts) :
    ∃ doc, readDocument ⟨name, markup parts⟩ = .ok doc ∧ doc.scripts = ⟨none, none⟩
      ∧ doc.styles = [] ∧ doc.fragment.parts ⟨name, markup parts⟩ = parts := by
  set source : Source := ⟨name, markup parts⟩
  have hreads : (Place.start source.text).Reads (markup parts) ⟨source.length, []⟩ :=
    ⟨by simp [Place.start, source], by simp [Place.start, source, Source.length]⟩
  obtain ⟨nodes, hnodes, hparts⟩ := restores_readNodes source readAttributeExpression
    (source.text.length + 1) .document (.refl _) h (Nat.lt_succ_self _) hreads rfl
  have htemplate : readTemplate readAttributeExpression source.text = .ok nodes := by
    rw [readTemplate, hnodes]
    rfl
  have hvalid : ∀ n ∈ nodes, (n.part source).Valid readAttributeExpression := fun n hn => by
    refine h.valid _ ?_
    rw [← hparts, partsOf_eq_map]
    exact List.mem_map.mpr ⟨n, hn, rfl⟩
  have hplain : ∀ n ∈ nodes, n.IsTemplate := fun n hn =>
    ⟨elementNamed?_eq_none (hvalid n hn) (by decide),
      elementNamed?_eq_none (hvalid n hn) (by decide)⟩
  exact ⟨_, readDocument_of_readTemplate name htemplate hplain, rfl, rfl,
    by rw [Fragment.parts, hparts]⟩

/-- A component file with parts of all forms. -/
def writtenParts : List Part :=
  [.text "a < b".toList, .comment " c- ".toList,
    .element (.ofName "Story".toList) "Story".toList
      [.plain "open".toList .none, .plain "name".toList (.text "A".toList),
        .plain "args".toList (.code "x".toList), .spread "rest".toList,
        .directive "on".toList "click".toList (some "f".toList)] false
      [.expression "n".toList, .element (.ofName "p".toList) "p".toList [] true []],
    .block "if".toList "c".toList [.text "d".toList]
      [⟨"else".toList, [.tag "html".toList "e".toList]⟩],
    .snippet "row".toList "\x7b r \x7d".toList []]

/-- An identifier is an expression wherever it stands. -/
lemma readAttributeExpression_x (offset : Nat) :
    ∃ value, readAttributeExpression offset "x".toList = .ok value := by
  have hok : (readAttributeExpression 0 "x".toList).isOk = true := by decide +kernel
  cases h : readAttributeExpression 0 "x".toList with
  | error f =>
      rw [h] at hok
      exact absurd hok Bool.false_ne_true
  | ok value =>
      obtain ⟨value', hvalue', -⟩ := Script.parseExpression_moved h offset
      exact ⟨value', hvalue'⟩

lemma writtenParts_valid : ValidParts readAttributeExpression writtenParts := by
  have hcode : ∀ {w : List Char}, (BraceScan.start.steps w = some BraceScan.start) → Code w :=
    fun h => code_iff_steps.mpr ⟨_, h, rfl⟩
  have hnothing : ∀ {P : Part → Prop}, ∀ p ∈ ([] : List Part), P p := fun _ h =>
    absurd h List.not_mem_nil
  refine ⟨by unfold Separate; decide, ?_⟩
  simp only [writtenParts, List.forall_mem_cons]
  refine ⟨.text (by decide) ⟨by decide, fun c hc hinfix => ?_⟩, .comment (by decide), ?_, ?_, ?_,
    hnothing⟩
  · -- the sign that could begin a tag stands before a blank
    have hblank : c = ' ' := by simpa [List.infix_cons_iff] using hinfix
    subst hblank
    exact absurd hc (by decide)
  · refine .element ⟨'S', "tory".toList, by decide, by decide, by decide⟩ (by decide) (by decide)
      ?_ (by decide) (by unfold Separate; decide) ?_
    · simp only [List.forall_mem_cons]
      exact ⟨.bare ⟨by decide, by decide⟩ (by decide),
        .text ⟨by decide, by decide⟩ (by decide) (by decide) (by decide),
        .code ⟨by decide, by decide⟩ (by decide) (hcode (by decide)) (by decide)
          readAttributeExpression_x,
        .spread (hcode (by decide)) (by decide),
        .directive (by decide) (by decide) (by simpa using hcode (by decide)),
        fun _ h => absurd h List.not_mem_nil⟩
    · simp only [List.forall_mem_cons]
      exact ⟨.expression (hcode (by decide)) (by decide),
        .element ⟨'p', [], by decide, by decide, by decide⟩ (by decide) (by decide)
          (fun _ h => absurd h List.not_mem_nil) (fun _ => rfl) .nil hnothing, hnothing⟩
  · refine .block (by decide) (hcode (by decide)) (by decide) (.singleton _) ?_ ?_ ?_
    · simp only [List.forall_mem_cons]
      refine ⟨.text (by decide) ⟨by decide, fun c _ hinfix => ?_⟩, hnothing⟩
      simp [List.infix_cons_iff] at hinfix
    · simp only [List.forall_mem_cons]
      exact ⟨⟨hcode (by decide), .singleton _⟩, fun _ h => absurd h List.not_mem_nil⟩
    · simp only [List.forall_mem_cons]
      exact ⟨⟨.tag (by decide) (hcode (by decide)) (by decide), hnothing⟩,
        fun _ h => absurd h List.not_mem_nil⟩
  · exact .snippet (by decide) (by decide) (hcode (by decide)) .nil hnothing

theorem writtenParts_readBack :
    ValidParts readAttributeExpression writtenParts
      ∧ ∃ doc, readDocument ⟨"Written.svelte", markup writtenParts⟩ = .ok doc
        ∧ doc.scripts = ⟨none, none⟩ ∧ doc.styles = []
        ∧ doc.fragment.parts ⟨"Written.svelte", markup writtenParts⟩ = writtenParts :=
  ⟨writtenParts_valid, readDocument_markup "Written.svelte" writtenParts_valid⟩

end SvelteStories
