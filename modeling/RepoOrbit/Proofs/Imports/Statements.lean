import RepoOrbit.Imports.Specifier
import RepoOrbit.Proofs.Imports.Occurrences
import RepoOrbit.Proofs.Sorting

/-!
# Statements that import, read back

A script of nothing but statements that import (`ImportStatement`), scanned for one form of import,
gives the specifiers of the statements of that form, whatever stands between their quotes
(`bodies_script`). The first quote of an occurrence has a point behind it, and of the two quotes of
a statement only the opening one has.

* `specifiersOf_script`: scanned for all forms, the script gives the specifiers of all its
  statements and no others.
-/

namespace RepoOrbit

open ImportForm

/-- A way of writing a statement that imports, with the name it binds if it binds one. -/
inductive StatementKind where
  /-- `import x from '…'`. -/
  | importFrom (binding : List Char)
  /-- `export * from '…'`. -/
  | exportAll
  /-- `import '…'`. -/
  | bareImport
  /-- `const x = require('…')`. -/
  | requireCall (binding : List Char)

namespace StatementKind

/-- The form of import that the statement holds. -/
def form : StatementKind → ImportForm
  | .importFrom _ | .exportAll => .fromClause
  | .bareImport => .bareImport
  | .requireCall _ => .requireCall

/-- What stands in front of the form's keyword. -/
def lead : StatementKind → List Char
  | .importFrom binding => "import ".toList ++ binding ++ [' ']
  | .exportAll => "export * ".toList
  | .bareImport => []
  | .requireCall binding => "const ".toList ++ binding ++ [' ', '=', ' ']

theorem lead_eq_nil_or (kind : StatementKind) : kind.lead = [] ∨ ∃ front, kind.lead = front ++ [' '] := by
  cases kind with
  | importFrom binding => exact .inr ⟨"import ".toList ++ binding, rfl⟩
  | exportAll => exact .inr ⟨"export *".toList, rfl⟩
  | bareImport => exact .inl rfl
  | requireCall binding =>
    exact .inr ⟨"const ".toList ++ binding ++ [' ', '='], (List.append_assoc _ [' ', '='] [' ']).symm⟩

/-- A keyword behind the lead is not the end of a longer word. -/
theorem wordStarts_lead (kind : StatementKind) {before : Option Char} (h : wordStarts before) :
    wordStarts (kind.lead.getLast?.or before) := by
  rcases kind.lead_eq_nil_or with hlead | ⟨front, hlead⟩
  · rw [hlead]
    exact h
  · rw [hlead, List.getLast?_concat, Option.some_or]
    decide

end StatementKind

/-- A statement that imports, as it is written. Its specifier stands between two equal quotes, and no
other quote is in it. -/
structure ImportStatement where
  kind : StatementKind
  gap : List Char
  quote : Char
  specifier : List Char
  closing : List Char
  quoteless : ∀ c ∈ kind.lead, ¬ isQuote c
  isGap : kind.form.IsGap gap
  isQuote : isQuote quote
  isSpecifier : IsSpecifier specifier
  isClosing : kind.form.IsClosing closing

namespace ImportStatement

/-- A statement from its keyword on. -/
def occurrence (st : ImportStatement) : List Char :=
  st.kind.form.keyword ++ (st.gap ++ st.quote :: st.specifier ++ st.quote :: st.closing)

/-- What ends a statement. -/
def lineEnd : List Char := [';', '\n']

/-- The text of a statement. -/
def text (st : ImportStatement) : List Char := st.kind.lead ++ st.occurrence ++ lineEnd

/-- Statements, each with a line of its own. -/
def script (sts : List ImportStatement) : List Char := sts.flatMap text

/-- What a statement names. -/
def name (st : ImportStatement) : String := String.ofList st.specifier

/-! ## One statement -/

/-- A statement up to its opening quote. -/
def front (st : ImportStatement) : List Char := st.kind.lead ++ st.kind.form.keyword ++ st.gap

theorem not_isQuote_of_mem_front (st : ImportStatement) : ∀ c ∈ st.front, ¬ ImportForm.isQuote c :=
  List.forall_mem_append.mpr
    ⟨List.forall_mem_append.mpr ⟨st.quoteless, not_isQuote_of_mem_keyword⟩, st.isGap.not_isQuote⟩

/-- In front of the opening quote only the statement's own form can begin, at its keyword. -/
theorem eq_of_occurs_front (st : ImportStatement) {form : ImportForm} {before : Option Char}
    {u v body after : List Char} (hu : u <:+ st.front) (h : Occurs form before (u ++ st.quote :: v) body after) :
    st.kind.form = form ∧ u = st.kind.form.keyword ++ st.gap := by
  obtain ⟨p, hcut⟩ := hu
  have hquoteless : ∀ c ∈ u, ¬ ImportForm.isQuote c := fun c hc =>
    st.not_isQuote_of_mem_front c (hcut ▸ List.mem_append_right p hc)
  obtain ⟨-, gap, hgap, rfl⟩ := h.before_quote hquoteless st.isQuote
  rw [← List.append_assoc] at hcut
  obtain ⟨rfl, -, rfl⟩ := append_keyword_inj st.isGap.white hgap.white hcut.symm
  exact ⟨rfl, rfl⟩

theorem silent_lead (st : ImportStatement) (form : ImportForm) (v : List Char) :
    form.Silent st.kind.lead (st.kind.form.keyword ++ st.gap ++ st.quote :: v) := by
  rintro u ⟨p, hcut⟩ hne before body after hoccurs
  rw [← List.append_assoc] at hoccurs
  have hsuffix : u ++ (st.kind.form.keyword ++ st.gap) <:+ st.front :=
    ⟨p, by rw [← List.append_assoc, hcut, front, List.append_assoc]⟩
  obtain ⟨-, hu⟩ := st.eq_of_occurs_front hsuffix hoccurs
  exact hne (List.append_left_eq_self.mp hu)

theorem silent_front (st : ImportStatement) {form : ImportForm} (hform : st.kind.form ≠ form) (v : List Char) :
    form.Silent st.front (st.quote :: v) :=
  fun _ hu _ _ _ _ hoccurs => hform (st.eq_of_occurs_front hu hoccurs).1

theorem isWhite_or_of_mem_closing (st : ImportStatement) : ∀ c ∈ st.closing, Text.isWhite c ∨ c = ')' := by
  have hclosing := st.isClosing
  generalize st.kind.form = form at hclosing
  cases form with
  | fromClause | bareImport =>
    rw [show st.closing = [] from hclosing]
    exact nofun
  | requireCall =>
    obtain ⟨gap, hgap, heq⟩ := hclosing
    rw [heq]
    exact List.forall_mem_append.mpr ⟨fun c hc => .inl (hgap c hc), fun c hc => .inr (List.mem_singleton.mp hc)⟩

/-- No point follows the closing quote. -/
theorem head?_closing_ne (st : ImportStatement) (rest : List Char) :
    (st.closing ++ (lineEnd ++ rest)).head? ≠ some '.' := by
  cases hclosing : st.closing with
  | nil => simp [lineEnd]
  | cons c closing =>
    intro heq
    obtain rfl : c = '.' := Option.some.inj heq
    have hpoint := st.isWhite_or_of_mem_closing '.' (hclosing ▸ List.mem_cons_self)
    exact absurd hpoint (by decide)

theorem silent_specifier (st : ImportStatement) (form : ImportForm) (rest : List Char) :
    form.Silent st.specifier ([st.quote] ++ (st.closing ++ lineEnd) ++ rest) := by
  rintro u hu - before body after hoccurs
  have hquoteless : ∀ c ∈ u, ¬ ImportForm.isQuote c := fun c hc => st.isSpecifier.quoteless c (hu.subset hc)
  rw [List.append_assoc, List.singleton_append, List.append_assoc] at hoccurs
  exact st.head?_closing_ne rest (hoccurs.before_quote hquoteless st.isQuote).1

theorem silent_quote (st : ImportStatement) (form : ImportForm) (rest : List Char) :
    form.Silent [st.quote] rest := by
  refine silent_of_forall_not_mem (fun c hc hk => ?_) rest
  rw [List.mem_singleton.mp hc] at hk
  exact not_isQuote_of_mem_keyword _ hk st.isQuote

theorem silent_lineEnd (form : ImportForm) (rest : List Char) : form.Silent lineEnd rest := by
  have hapart : lineEnd.all (!form.keyword.contains ·) := by cases form <;> decide
  exact silent_of_forall_not_mem (by simpa using hapart) rest

theorem silent_closing (st : ImportStatement) (form : ImportForm) (rest : List Char) :
    form.Silent st.closing rest := by
  refine silent_of_forall_not_mem (fun c hc hk => ?_) rest
  rcases st.isWhite_or_of_mem_closing c hc with hwhite | rfl
  · exact not_isWhite_of_mem_keyword c hk hwhite
  · exact absurd hk (by cases form <;> decide)

/-- To the other forms a statement is silent, whatever its specifier holds. -/
theorem silent_text (st : ImportStatement) {form : ImportForm} (hform : st.kind.form ≠ form) (rest : List Char) :
    form.Silent st.text rest := by
  have hend := (st.silent_closing form (lineEnd ++ rest)).append (silent_lineEnd form rest)
  have hclose := (st.silent_quote form _).append hend
  have hspecifier := (st.silent_specifier form rest).append hclose
  have hopen := (st.silent_quote form _).append hspecifier
  have htext := (st.silent_front hform _).append hopen
  simpa only [text, occurrence, front, List.append_assoc, List.cons_append, List.nil_append] using htext

theorem occurs (st : ImportStatement) {before : Option Char} (hbefore : wordStarts before) (after : List Char) :
    Occurs st.kind.form before (st.occurrence ++ after) st.specifier after := by
  rw [occurrence, List.append_assoc, List.append_assoc, List.cons_append]
  exact .mk (.inr hbefore) st.isGap st.isQuote st.isSpecifier st.isQuote st.isClosing

/-- A statement gives its specifier to its own form and nothing to the others. -/
theorem bodiesFrom_text (st : ImportStatement) (form : ImportForm) {before : Option Char} (hbefore : wordStarts before)
    (rest : List Char) :
    bodiesFrom form 0 before (st.text ++ rest) =
      (if st.kind.form = form then [st.specifier] else []) ++ bodiesFrom form 0 (some '\n') rest := by
  split
  · rename_i hform
    subst hform
    have htext : st.text ++ rest = st.kind.lead ++ (st.occurrence ++ (lineEnd ++ rest)) := by
      simp [text, occurrence]
    have hlead : st.kind.form.Silent st.kind.lead (st.occurrence ++ (lineEnd ++ rest)) := by
      simpa [occurrence] using
        st.silent_lead st.kind.form (st.specifier ++ st.quote :: (st.closing ++ (lineEnd ++ rest)))
    rw [htext, bodiesFrom_of_silent hlead, bodiesFrom_of_occurs (st.occurs (st.kind.wordStarts_lead hbefore) _),
      bodiesFrom_of_silent (silent_lineEnd st.kind.form rest)]
    rfl
  · rename_i hform
    have hlast : st.text.getLast? = some '\n' := by
      rw [text, List.getLast?_append]
      rfl
    rw [bodiesFrom_of_silent (st.silent_text hform rest), hlast, Option.some_or, List.nil_append]

/-! ## A script -/

theorem bodiesFrom_script (sts : List ImportStatement) (form : ImportForm) {before : Option Char}
    (hbefore : wordStarts before) :
    bodiesFrom form 0 before (script sts) = (sts.filter (·.kind.form = form)).map specifier := by
  induction sts generalizing before with
  | nil => rfl
  | cons st sts ih =>
    rw [script, List.flatMap_cons, st.bodiesFrom_text form hbefore, ← script, ih (by decide), List.filter_cons]
    split <;> simp_all

/-- Of a script each form is found in its own statements. -/
theorem bodies_script (sts : List ImportStatement) (form : ImportForm) :
    form.bodies (script sts) = (sts.filter (·.kind.form = form)).map specifier :=
  bodiesFrom_script sts form rfl

end ImportStatement

/-! ## Scanning a script -/

namespace SpecifierStrategy

/-- The plan for plain text never fails, and finds what any form finds. -/
theorem exists_runPlan_plainPlan (text : String) :
    ∃ found, runPlan plainPlan text = .ok found ∧
      ∀ s, s ∈ found ↔ ∃ form : ImportForm, s ∈ (form.bodies text.toList).map String.ofList := by
  refine ⟨_, rfl, fun s => ?_⟩
  rw [List.nil_append, List.mem_append, List.mem_append]
  constructor
  · rintro ((hs | hs) | hs)
    · exact ⟨.fromClause, hs⟩
    · exact ⟨.bareImport, hs⟩
    · exact ⟨.requireCall, hs⟩
  · rintro ⟨form, hs⟩
    cases form with
    | fromClause => exact .inl (.inl hs)
    | bareImport => exact .inl (.inr hs)
    | requireCall => exact .inr hs

theorem runPlan_parsedPlan_of_unparsed {g : ScriptGrammar} {text : String}
    (h : g.language.tree? text.toList = none) : runPlan (parsedPlan g) text = .error ⟨g⟩ := by
  have hextract : (SpecifierStrategy.tree g).extract text = .error ⟨g⟩ := by
    rw [extract, h]
  rw [runPlan, parsedPlan, List.foldlM_cons, hextract]
  rfl

end SpecifierStrategy

/-- A file is scanned as plain text: its suffix calls for no grammar, or its text does not parse. -/
def ScannedAsPlain (path : Path) (text : String) : Prop :=
  ∀ g, ScriptGrammar.ofSuffix? path.suffix = some g → g.language.tree? text.toList = none

theorem scannedAsPlain_of_suffix {path : Path} (h : path.suffix = ".jsx" ∨ path.suffix = ".tsx") (text : String) :
    ScannedAsPlain path text := by
  rcases h with h | h <;> (rw [ScannedAsPlain, h]; exact nofun)

theorem specifiersOf_of_scannedAsPlain {path : Path} {text : String} (h : ScannedAsPlain path text)
    {found : List String} (hfound : SpecifierStrategy.runPlan SpecifierStrategy.plainPlan text = .ok found) :
    specifiersOf path text = sortedTexts found := by
  have hnone : ((ScriptGrammar.ofSuffix? path.suffix).bind fun g =>
      (SpecifierStrategy.runPlan (SpecifierStrategy.parsedPlan g) text).toOption) = none := by
    refine Option.bind_eq_none_iff.mpr fun g hg => ?_
    rw [SpecifierStrategy.runPlan_parsedPlan_of_unparsed (h g hg)]
    rfl
  rw [specifiersOf, hnone, hfound]
  rfl

namespace ImportStatement

/-- A script of statements that import, scanned as plain text, gives the specifiers of its statements
and nothing else: in files of the two suffixes without a grammar, and in every file that does not parse. -/
theorem specifiersOf_script (sts : List ImportStatement) :
    (∃ found, SpecifierStrategy.runPlan SpecifierStrategy.plainPlan (String.ofList (script sts)) = .ok found ∧
      ∀ s, s ∈ found ↔ ∃ st ∈ sts, st.name = s) ∧
    ∀ path : Path, path.suffix = ".jsx" ∨ path.suffix = ".tsx" ∨ ScannedAsPlain path (String.ofList (script sts)) →
      specifiersOf path (String.ofList (script sts)) = sortedTexts (sts.map name) := by
  obtain ⟨found, hfound, hmem⟩ := SpecifierStrategy.exists_runPlan_plainPlan (String.ofList (script sts))
  have hnames : ∀ s, s ∈ found ↔ ∃ st ∈ sts, st.name = s := by
    intro s
    rw [hmem, String.toList_ofList]
    simp only [bodies_script, List.mem_map, List.mem_filter, decide_eq_true_eq]
    constructor
    · rintro ⟨form, _, ⟨st, ⟨hst, -⟩, rfl⟩, hs⟩
      exact ⟨st, hst, hs⟩
    · rintro ⟨st, hst, hs⟩
      exact ⟨st.kind.form, st.specifier, ⟨st, ⟨hst, rfl⟩, rfl⟩, hs⟩
  refine ⟨⟨found, hfound, hnames⟩, fun path hpath => ?_⟩
  have hplain : ScannedAsPlain path (String.ofList (script sts)) := by
    rcases hpath with h | h | h
    · exact scannedAsPlain_of_suffix (.inl h) _
    · exact scannedAsPlain_of_suffix (.inr h) _
    · exact h
  rw [specifiersOf_of_scannedAsPlain hplain hfound]
  refine mergeSort_eraseReps_eq sorts_texts (fun a b => eq_of_textLe) fun s => ?_
  rw [hnames, List.mem_map]

/-- A statement whose specifier ends as another one begins. -/
def reExport : ImportStatement where
  kind := .exportAll
  gap := [' ']
  quote := '\''
  specifier := "./copied from ".toList
  closing := []
  quoteless := forall_not_of_all (by decide)
  isGap := ⟨List.forall_mem_singleton.mpr (by decide), fun _ => List.cons_ne_nil _ _⟩
  isQuote := rfl
  isSpecifier := ⟨rfl, by decide, forall_not_of_all (by decide)⟩
  isClosing := rfl

theorem specifiersOf_script_reExport :
    String.ofList (script [reExport]) = "export * from './copied from ';\n" ∧
      specifiersOf ⟨.relative, ["view.tsx"]⟩ (String.ofList (script [reExport])) = sortedTexts ["./copied from "] :=
  ⟨by decide, (specifiersOf_script [reExport]).2 _ (.inr (.inl (by decide)))⟩

end ImportStatement

end RepoOrbit
