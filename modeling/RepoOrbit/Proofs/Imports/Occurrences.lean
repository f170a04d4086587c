import RepoOrbit.Imports.Occurrence
import RepoOrbit.Proofs.Lists

/-!
# What an import in plain text is

An occurrence of a form of import is its keyword, white space, a quoted specifier and, for a
call, more white space and the closing bracket (`ImportForm.Occurs`). Reading at the start of a
text finds exactly these (`here?_eq_some_iff`).

* `bodiesFrom_of_occurs`: after an occurrence the scan goes on behind it;
* `bodiesFrom_of_silent`: it goes past a stretch in which none begins.
-/

namespace RepoOrbit.ImportForm

open Text

/-! ## The parts of an occurrence -/

/-- What an occurrence begins with. -/
def keyword : ImportForm → List Char
  | .fromClause => "from".toList
  | .bareImport => "import".toList
  | .requireCall => "require(".toList

/-- Whether an occurrence may begin after a character: a word may not go on. -/
def MayBegin (form : ImportForm) (before : Option Char) : Prop := form = .requireCall ∨ wordStarts before

/-- White space that may stand between the keyword and the opening quote. -/
structure IsGap (form : ImportForm) (gap : List Char) : Prop where
  white : ∀ c ∈ gap, isWhite c
  ne_nil : form ≠ .requireCall → gap ≠ []

/-- A specifier: it begins with a point, has at least two characters and holds no quote. -/
structure IsSpecifier (body : List Char) : Prop where
  head : body.head? = some '.'
  two_le : 2 ≤ body.length
  quoteless : ∀ c ∈ body, ¬ isQuote c

/-- What stands behind the closing quote. -/
def IsClosing : ImportForm → List Char → Prop
  | .requireCall, closing => ∃ gap, (∀ c ∈ gap, isWhite c) ∧ closing = gap ++ [')']
  | _, closing => closing = []

/-- An occurrence of the form at the start of a text, with its specifier and what follows it. -/
inductive Occurs (form : ImportForm) (before : Option Char) : List Char → List Char → List Char → Prop
  | mk {gap body closing after : List Char} {q q' : Char} : form.MayBegin before → form.IsGap gap → isQuote q →
      IsSpecifier body → isQuote q' → form.IsClosing closing →
      Occurs form before (form.keyword ++ (gap ++ q :: body ++ q' :: (closing ++ after))) body after

/-! ## Reading the parts -/

theorem afterLiteral?_eq_some_iff {literal text rest : List Char} :
    afterLiteral? literal text = some rest ↔ text = literal ++ rest := by
  induction literal generalizing text with
  | nil => simp [afterLiteral?]
  | cons x xs ih =>
    cases text with
    | nil => simp [afterLiteral?]
    | cons c text =>
      rw [afterLiteral?, Option.ite_none_right_eq_some, ih, List.cons_append, List.cons.injEq, eq_comm (a := x)]

theorem afterWhite_append {gap : List Char} (hgap : ∀ c ∈ gap, isWhite c) {c : Char} (hc : ¬ isWhite c)
    (rest : List Char) : afterWhite (gap ++ c :: rest) = c :: rest := by
  induction gap with
  | nil => rw [List.nil_append, afterWhite, if_neg hc]
  | cons d gap ih =>
    obtain ⟨hd, hgap⟩ := List.forall_mem_cons.mp hgap
    rw [List.cons_append, afterWhite, if_pos hd, ih hgap]

theorem exists_gap (text : List Char) : ∃ gap, (∀ c ∈ gap, isWhite c) ∧ text = gap ++ afterWhite text := by
  induction text with
  | nil => exact ⟨[], nofun, rfl⟩
  | cons c text ih =>
    rw [afterWhite]
    split
    · rename_i hc
      obtain ⟨gap, hgap, htext⟩ := ih
      exact ⟨c :: gap, List.forall_mem_cons.mpr ⟨hc, hgap⟩, congrArg (c :: ·) htext⟩
    · exact ⟨[], nofun, rfl⟩

theorem isSpecifier_iff {body : List Char} :
    IsSpecifier body ↔ ∃ tail, body = '.' :: tail ∧ tail ≠ [] ∧ ∀ c ∈ tail, ¬ isQuote c := by
  constructor
  · rintro ⟨hhead, htwo, hquoteless⟩
    obtain ⟨tail, rfl⟩ := List.head?_eq_some_iff.mp hhead
    refine ⟨tail, rfl, ?_, fun c hc => hquoteless c (List.mem_cons_of_mem _ hc)⟩
    rintro rfl
    simp at htwo
  · rintro ⟨tail, rfl, htail, hquoteless⟩
    refine ⟨rfl, Nat.succ_le_succ (List.length_pos_iff.mpr htail), List.forall_mem_cons.mpr ⟨by decide, hquoteless⟩⟩

/-- A text is cut at its first quote. -/
theorem exists_cut (text : List Char) :
    ∃ tail close, text = tail ++ close ∧ (∀ c ∈ tail, ¬ isQuote c) ∧ ∀ c ∈ close.head?, isQuote c := by
  refine ⟨text.takeWhile (!isQuote ·), text.dropWhile (!isQuote ·), List.takeWhile_append_dropWhile.symm,
    fun c hc => by simpa using List.mem_takeWhile_imp hc, fun c hc => ?_⟩
  have hend := List.head?_dropWhile_not (!isQuote ·) text
  rw [Option.mem_def.mp hc] at hend
  simpa using hend

theorem quoted?_of_cut {q : Char} (hq : isQuote q) {tail close : List Char} (htail : ∀ c ∈ tail, ¬ isQuote c)
    (hclose : ∀ c ∈ close.head?, isQuote c) :
    quoted? (q :: '.' :: (tail ++ close)) =
      if tail = [] then none else close.head?.map fun _ => ('.' :: tail, close.tail) := by
  have hall : ∀ c ∈ tail, (!isQuote c) = true := fun c hc => by simpa using htail c hc
  have htake : (tail ++ close).takeWhile (!isQuote ·) = tail := by
    cases close with
    | nil => rw [List.append_nil, List.takeWhile_eq_self_iff.mpr hall]
    | cons q' after => exact takeWhile_append_cons hall (by simpa using hclose q' rfl)
  simp only [quoted?, hq, if_true, htake, List.drop_left]
  cases tail with
  | nil => rfl
  | cons d tail => cases close <;> rfl

theorem quoted?_eq_some_iff {text body after : List Char} :
    quoted? text = some (body, after) ↔
      ∃ q q', isQuote q ∧ IsSpecifier body ∧ isQuote q' ∧ text = q :: body ++ q' :: after := by
  constructor
  · intro h
    have hhead : ∃ q rest, isQuote q ∧ text = q :: '.' :: rest := by
      unfold quoted? at h
      split at h
      · exact ⟨_, _, (Option.ite_none_right_eq_some.mp h).1, rfl⟩
      · cases h
    obtain ⟨q, rest, hq, rfl⟩ := hhead
    obtain ⟨tail, close, rfl, htail, hclose⟩ := exists_cut rest
    rw [quoted?_of_cut hq htail hclose] at h
    cases tail with
    | nil => cases h
    | cons d tail =>
      cases close with
      | nil => cases h
      | cons q' rest =>
        obtain ⟨rfl, rfl⟩ := Prod.mk.inj (Option.some.inj h)
        exact ⟨q, q', hq, isSpecifier_iff.mpr ⟨_, rfl, List.cons_ne_nil d tail, htail⟩, hclose q' rfl, rfl⟩
  · rintro ⟨q, q', hq, hbody, hq', rfl⟩
    obtain ⟨tail, rfl, htail, hquoteless⟩ := isSpecifier_iff.mp hbody
    obtain ⟨d, tail, rfl⟩ := List.exists_cons_of_ne_nil htail
    have hclose : ∀ c ∈ (q' :: after).head?, isQuote c := fun c hc => Option.some.inj hc ▸ hq'
    exact quoted?_of_cut hq hquoteless hclose

theorem not_isWhite_of_isQuote {c : Char} (h : isQuote c) : ¬ isWhite c := by
  rcases Bool.or_eq_true_iff.mp h with h | h <;> rw [eq_of_beq h] <;> decide

/-- A quoted specifier may stand behind white space. -/
theorem quoted?_afterWhite_eq_some_iff {text body after : List Char} :
    quoted? (afterWhite text) = some (body, after) ↔ ∃ gap q q', (∀ c ∈ gap, isWhite c) ∧ isQuote q ∧
      IsSpecifier body ∧ isQuote q' ∧ text = gap ++ q :: body ++ q' :: after := by
  rw [quoted?_eq_some_iff]
  constructor
  · rintro ⟨q, q', hq, hbody, hq', htext⟩
    obtain ⟨gap, hgap, hcut⟩ := exists_gap text
    exact ⟨gap, q, q', hgap, hq, hbody, hq', by rw [hcut, htext, List.append_assoc]⟩
  · rintro ⟨gap, q, q', hgap, hq, hbody, hq', rfl⟩
    refine ⟨q, q', hq, hbody, hq', ?_⟩
    rw [List.append_assoc, List.cons_append, afterWhite_append hgap (not_isWhite_of_isQuote hq)]

/-! ## Reading an occurrence -/

theorem here?_word {form : ImportForm} (hform : form ≠ .requireCall) (before : Option Char) (text : List Char) :
    here? form before text =
      if !wordStarts before then none
      else
        match afterLiteral? form.keyword text with
        | some (c :: rest) => if isWhite c then quoted? (afterWhite rest) else none
        | _ => none := by
  cases form with
  | fromClause | bareImport => rfl
  | requireCall => exact absurd rfl hform

theorem closed_eq (body rest : List Char) :
    (match rest with
      | ')' :: after => some (body, after)
      | _ => none) = (afterLiteral? [')'] rest).map (body, ·) := by
  cases rest with
  | nil => rfl
  | cons c after =>
    by_cases hc : c = ')'
    · rw [hc]
      rfl
    · rw [afterLiteral?, if_neg (Ne.symm hc)]
      split
      · rename_i heq
        exact absurd (List.cons.inj heq).1 hc
      · rfl

theorem here?_requireCall (before : Option Char) (text : List Char) :
    here? .requireCall before text =
      (afterLiteral? (keyword .requireCall) text).bind fun rest => (quoted? (afterWhite rest)).bind fun found =>
        (afterLiteral? [')'] (afterWhite found.2)).map (found.1, ·) := by
  unfold here? keyword
  dsimp only
  generalize afterLiteral? "require(".toList text = read
  cases read with
  | none => rfl
  | some rest =>
    rw [Option.bind_some]
    dsimp only
    generalize quoted? (afterWhite rest) = found
    cases found with
    | none => rfl
    | some found => exact closed_eq found.1 (afterWhite found.2)

theorem exists_isClosing_requireCall_iff {rest after : List Char} :
    (∃ closing, IsClosing .requireCall closing ∧ rest = closing ++ after) ↔
      afterLiteral? [')'] (afterWhite rest) = some after := by
  rw [afterLiteral?_eq_some_iff]
  constructor
  · rintro ⟨_, ⟨gap, hgap, rfl⟩, rfl⟩
    rw [List.append_assoc, List.singleton_append, afterWhite_append hgap (by decide)]
  · intro h
    obtain ⟨gap, hgap, hrest⟩ := exists_gap rest
    exact ⟨gap ++ [')'], ⟨gap, hgap, rfl⟩, by rw [hrest, h, List.append_assoc]⟩

theorem here?_requireCall_eq_some_iff {before : Option Char} {text body after : List Char} :
    here? .requireCall before text = some (body, after) ↔ Occurs .requireCall before text body after := by
  rw [here?_requireCall, Option.bind_eq_some_iff]
  constructor
  · rintro ⟨rest, hrest, h⟩
    obtain ⟨⟨body', rest'⟩, hquoted, h⟩ := Option.bind_eq_some_iff.mp h
    obtain ⟨after', hafter, h⟩ := Option.map_eq_some_iff.mp h
    obtain ⟨rfl, rfl⟩ := Prod.mk.inj h
    obtain rfl := afterLiteral?_eq_some_iff.mp hrest
    obtain ⟨gap, q, q', hgap, hq, hbody, hq', rfl⟩ := quoted?_afterWhite_eq_some_iff.mp hquoted
    obtain ⟨closing, hclosing, rfl⟩ := exists_isClosing_requireCall_iff.mpr hafter
    exact .mk (.inl rfl) ⟨hgap, absurd rfl⟩ hq hbody hq' hclosing
  · rintro ⟨-, hgap, hq, hbody, hq', hclosing⟩
    rename_i gap closing q q'
    have hquoted :
        quoted? (afterWhite (gap ++ q :: body ++ q' :: (closing ++ after))) = some (body, closing ++ after) :=
      quoted?_afterWhite_eq_some_iff.mpr ⟨gap, q, q', hgap.white, hq, hbody, hq', rfl⟩
    have hafter : afterLiteral? [')'] (afterWhite (closing ++ after)) = some after :=
      exists_isClosing_requireCall_iff.mp ⟨closing, hclosing, rfl⟩
    refine ⟨_, afterLiteral?_eq_some_iff.mpr rfl, ?_⟩
    rw [hquoted, Option.bind_some, hafter, Option.map_some]

theorem here?_word_eq_some_iff {form : ImportForm} (hform : form ≠ .requireCall) {before : Option Char}
    {text body after : List Char} :
    here? form before text = some (body, after) ↔ Occurs form before text body after := by
  rw [here?_word hform]
  have hclosing_iff : ∀ closing, form.IsClosing closing ↔ closing = [] := fun closing => by
    cases form with
    | fromClause | bareImport => rfl
    | requireCall => exact absurd rfl hform
  constructor
  · intro h
    obtain ⟨hbefore, h⟩ := Option.ite_none_left_eq_some.mp h
    split at h
    · rename_i c rest hread
      obtain ⟨hc, h⟩ := Option.ite_none_right_eq_some.mp h
      obtain ⟨gap, q, q', hgap, hq, hbody, hq', rfl⟩ := quoted?_afterWhite_eq_some_iff.mp h
      obtain rfl := afterLiteral?_eq_some_iff.mp hread
      have hgap : form.IsGap (c :: gap) := ⟨List.forall_mem_cons.mpr ⟨hc, hgap⟩, fun _ => List.cons_ne_nil c gap⟩
      exact .mk (.inr (by simpa using hbefore)) hgap hq hbody hq' ((hclosing_iff []).mpr rfl)
    · cases h
  · rintro ⟨hmay, hgap, hq, hbody, hq', hclosing⟩
    rename_i gap closing q q'
    obtain rfl := (hclosing_iff closing).mp hclosing
    obtain ⟨c, gap, rfl⟩ := List.exists_cons_of_ne_nil (hgap.ne_nil hform)
    obtain ⟨hc, hwhite⟩ := List.forall_mem_cons.mp hgap.white
    have hread : afterLiteral? form.keyword (form.keyword ++ (c :: gap ++ q :: body ++ q' :: ([] ++ after))) =
        some (c :: (gap ++ q :: body ++ q' :: after)) := afterLiteral?_eq_some_iff.mpr rfl
    rw [if_neg (by simpa using hmay.resolve_left hform), hread]
    dsimp only
    rw [if_pos hc]
    exact quoted?_afterWhite_eq_some_iff.mpr ⟨gap, q, q', hwhite, hq, hbody, hq', rfl⟩

/-- What is read at the start of a text is an occurrence, and every occurrence is read. -/
theorem here?_eq_some_iff {form : ImportForm} {before : Option Char} {text body after : List Char} :
    here? form before text = some (body, after) ↔ Occurs form before text body after := by
  by_cases hform : form = .requireCall
  · rw [hform]
    exact here?_requireCall_eq_some_iff
  · exact here?_word_eq_some_iff hform

/-! ## Where an occurrence may be -/

/-- What a keyword ends with. -/
def keywordEnd : ImportForm → Char
  | .fromClause => 'm'
  | .bareImport => 't'
  | .requireCall => '('

theorem keyword_eq (form : ImportForm) : form.keyword = form.keyword.dropLast ++ [form.keywordEnd] := by
  cases form <;> rfl

theorem eq_of_keywordEnd {form form' : ImportForm} (h : form.keywordEnd = form'.keywordEnd) : form = form' := by
  cases form <;> cases form' <;> first | rfl | exact absurd h (by decide)

/-- That no character of a text is of a kind can be computed. -/
theorem forall_not_of_all {p : Char → Bool} {text : List Char} (h : text.all (!p ·)) : ∀ c ∈ text, ¬ p c := by
  simpa using h

theorem not_isWhite_of_mem_keyword {form : ImportForm} : ∀ c ∈ form.keyword, ¬ isWhite c :=
  forall_not_of_all (by cases form <;> decide)

theorem not_isQuote_of_mem_keyword {form : ImportForm} : ∀ c ∈ form.keyword, ¬ isQuote c :=
  forall_not_of_all (by cases form <;> decide)

theorem IsGap.not_isQuote {form : ImportForm} {gap : List Char} (h : form.IsGap gap) : ∀ c ∈ gap, ¬ isQuote c :=
  fun c hc hq => not_isWhite_of_isQuote hq (h.white c hc)

/-- What stands in front of a quote ends with one keyword at most. -/
theorem append_keyword_inj {form form' : ImportForm} {u u' gap gap' : List Char} (hgap : ∀ c ∈ gap, isWhite c)
    (hgap' : ∀ c ∈ gap', isWhite c) (h : u ++ form.keyword ++ gap = u' ++ form'.keyword ++ gap') :
    form = form' ∧ u = u' ∧ gap = gap' := by
  have hwhite : ∀ {gap : List Char}, (∀ c ∈ gap, isWhite c) → ∀ c ∈ gap, ¬ !isWhite c := fun h c hc => by
    simp [h c hc]
  have hblack (form : ImportForm) : !isWhite form.keywordEnd := by cases form <;> decide
  rw [keyword_eq form, keyword_eq form', ← List.append_assoc, ← List.append_assoc, List.append_assoc _ [_],
    List.append_assoc _ [_], List.singleton_append, List.singleton_append] at h
  obtain ⟨hu, hend, hgaps⟩ := append_cons_inj_of_last (hwhite hgap) (hwhite hgap') (hblack form) (hblack form') h
  obtain rfl := eq_of_keywordEnd hend
  exact ⟨rfl, List.append_cancel_right hu, hgaps⟩

/-- Of an occurrence the keyword and white space stand in front of its first quote, and a point behind it. -/
theorem Occurs.before_quote {form : ImportForm} {before : Option Char} {u v body after : List Char} {q : Char}
    (hu : ∀ c ∈ u, ¬ isQuote c) (hq : isQuote q) (h : Occurs form before (u ++ q :: v) body after) :
    v.head? = some '.' ∧ ∃ gap, form.IsGap gap ∧ u = form.keyword ++ gap := by
  generalize htext : u ++ q :: v = text at h
  obtain ⟨-, hgap, hq₀, hbody, hq', -⟩ := h
  rename_i gap closing q₀ q'
  have hquoteless : ∀ c ∈ form.keyword ++ gap, ¬ isQuote c :=
    List.forall_mem_append.mpr ⟨not_isQuote_of_mem_keyword, hgap.not_isQuote⟩
  have hcut : u ++ q :: v = (form.keyword ++ gap) ++ q₀ :: (body ++ q' :: (closing ++ after)) := by
    simpa only [List.append_assoc, List.cons_append] using htext
  obtain ⟨hu, -, rfl⟩ := append_cons_inj_of_kind hu hquoteless hq hq₀ hcut
  obtain ⟨tail, rfl, -⟩ := isSpecifier_iff.mp hbody
  exact ⟨rfl, gap, hgap, hu⟩

/-- An occurrence begins as its keyword does. -/
theorem Occurs.head {form : ImportForm} {before : Option Char} {text body after : List Char}
    (h : Occurs form before text body after) : text.head? = form.keyword.head? := by
  cases h
  cases form <;> rfl

theorem Occurs.length_lt {form : ImportForm} {before : Option Char} {text body after : List Char}
    (h : Occurs form before text body after) : after.length < text.length := by
  cases h
  simp only [List.length_append, List.length_cons]
  omega

/-- What follows an occurrence is the end of the text. -/
theorem Occurs.exists_append {form : ImportForm} {before : Option Char} {text body after : List Char}
    (h : Occurs form before text body after) : ∃ found, text = found ++ after := by
  obtain ⟨-, -, -, -, -, -⟩ := h
  rename_i gap closing q q'
  exact ⟨form.keyword ++ (gap ++ q :: body ++ q' :: closing), by simp⟩

/-! ## Going through a text -/

theorem bodiesFrom_append (form : ImportForm) (m : List Char) (before : Option Char) (t : List Char) :
    bodiesFrom form m.length before (m ++ t) = bodiesFrom form 0 (m.getLast?.or before) t := by
  induction m generalizing before with
  | nil => rfl
  | cons c m ih =>
    rw [List.length_cons, List.cons_append, bodiesFrom, ih, List.getLast?_cons, Option.some_or]
    cases m.getLast? <;> rfl

/-- After an occurrence the scan goes on behind it. -/
theorem bodiesFrom_of_occurs {form : ImportForm} {before : Option Char} {m body after : List Char}
    (h : Occurs form before (m ++ after) body after) :
    bodiesFrom form 0 before (m ++ after) = body :: bodiesFrom form 0 (m.getLast?.or before) after := by
  cases m with
  | nil => exact absurd h.length_lt (Nat.lt_irrefl _)
  | cons c m =>
    have hread := here?_eq_some_iff.mpr h
    have hskip : (m ++ after).length - after.length = m.length := by
      rw [List.length_append, Nat.add_sub_cancel]
    rw [List.cons_append] at hread ⊢
    rw [bodiesFrom, hread]
    dsimp only
    rw [hskip, bodiesFrom_append, List.getLast?_cons]
    cases m.getLast? <;> rfl

/-- No occurrence of the form begins in a stretch of a text, which goes on with `rest`. -/
def Silent (form : ImportForm) (stretch rest : List Char) : Prop :=
  ∀ u, u <:+ stretch → u ≠ [] → ∀ before body after, ¬ Occurs form before (u ++ rest) body after

theorem Silent.append {form : ImportForm} {stretch stretch' rest : List Char}
    (h : form.Silent stretch (stretch' ++ rest)) (h' : form.Silent stretch' rest) :
    form.Silent (stretch ++ stretch') rest := by
  rintro u ⟨p, hcut⟩ hne before body after
  rcases List.append_eq_append_iff.mp hcut with ⟨u', rfl, rfl⟩ | ⟨p', rfl, rfl⟩
  · rcases eq_or_ne u' [] with rfl | hne'
    · exact h' stretch' List.suffix_rfl hne before body after
    · rw [List.append_assoc]
      exact h u' (List.suffix_append p u') hne' before body after
  · exact h' u (List.suffix_append p' u) hne before body after

/-- None begins where no character is of its keyword. -/
theorem silent_of_forall_not_mem {form : ImportForm} {stretch : List Char} (h : ∀ c ∈ stretch, c ∉ form.keyword)
    (rest : List Char) : form.Silent stretch rest := by
  rintro u hu hne before body after hoccurs
  obtain ⟨c, u, rfl⟩ := List.exists_cons_of_ne_nil hne
  exact h c (hu.subset List.mem_cons_self) (List.mem_of_head? hoccurs.head.symm)

/-- The scan goes past a stretch in which no occurrence begins. -/
theorem bodiesFrom_of_silent {form : ImportForm} {stretch rest : List Char} (h : form.Silent stretch rest)
    (before : Option Char) :
    bodiesFrom form 0 before (stretch ++ rest) = bodiesFrom form 0 (stretch.getLast?.or before) rest := by
  induction stretch generalizing before with
  | nil => rfl
  | cons c stretch ih =>
    have hnone : here? form before (c :: stretch ++ rest) = none :=
      Option.eq_none_iff_forall_ne_some.mpr fun found hfound =>
        h (c :: stretch) List.suffix_rfl (List.cons_ne_nil c stretch) before found.1 found.2
          (here?_eq_some_iff.mp hfound)
    rw [List.cons_append] at hnone ⊢
    rw [bodiesFrom, hnone]
    dsimp only
    rw [ih fun u hu => h u (hu.trans (List.suffix_cons c stretch)), List.getLast?_cons]
    cases stretch.getLast? <;> rfl

end RepoOrbit.ImportForm
