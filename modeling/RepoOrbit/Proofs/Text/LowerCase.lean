import Mathlib.Data.List.Basic
import Mathlib.Data.Nat.ModEq
import RepoOrbit.Text.LowerCase

/-!
# Texts in lower case

A text that is in lower case stays as it is (`lowerFrom_lowerFrom`): no small letter of a run
of letters is a capital letter of another one, as any two runs lie apart
(`caseRuns_all_apart`, checked for all of them). A character without case (`isUncased`) stands
in a text in lower case as often as in the text it was made of (`count_lowerFrom`).

No character outside of ASCII becomes a text of small ASCII letters other than k
(`lowerAt_cases`): only the run of the sign for kelvin leads from there into ASCII
(`caseRuns_all_wide`, checked for all of them too).
-/

namespace RepoOrbit.Text

namespace CaseRun

variable {r r' : CaseRun} {m n : Nat}

def firstSmall (r : CaseRun) : Nat := (r.first + r.shift).toNat

def lastSmall (r : CaseRun) : Nat := (r.last + r.shift).toNat

/-- Whether there is a character wherever there is a small letter of a run. -/
def hasCharacters (r : CaseRun) : Bool :=
  0 ≤ r.first + r.shift && (r.lastSmall < 0xD800 || (0xE000 ≤ r.firstSmall && r.lastSmall < 0x110000))

/-- Whether no small letter of a run is a capital letter of another: one of them lies behind the
other, or the letters of both take turns. -/
def apart (r r' : CaseRun) : Bool :=
  r.lastSmall.blt r'.first || r'.last.blt r.firstSmall ||
    ((r.first == r.last || r.step % r'.step == 0) && r.firstSmall % r'.step != r'.first % r'.step)

theorem lower?_eq_some_iff :
    r.lower? n = some m ↔
      (r.first ≤ n ∧ n ≤ r.last ∧ (n - r.first) % r.step = 0) ∧ ((n : Int) + r.shift).toNat = m := by
  simp [lower?]

/-- A small letter lies as far from the first one as its capital letter from the first of those. -/
theorem small_of_lower? (hr : r.hasCharacters) (h : r.lower? n = some m) :
    r.firstSmall ≤ m ∧ m ≤ r.lastSmall ∧ m - r.firstSmall = n - r.first := by
  simp only [hasCharacters, Bool.and_eq_true, decide_eq_true_eq] at hr
  obtain ⟨⟨hfirst, hlast, -⟩, hm⟩ := lower?_eq_some_iff.mp h
  simp only [firstSmall, lastSmall]
  omega

/-- Whether a code point lies between the first and the last small letter of a run. -/
def spansSmall (r : CaseRun) (n : Nat) : Bool := r.firstSmall.ble n && n.ble r.lastSmall

theorem spansSmall_of_lower? (hr : r.hasCharacters) (h : r.lower? n = some m) : r.spansSmall m := by
  obtain ⟨hfirst, hlast, -⟩ := small_of_lower? hr h
  simp [spansSmall, hfirst, hlast]

theorem isValidChar_of_lower? (hr : r.hasCharacters) (h : r.lower? n = some m) : m.isValidChar := by
  obtain ⟨hfirst, hlast, -⟩ := small_of_lower? hr h
  simp only [hasCharacters, Bool.and_eq_true, Bool.or_eq_true, decide_eq_true_eq] at hr
  rw [Nat.isValidChar]
  omega

/-- A small letter of a run is no capital letter of one that is apart from it. -/
theorem lower?_eq_none_of_apart (hr : r.hasCharacters) (hapart : r.apart r') (h : r.lower? n = some m) :
    r'.lower? m = none := by
  rw [Option.eq_none_iff_forall_ne_some]
  intro k hk
  obtain ⟨⟨hfirst', hlast', hstep'⟩, -⟩ := lower?_eq_some_iff.mp hk
  obtain ⟨⟨hfirst, hlast, hstep⟩, -⟩ := lower?_eq_some_iff.mp h
  obtain ⟨hfirstSmall, hlastSmall, hdistance⟩ := small_of_lower? hr h
  simp only [apart, Bool.or_eq_true, Bool.and_eq_true, beq_iff_eq, bne_iff_ne, Nat.blt_eq] at hapart
  rcases hapart with (hbefore | hbehind) | ⟨hstrides, hturns⟩
  · exact absurd hfirst' (by omega)
  · exact absurd hlast' (by omega)
  · have hsmall : r'.step ∣ m - r.firstSmall := by
      rw [hdistance]
      rcases hstrides with hone | hstrides
      · have hn : n - r.first = 0 := by omega
        simp [hn]
      · exact (Nat.dvd_of_mod_eq_zero hstrides).trans (Nat.dvd_of_mod_eq_zero hstep)
    refine hturns ?_
    calc r.firstSmall % r'.step = m % r'.step := (Nat.modEq_iff_dvd' hfirstSmall).mpr hsmall
      _ = r'.first % r'.step := ((Nat.modEq_iff_dvd' hfirst').mpr (Nat.dvd_of_mod_eq_zero hstep')).symm

end CaseRun

theorem caseRuns_hasCharacters : ∀ r ∈ caseRuns.toList, r.hasCharacters := by decide +kernel

/-! ## Characters -/

theorem toLower_of_not_isUpper {c : Char} (h : ¬ c.isUpper) : c.toLower = c := dif_neg (mt decide_eq_true h)

theorem toNat_ofNat {n : Nat} (h : n.isValidChar) : (Char.ofNat n).toNat = n := by
  rw [Char.ofNat, dif_pos h]
  rfl

/-- The capital letters of ASCII. -/
def latin : CaseRun := ⟨0x41, 0x5A, 1, 32⟩

theorem latin_mem : latin ∈ caseRuns.toList := List.mem_cons_self

theorem latin_lower?_of_isUpper {c : Char} (h : c.isUpper) : latin.lower? c.toNat = some c.toLower.toNat := by
  have hall : ∀ n < 0x80, (Char.ofNat n).isUpper → latin.lower? n = some (Char.ofNat n).toLower.toNat := by
    decide +kernel
  obtain ⟨-, hlast⟩ : 0x41 ≤ c.toNat ∧ c.toNat ≤ 0x5A := of_decide_eq_true h
  have hc := hall c.toNat (by omega)
  rw [Char.ofNat_toNat] at hc
  exact hc h

/-- The lower-case form of a character: itself, the two characters that a dotted capital I
becomes, or the small letter of a capital one. -/
theorem lowerChar_cases (c : Char) :
    lowerChar c = [c] ∨ (c.toNat = 0x130 ∧ lowerChar c = ['i', Char.ofNat 0x307]) ∨
      ∃ d, lowerChar c = [d] ∧ ∃ r ∈ caseRuns.toList, r.lower? c.toNat = some d.toNat := by
  unfold lowerChar
  rw [← Array.findSome?_toList]
  split
  · by_cases hupper : c.isUpper
    · exact .inr (.inr ⟨_, rfl, latin, latin_mem, latin_lower?_of_isUpper hupper⟩)
    · exact .inl (by rw [toLower_of_not_isUpper hupper])
  · split
    · rename_i hdotted
      exact .inr (.inl ⟨hdotted, rfl⟩)
    · split
      · rename_i n hn
        obtain ⟨r, hr, hlower⟩ := List.exists_of_findSome?_eq_some hn
        have hvalid := CaseRun.isValidChar_of_lower? (caseRuns_hasCharacters r hr) hlower
        exact .inr (.inr ⟨_, rfl, r, hr, by rwa [toNat_ofNat hvalid]⟩)
      · exact .inl rfl

/-- What stands in the lower-case form of a character: itself, one of the two characters that
a dotted capital I becomes, or the small letter of a capital one. -/
theorem mem_lowerChar {c d : Char} (h : d ∈ lowerChar c) :
    (d = c ∧ lowerChar c = [c]) ∨ d = 'i' ∨ d = Char.ofNat 0x307 ∨
      ∃ r ∈ caseRuns.toList, r.lower? c.toNat = some d.toNat := by
  rcases lowerChar_cases c with hself | ⟨-, htwo⟩ | ⟨d', hone, hlower⟩
  · exact .inl ⟨List.mem_singleton.mp (hself ▸ h), hself⟩
  · rcases List.mem_pair.mp (htwo ▸ h) with rfl | rfl
    · exact .inr (.inl rfl)
    · exact .inr (.inr (.inl rfl))
  · obtain rfl := List.mem_singleton.mp (hone ▸ h)
    exact .inr (.inr (.inr hlower))

/-- Whether a character is no capital letter. -/
def isNoCapital (c : Char) : Bool := c.toNat != 0x130 && caseRuns.toList.all fun r => r.lower? c.toNat == none

theorem isNoCapital_iff {c : Char} :
    isNoCapital c ↔ c.toNat ≠ 0x130 ∧ ∀ r ∈ caseRuns.toList, r.lower? c.toNat = none := by
  simp only [isNoCapital, Bool.and_eq_true, bne_iff_ne, List.all_eq_true, beq_iff_eq]

theorem lowerChar_of_isNoCapital {c : Char} (h : isNoCapital c) : lowerChar c = [c] := by
  obtain ⟨hdotted, hnone⟩ := isNoCapital_iff.mp h
  unfold lowerChar
  split
  · have hplain : ¬ c.isUpper := by
      intro hupper
      exact Option.some_ne_none _ ((latin_lower?_of_isUpper hupper).symm.trans (hnone latin latin_mem))
    rw [toLower_of_not_isUpper hplain]
  · rw [← Array.findSome?_toList, List.findSome?_eq_none_iff.mpr hnone]

/-- Whether a character is no capital letter, and stands in the lower-case form of none. -/
def isUncased (d : Char) : Bool :=
  d != 'i' && d != 'ς' && d != Char.ofNat 0x307 && caseRuns.toList.all (!·.spansSmall d.toNat) && isNoCapital d

theorem lowerChar_of_isUncased {d : Char} (hd : isUncased d) : lowerChar d = [d] :=
  lowerChar_of_isNoCapital ((Bool.and_eq_true _ _).mp hd).2

theorem eq_of_mem_lowerChar {c d : Char} (hd : isUncased d) (h : d ∈ lowerChar c) : d = c := by
  simp only [isUncased, Bool.and_eq_true, bne_iff_ne] at hd
  obtain ⟨⟨⟨⟨hi, -⟩, hdot⟩, hspans⟩, -⟩ := hd
  rcases mem_lowerChar h with ⟨rfl, -⟩ | rfl | rfl | ⟨r, hr, hlower⟩
  · rfl
  · exact absurd rfl hi
  · exact absurd rfl hdot
  · have hnot := List.all_eq_true.mp hspans r hr
    rw [CaseRun.spansSmall_of_lower? (caseRuns_hasCharacters r hr) hlower] at hnot
    exact absurd hnot Bool.false_ne_true

/-! ## Texts -/

variable {before rest : List Char}

theorem lowerChar_sigma : lowerChar 'Σ' = ['σ'] := by decide +kernel

theorem mem_lowerAt {c d : Char} (h : d ∈ lowerAt before c rest) : d = 'ς' ∨ d ∈ lowerChar c := by
  unfold lowerAt at h
  split at h
  · rename_i hsigma
    rw [List.mem_singleton.mp h, hsigma]
    split
    · exact .inl rfl
    · exact .inr (lowerChar_sigma ▸ List.mem_singleton_self _)
  · exact .inr h

theorem ne_sigma_of_lowerChar {c : Char} (h : lowerChar c = [c]) : c ≠ 'Σ' := by
  rintro rfl
  rw [lowerChar_sigma] at h
  exact absurd h (by decide)

theorem lowerAt_of_lowerChar {c : Char} (h : lowerChar c = [c]) : lowerAt before c rest = [c] := by
  rw [lowerAt, if_neg (ne_sigma_of_lowerChar h), h]

theorem eq_of_mem_lowerAt {c d : Char} (hd : isUncased d) (h : d ∈ lowerAt before c rest) : d = c := by
  rcases mem_lowerAt h with rfl | hlower
  · exact absurd hd (by decide)
  · exact eq_of_mem_lowerChar hd hlower

theorem lowerFrom_ne_nil {l : List Char} (h : l ≠ []) : lowerFrom before l ≠ [] := by
  obtain ⟨c, l, rfl⟩ := List.exists_cons_of_ne_nil h
  have hchar : lowerChar c ≠ [] := by
    rcases lowerChar_cases c with hself | ⟨-, htwo⟩ | ⟨d, hone, -⟩
    · exact hself ▸ List.cons_ne_nil _ _
    · exact htwo ▸ List.cons_ne_nil _ _
    · exact hone ▸ List.cons_ne_nil _ _
  refine List.append_ne_nil_of_left_ne_nil ?_ _
  unfold lowerAt
  split
  · exact List.cons_ne_nil _ _
  · exact hchar

theorem count_lowerAt {c d : Char} (hd : isUncased d) : (lowerAt before c rest).count d = [c].count d := by
  by_cases hcd : d = c
  · rw [← hcd, lowerAt_of_lowerChar (lowerChar_of_isUncased hd)]
  · rw [List.count_eq_zero.mpr fun h => hcd (eq_of_mem_lowerAt hd h), List.count_eq_zero.mpr (by simpa using hcd)]

/-- A text in lower case has as many of a character without case as before. -/
theorem count_lowerFrom {d : Char} (hd : isUncased d) (before l : List Char) :
    (lowerFrom before l).count d = l.count d := by
  induction l generalizing before with
  | nil => rfl
  | cons c l ih =>
    rw [lowerFrom, List.count_append, ih, count_lowerAt hd, ← List.count_append]
    rfl

theorem mem_lowerFrom_iff {d : Char} (hd : isUncased d) {before l : List Char} : d ∈ lowerFrom before l ↔ d ∈ l := by
  rw [← List.count_pos_iff, count_lowerFrom hd, List.count_pos_iff]

/-! ## Latin letters -/

/-- The small letters of ASCII that no single character outside of it becomes: all but k, which
the sign for kelvin becomes too. -/
def isOwnSmall (d : Char) : Bool := 'a' ≤ d && d ≤ 'z' && d != 'k'

theorem toNat_lt_of_isOwnSmall {d : Char} (h : isOwnSmall d) : d.toNat < 0x80 := by
  simp only [isOwnSmall, Bool.and_eq_true, decide_eq_true_eq] at h
  exact Nat.lt_of_le_of_lt h.1.2 (by decide)

/-- The small letters of a run lie outside of ASCII, or its capital letters do not, or it is the
sign for kelvin. -/
theorem caseRuns_all_wide : (caseRuns.toList.all fun r => 0x80 ≤ r.firstSmall || r.last < 0x80 ||
    (r.firstSmall == 'k'.toNat && r.lastSmall == 'k'.toNat)) = true := by decide +kernel

theorem not_isOwnSmall_of_lower? {r : CaseRun} (hr : r ∈ caseRuns.toList) {c d : Char} (hc : ¬ c.toNat < 0x80)
    (h : r.lower? c.toNat = some d.toNat) : ¬ isOwnSmall d := by
  intro hd
  have hsmall := toNat_lt_of_isOwnSmall hd
  obtain ⟨hfirst, hlast, -⟩ := CaseRun.small_of_lower? (caseRuns_hasCharacters r hr) h
  obtain ⟨⟨-, hwithin, -⟩, -⟩ := CaseRun.lower?_eq_some_iff.mp h
  have hwide := List.all_eq_true.mp caseRuns_all_wide r hr
  simp only [Bool.or_eq_true, Bool.and_eq_true, decide_eq_true_eq, beq_iff_eq] at hwide
  rcases hwide with (hbehind | hnarrow) | ⟨hk, hk'⟩
  · omega
  · omega
  · have hkelvin : d = 'k' := Char.toNat_inj.mp (Nat.le_antisymm (hk' ▸ hlast) (hk ▸ hfirst))
    rw [hkelvin] at hd
    exact absurd hd (by decide)

/-- Outside of ASCII, the lower-case form of a character is no text of these letters. -/
theorem exists_not_isOwnSmall {c : Char} (hc : ¬ c.toNat < 0x80) : ∃ d ∈ lowerChar c, ¬ isOwnSmall d := by
  rcases lowerChar_cases c with hself | ⟨-, htwo⟩ | ⟨d, hone, r, hr, hlower⟩
  · exact ⟨c, by simp [hself], fun hsmall => hc (toNat_lt_of_isOwnSmall hsmall)⟩
  · exact ⟨Char.ofNat 0x307, by simp [htwo], by decide⟩
  · exact ⟨d, by simp [hone], not_isOwnSmall_of_lower? hr hc hlower⟩

/-- A character of a text becomes its small letter within ASCII; or it is none of these letters
there, and in the text in lower case not of these letters alone. -/
theorem lowerAt_cases (before : List Char) (c : Char) (rest : List Char) :
    lowerAt before c rest = [c.toLower] ∨
      (∃ d ∈ lowerAt before c rest, ¬ isOwnSmall d) ∧ ¬ isOwnSmall c.toLower := by
  by_cases hc : c.toNat < 0x80
  · have hsigma : c ≠ 'Σ' := by
      rintro rfl
      exact absurd hc (by decide)
    exact .inl (by rw [lowerAt, if_neg hsigma, lowerChar, if_pos hc])
  · have hplain : ¬ c.isUpper := fun hupper => hc (Nat.lt_of_le_of_lt (of_decide_eq_true hupper).2 (by decide))
    refine .inr ⟨?_, fun hsmall => hc ?_⟩
    · unfold lowerAt
      split
      · exact ⟨_, List.mem_singleton_self _, by split <;> decide⟩
      · exact exists_not_isOwnSmall hc
    · rw [toLower_of_not_isUpper hplain] at hsmall
      exact toNat_lt_of_isOwnSmall hsmall

/-! ## Texts in lower case -/

/-- The characters that come from a capital letter, but not as the small letter of a run. -/
theorem isNoCapital_added : ['i', 'ς', Char.ofNat 0x307].all isNoCapital := by decide +kernel

theorem not_spansSmall_dotted : caseRuns.toList.all (!·.spansSmall 0x130) := by decide +kernel

theorem caseRuns_all_apart : (caseRuns.toList.all fun r => caseRuns.toList.all r.apart) = true := by decide +kernel

theorem caseRuns_apart {r r' : CaseRun} (hr : r ∈ caseRuns.toList) (hr' : r' ∈ caseRuns.toList) : r.apart r' :=
  List.all_eq_true.mp (List.all_eq_true.mp caseRuns_all_apart r hr) r' hr'

/-- What is in lower case stays as it is. -/
theorem lowerChar_of_mem {c d : Char} (h : d ∈ lowerChar c) : lowerChar d = [d] := by
  rcases mem_lowerChar h with ⟨rfl, hself⟩ | rfl | rfl | ⟨r, hr, hlower⟩
  · exact hself
  · exact lowerChar_of_isNoCapital (List.all_eq_true.mp isNoCapital_added _ (by simp))
  · exact lowerChar_of_isNoCapital (List.all_eq_true.mp isNoCapital_added _ (by simp))
  · have hfit := caseRuns_hasCharacters r hr
    refine lowerChar_of_isNoCapital (isNoCapital_iff.mpr ⟨fun hdotted => ?_, fun r' hr' => ?_⟩)
    · have hnot := List.all_eq_true.mp not_spansSmall_dotted r hr
      rw [← hdotted, CaseRun.spansSmall_of_lower? hfit hlower] at hnot
      exact Bool.false_ne_true hnot
    · exact CaseRun.lower?_eq_none_of_apart hfit (caseRuns_apart hr hr') hlower

/-- What is in lower case stays as it is. -/
theorem lowerFrom_of_forall {l : List Char} (h : ∀ c ∈ l, lowerChar c = [c]) (before : List Char) :
    lowerFrom before l = l := by
  induction l generalizing before with
  | nil => rfl
  | cons c l ih =>
    rw [lowerFrom, lowerAt_of_lowerChar (h c List.mem_cons_self), ih fun c' hc' => h c' (List.mem_cons_of_mem _ hc')]
    rfl

theorem lowerChar_of_mem_lowerFrom {d : Char} {before l : List Char} (h : d ∈ lowerFrom before l) :
    lowerChar d = [d] := by
  induction l generalizing before with
  | nil => cases h
  | cons c l ih =>
    rcases List.mem_append.mp h with hhead | hrest
    · rcases mem_lowerAt hhead with rfl | hlower
      · exact lowerChar_of_isNoCapital (List.all_eq_true.mp isNoCapital_added _ (by simp))
      · exact lowerChar_of_mem hlower
    · exact ih hrest

theorem lowerFrom_lowerFrom (before before' l : List Char) :
    lowerFrom before (lowerFrom before' l) = lowerFrom before' l :=
  lowerFrom_of_forall (fun _ => lowerChar_of_mem_lowerFrom) before

end RepoOrbit.Text
