import RepoOrbit.Graph.Category
import RepoOrbit.Proofs.Lists
import RepoOrbit.Proofs.Paths
import RepoOrbit.Proofs.Text.LowerCase

/-!
# Categories told by segments

A category is looked for in the whole text of a path, in which only the letters of ASCII are
brought to lower case. Nevertheless it is that of the first rule that fits the segments of the
path in lower case (`CategoryRule.Fits`, `ofPath_eq_iff_segments`):

* `betweenSlashes_iff`: a name stands between two slashes where it is a segment that is neither
  the first nor the last;
* `sameName_splitOn`: the names of rules are made of letters that no single character outside of
  ASCII becomes, so bringing such characters to lower case makes no further segment a name.
-/

namespace RepoOrbit

/-- A rule fits the segments of a path: the first of them has one of its names, or one that is
neither the first nor the last has one of these names or of those that only count there. -/
def CategoryRule.Fits (rule : CategoryRule) (segments : List String) : Prop :=
  (∃ first rest, segments = first :: rest ∧ first ∈ rule.segments) ∨
    ∃ before name after, segments = before ++ name :: after ∧ before ≠ [] ∧ after ≠ [] ∧
      (name ∈ rule.segments ∨ name ∈ rule.inner)

namespace Category

/-! ## Names between slashes -/

theorem occursIn_iff {needle text : List Char} : occursIn needle text ↔ needle <:+: text := by
  induction text with
  | nil => rw [occursIn, List.isEmpty_iff, List.infix_nil]
  | cons c text ih => rw [occursIn, Bool.or_eq_true, List.isPrefixOf_iff_prefix, ih, List.infix_cons_iff]

/-- The first segment goes as far as the first slash. -/
theorem pieces_eq_cons (s : String) :
    ∃ rest, Path.pieces s = String.ofList (s.toList.takeWhile (· != '/')) :: rest := by
  by_cases h : '/' ∈ s.toList
  · obtain ⟨first, rest, htext, hfirst⟩ := List.eq_append_cons_of_mem h
    have hs : s = String.ofList first ++ "/" ++ String.ofList rest := by rw [← String.toList_inj]; simp [htext]
    have hall : ∀ c ∈ first, (c != '/') = true := fun c hc => bne_iff_ne.mpr (ne_of_mem_of_not_mem hc hfirst)
    refine ⟨Path.pieces (String.ofList rest), ?_⟩
    rw [htext, takeWhile_append_cons hall (by simp), hs, Path.pieces_append_slash,
      Path.pieces_of_not_mem (by simpa using hfirst)]
    rfl
  · have hall : ∀ c ∈ s.toList, (c != '/') = true := fun c hc => bne_iff_ne.mpr (ne_of_mem_of_not_mem hc h)
    exact ⟨[], by rw [Path.pieces_of_not_mem h, List.takeWhile_eq_self_iff.mpr hall, String.ofList_toList]⟩

/-- A name stands between two slashes where it is a segment, but neither the first nor the last. -/
theorem betweenSlashes_iff {s name : String} (hname : '/' ∉ name.toList) :
    betweenSlashes s.toList name ↔
      ∃ before after, Path.pieces s = before ++ name :: after ∧ before ≠ [] ∧ after ≠ [] := by
  rw [betweenSlashes, occursIn_iff]
  constructor
  · rintro ⟨front, back, htext⟩
    have hs : s = String.ofList front ++ "/" ++ (name ++ "/" ++ String.ofList back) := by
      rw [← String.toList_inj, ← htext]
      simp
    refine ⟨_, _, ?_, Path.pieces_ne_nil (String.ofList front), Path.pieces_ne_nil (String.ofList back)⟩
    rw [hs, Path.pieces_append_slash, Path.pieces_append_slash, Path.pieces_of_not_mem hname]
    rfl
  · rintro ⟨before, after, hpieces, hbefore, hafter⟩
    obtain ⟨front, behind, rfl, -, hbehind⟩ :=
      Path.exists_of_pieces_append hbefore (List.cons_ne_nil name after) hpieces
    obtain ⟨name', back, rfl, hname', -⟩ := Path.exists_of_pieces_append (List.cons_ne_nil name []) hafter hbehind
    obtain rfl : name' = name := Path.pieces_injective (hname'.trans (Path.pieces_of_not_mem hname).symm)
    exact ⟨front.toList, back.toList, by simp⟩

/-- A rule fits the text of a path where it fits its segments. -/
theorem fits_iff {rule : CategoryRule} (hnames : ∀ n ∈ rule.segments ++ rule.inner, '/' ∉ n.toList) (s : String) :
    fits rule s.toList ↔ rule.Fits (Path.pieces s) := by
  obtain ⟨rest, hpieces⟩ := pieces_eq_cons s
  have hfirst : rule.segments.contains (String.ofList (s.toList.takeWhile (· != '/'))) ↔
      ∃ first rest, Path.pieces s = first :: rest ∧ first ∈ rule.segments := by
    rw [List.contains_iff_mem, hpieces]
    exact ⟨fun h => ⟨_, _, rfl, h⟩, fun ⟨_, _, hcons, h⟩ => (List.cons.inj hcons).1 ▸ h⟩
  have hinner : (rule.segments ++ rule.inner).any (betweenSlashes s.toList) ↔
      ∃ before name after, Path.pieces s = before ++ name :: after ∧ before ≠ [] ∧ after ≠ [] ∧
        (name ∈ rule.segments ∨ name ∈ rule.inner) := by
    rw [List.any_eq_true]
    constructor
    · rintro ⟨name, hname, hbetween⟩
      obtain ⟨before, after, hsplit, hbefore, hafter⟩ := (betweenSlashes_iff (hnames name hname)).mp hbetween
      exact ⟨before, name, after, hsplit, hbefore, hafter, List.mem_append.mp hname⟩
    · rintro ⟨before, name, after, hsplit, hbefore, hafter, hname⟩
      have hmem := List.mem_append.mpr hname
      exact ⟨name, hmem, (betweenSlashes_iff (hnames name hmem)).mpr ⟨before, after, hsplit, hbefore, hafter⟩⟩
  rw [fits, Bool.or_assoc, ← List.any_append, Bool.or_eq_true, hfirst, hinner, CategoryRule.Fits]

/-! ## Letter case -/

theorem splitOn_append_of_not_mem {c : Char} {part : List Char} (h : c ∉ part) (text : List Char) :
    (part ++ text).splitOn c = (text.splitOn c).modifyHead (part ++ ·) := by
  induction part with
  | nil => cases htext : text.splitOn c <;> simp [htext]
  | cons d part ih =>
    have hd : (d == c) = false := beq_false_of_ne fun heq => h (heq ▸ List.mem_cons_self)
    rw [List.cons_append, List.splitOn_cons_eq_if_modifyHead, hd, if_neg Bool.false_ne_true,
      ih fun hmem => h (List.mem_cons_of_mem d hmem), List.modifyHead_modifyHead]
    rfl

/-- Two segments that are the same, or neither of which is made of letters of `isOwnSmall`
alone. -/
def SameName (a b : List Char) : Prop :=
  a = b ∨ (∃ d ∈ a, ¬ Text.isOwnSmall d) ∧ ∃ d ∈ b, ¬ Text.isOwnSmall d

theorem SameName.symm {a b : List Char} (h : SameName a b) : SameName b a := h.imp Eq.symm And.symm

theorem SameName.append {a b part : List Char} {d : Char} (h : SameName a b)
    (hpart : part = [d] ∨ (∃ d' ∈ part, ¬ Text.isOwnSmall d') ∧ ¬ Text.isOwnSmall d) :
    SameName (part ++ a) (d :: b) := by
  rcases hpart with rfl | ⟨⟨d', hmem, hd'⟩, hd⟩
  · rcases h with rfl | ⟨⟨e, hea, he⟩, e', heb, he'⟩
    · exact .inl rfl
    · exact .inr ⟨⟨e, List.mem_append_right _ hea, he⟩, e', List.mem_cons_of_mem _ heb, he'⟩
  · exact .inr ⟨⟨d', List.mem_append_left _ hmem, hd'⟩, d, List.mem_cons_self, hd⟩

theorem isUncased_slash : Text.isUncased '/' := by decide +kernel

theorem toLower_ne_slash {c : Char} (hc : c ≠ '/') : c.toLower ≠ '/' := by
  intro h
  by_cases hupper : c.isUpper
  · have hascii : c.toNat < 0x80 := Nat.lt_of_le_of_lt (of_decide_eq_true hupper).2 (by decide)
    have hmem : '/' ∈ Text.lowerChar c := by simp [Text.lowerChar, hascii, h]
    exact hc (Text.eq_of_mem_lowerChar isUncased_slash hmem).symm
  · rw [Text.toLower_of_not_isUpper hupper] at h
    exact hc h

/-- Between the slashes stand the same names of such letters, whether all characters of a path are
brought to lower case or only those of ASCII. -/
theorem sameName_splitOn (before path : List Char) :
    List.Forall₂ SameName ((Text.lowerFrom before path).splitOn '/') ((path.map Char.toLower).splitOn '/') := by
  induction path generalizing before with
  | nil => exact .cons (.inl rfl) .nil
  | cons c path ih =>
    rw [Text.lowerFrom, List.map_cons]
    by_cases hc : c = '/'
    · rw [hc, Text.lowerAt_of_lowerChar (Text.lowerChar_of_isUncased isUncased_slash)]
      have hlower : ('/' : Char).toLower = '/' := by decide
      rw [List.singleton_append, hlower, List.splitOn_cons_eq_if_modifyHead, List.splitOn_cons_eq_if_modifyHead,
        if_pos (by simp), if_pos (by simp)]
      exact .cons (.inl rfl) (ih _)
    · have hchunk : '/' ∉ Text.lowerAt before c path := fun h => hc (Text.eq_of_mem_lowerAt isUncased_slash h).symm
      have hlower : (c.toLower == '/') = false := beq_false_of_ne (toLower_ne_slash hc)
      rw [splitOn_append_of_not_mem hchunk, List.splitOn_cons_eq_if_modifyHead, hlower, if_neg Bool.false_ne_true]
      have hrest := ih (c :: before)
      generalize (Text.lowerFrom (c :: before) path).splitOn '/' = segments at hrest ⊢
      generalize (path.map Char.toLower).splitOn '/' = segments' at hrest ⊢
      cases hrest with
      | nil => exact .nil
      | cons h hrest => exact .cons (h.append (Text.lowerAt_cases before c path)) hrest

section

variable {rule : CategoryRule} (hnames : ∀ n ∈ rule.segments ++ rule.inner, ∀ d ∈ n.toList, Text.isOwnSmall d)
include hnames

theorem SameName.eq {a b : List Char} (h : SameName a b) (hb : String.ofList b ∈ rule.segments ++ rule.inner) :
    a = b := by
  rcases h with rfl | ⟨-, d, hd, hlarge⟩
  · rfl
  · exact absurd (hnames _ hb d (by simpa using hd)) hlarge

/-- What fits some segments fits those that are the same but for characters outside of the
names. -/
theorem fits_of_sameName {segments segments' : List (List Char)} (hsame : List.Forall₂ SameName segments segments')
    (h : rule.Fits (segments'.map String.ofList)) : rule.Fits (segments.map String.ofList) := by
  rcases h with ⟨first, rest, hcons, hfirst⟩ | ⟨before, name, after, happend, hbefore, hafter, hname⟩
  · obtain ⟨a, as, rfl, rfl, rfl⟩ := List.map_eq_cons_iff.mp hcons
    cases hsame with
    | cons hab hrest =>
      rw [← hab.eq hnames (List.mem_append_left _ hfirst)] at hfirst
      exact .inl ⟨_, _, rfl, hfirst⟩
  · obtain ⟨front, back, rfl, rfl, hback⟩ := List.map_eq_append_iff.mp happend
    obtain ⟨a, behind, rfl, rfl, rfl⟩ := List.map_eq_cons_iff.mp hback
    have hfront := List.forall₂_take_append _ _ _ hsame
    have hbehind := List.forall₂_drop_append _ _ _ hsame
    rw [← List.take_append_drop front.length segments]
    generalize segments.take front.length = front' at hfront ⊢
    generalize segments.drop front.length = back' at hbehind ⊢
    cases hbehind with
    | cons hab hrest =>
      rw [← hab.eq hnames (List.mem_append.mpr hname)] at hname
      refine .inr ⟨_, _, _, by rw [List.map_append, List.map_cons], ?_, ?_, hname⟩
      · rw [ne_eq, List.map_eq_nil_iff, ← List.length_eq_zero_iff] at hbefore ⊢
        rwa [hfront.length_eq]
      · rw [ne_eq, List.map_eq_nil_iff, ← List.length_eq_zero_iff] at hafter ⊢
        rwa [hrest.length_eq]

end

/-! ## Categories -/

theorem rules_names : ∀ r ∈ rules, ∀ n ∈ r.segments ++ r.inner, ∀ d ∈ n.toList, Text.isOwnSmall d := by
  have hall : ∀ r ∈ rules, ∀ n ∈ r.segments ++ r.inner, n.toList.all Text.isOwnSmall := by decide
  exact fun r hr n hn => List.all_eq_true.mp (hall r hr n hn)

/-- The segments of a path in lower case. -/
def segments (path : String) : List String := Path.pieces (Text.lowerText path)

/-- For the rules it makes no difference in which way letters are brought to lower case. -/
theorem fits_iff_segments {rule : CategoryRule} (hrule : rule ∈ rules) (path : String) :
    fits rule (path.toList.map Char.toLower) ↔ rule.Fits (segments path) := by
  have hnames := rules_names rule hrule
  have hslash : ∀ n ∈ rule.segments ++ rule.inner, '/' ∉ n.toList := fun n hn hmem =>
    absurd (hnames n hn _ hmem) (by decide)
  have hsame := sameName_splitOn [] path.toList
  have hascii := fits_iff hslash (String.ofList (path.toList.map Char.toLower))
  rw [Path.pieces_eq, String.toList_ofList] at hascii
  rw [hascii, segments, Text.lowerText, Path.pieces_eq, String.toList_ofList]
  exact ⟨fits_of_sameName hnames hsame, fits_of_sameName hnames (hsame.imp fun _ _ => SameName.symm).flip⟩

/-- A rule is found for a path if it fits the segments and none before it does. -/
theorem find?_fits_eq_some_iff (path : String) (r : CategoryRule) :
    (rules.find? fun r => fits r (path.toList.map Char.toLower)) = some r ↔
      ∃ before after, rules = before ++ r :: after ∧ r.Fits (segments path) ∧
        ∀ r' ∈ before, ¬ r'.Fits (segments path) := by
  rw [List.find?_eq_some_iff_append]
  constructor
  · rintro ⟨hr, before, after, hrules, hbefore⟩
    refine ⟨before, after, hrules, (fits_iff_segments (by simp [hrules]) path).mp hr, fun r' hr' hfits => ?_⟩
    have hnot := hbefore r' hr'
    rw [(fits_iff_segments (by simp [hrules, hr']) path).mpr hfits] at hnot
    exact Bool.false_ne_true hnot
  · rintro ⟨before, after, hrules, hr, hbefore⟩
    refine ⟨(fits_iff_segments (by simp [hrules]) path).mpr hr, before, after, hrules, fun r' hr' => ?_⟩
    rw [Bool.not_eq_true', Bool.eq_false_iff]
    exact mt (fits_iff_segments (by simp [hrules, hr']) path).mp (hbefore r' hr')

theorem find?_fits_eq_none_iff (path : String) :
    (rules.find? fun r => fits r (path.toList.map Char.toLower)) = none ↔ ∀ r ∈ rules, ¬ r.Fits (segments path) := by
  rw [List.find?_eq_none]
  exact forall₂_congr fun r hr => not_congr (fits_iff_segments hr path)

/-- The category of a path is that of the first rule that fits its segments in lower case, and
`other` if none does. -/
theorem ofPath_eq_iff_segments (path : String) (c : Category) :
    ofPath path = c ↔
      (∃ before r after, rules = before ++ r :: after ∧ r.category = c ∧ r.Fits (segments path) ∧
        ∀ r' ∈ before, ¬ r'.Fits (segments path)) ∨
      c = .other ∧ ∀ r ∈ rules, ¬ r.Fits (segments path) := by
  have hsome := find?_fits_eq_some_iff path
  have hnone := find?_fits_eq_none_iff path
  unfold ofPath
  dsimp only
  generalize rules.find? (fun r => fits r (path.toList.map Char.toLower)) = found at hsome hnone ⊢
  constructor
  · rintro rfl
    cases found with
    | none => exact .inr ⟨rfl, hnone.mp rfl⟩
    | some r =>
      obtain ⟨before, after, hrules, hr⟩ := (hsome r).mp rfl
      exact .inl ⟨before, r, after, hrules, rfl, hr⟩
  · rintro (⟨before, r, after, hrules, rfl, hr⟩ | ⟨rfl, hr⟩)
    · rw [(hsome r).mpr ⟨before, after, hrules, hr⟩]
    · rw [hnone.mpr hr]

/-- A name that only counts between two slashes is none as the first segment. -/
example : ofPath "x/Trace/report.ts" = .build ∧ ofPath "trace/report.ts" = .other := by decide

end Category

end RepoOrbit
