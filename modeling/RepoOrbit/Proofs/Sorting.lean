import Mathlib.Data.Prod.Lex
import Mathlib.Data.String.Basic
import RepoOrbit.Graph.Reduce
import RepoOrbit.Proofs.Lists

/-!
# Sorting forgets an order

What a list of items is sorted to does not depend on the order they came in, if the
comparison puts any two of them in order (`Sorts`) and no two different ones in both
(`mergeSort_eq_of_perm`), and it makes no difference whether items are left out before or
after (`filter_mergeSort`); with the runs dropped it depends on nothing but which items there
are (`mergeSort_eraseReps_eq`), and only goes up (`pairwise_lt_eraseReps`).

The comparisons of texts, of pairs of texts, of ranked files and of paths are such
(`sorts_texts`, `sorts_pairLe`, `sorts_rankedFileLe`, `Path.sorts_pathLe`).
-/

namespace RepoOrbit

variable {α β : Type}

/-- A comparison that puts any two items in order. -/
structure Sorts (le : α → α → Bool) : Prop where
  trans (a b c : α) : le a b → le b c → le a c
  total (a b : α) : le a b || le b a

/-- Items may be compared by keys. -/
theorem Sorts.comap {le : β → β → Bool} (h : Sorts le) (key : α → β) : Sorts fun a b => le (key a) (key b) where
  trans a b c := h.trans (key a) (key b) (key c)
  total a b := h.total (key a) (key b)

theorem Sorts.of_key [LinearOrder β] {le : α → α → Bool} (key : α → β)
    (h : ∀ a b, le a b ↔ key a ≤ key b) : Sorts le where
  trans a b c hab hbc := (h a c).mpr (((h a b).mp hab).trans ((h b c).mp hbc))
  total a b := by
    rw [Bool.or_eq_true, h, h]
    exact le_total (key a) (key b)

section

variable {le : α → α → Bool} {l l' : List α}

theorem Sorts.pairwise (h : Sorts le) (l : List α) : (l.mergeSort le).Pairwise fun a b => le a b :=
  List.pairwise_mergeSort h.trans h.total l

/-- The same items are sorted to the same list. -/
theorem mergeSort_eq_of_perm (h : Sorts le) (hanti : ∀ a ∈ l, ∀ b ∈ l, le a b → le b a → a = b)
    (hperm : l.Perm l') : l.mergeSort le = l'.mergeSort le := by
  refine List.Perm.eq_of_pairwise (fun a b ha hb => ?_) (h.pairwise l) (h.pairwise l') ?_
  · exact hanti a (List.mem_mergeSort.mp ha) b (hperm.mem_iff.mpr (List.mem_mergeSort.mp hb))
  · exact ((List.mergeSort_perm l le).trans hperm).trans (List.mergeSort_perm l' le).symm

/-- What is left of a sorted list is what is left of the list, sorted. -/
theorem filter_mergeSort (h : Sorts le) (hanti : ∀ a ∈ l, ∀ b ∈ l, le a b → le b a → a = b) (keep : α → Bool) :
    (l.mergeSort le).filter keep = (l.filter keep).mergeSort le := by
  refine List.Perm.eq_of_pairwise (fun a b ha hb => ?_) ((h.pairwise l).filter keep) (h.pairwise _) ?_
  · have ha := List.mem_mergeSort.mp (List.mem_filter.mp ha).1
    have hb := (List.mem_filter.mp (List.mem_mergeSort.mp hb)).1
    exact hanti a ha b hb
  · exact ((List.mergeSort_perm l le).filter keep).trans (List.mergeSort_perm _ le).symm

/-- Sorted and without runs, lists with the same items are the same. -/
theorem mergeSort_eraseReps_eq [BEq α] [LawfulBEq α] (h : Sorts le) (hanti : ∀ a b, le a b → le b a → a = b)
    (hmem : ∀ a, a ∈ l ↔ a ∈ l') : (l.mergeSort le).eraseReps = (l'.mergeSort le).eraseReps := by
  have hsorted (l : List α) : (l.mergeSort le).eraseReps.Pairwise fun a b => le a b :=
    (h.pairwise l).sublist (eraseReps_sublist _)
  have hnodup (l : List α) : (l.mergeSort le).eraseReps.Nodup := nodup_eraseReps hanti (h.pairwise l)
  refine List.Perm.eq_of_pairwise (fun a b _ _ => hanti a b) (hsorted l) (hsorted l') ?_
  refine (List.perm_ext_iff_of_nodup (hnodup l) (hnodup l')).mpr fun a => ?_
  rw [mem_eraseReps, mem_eraseReps, List.mem_mergeSort, List.mem_mergeSort, hmem]

end

/-- Compared by keys that tell the items apart, a sorted list without its runs only goes up. -/
theorem pairwise_lt_eraseReps [LinearOrder β] [BEq α] [LawfulBEq α] {le : α → α → Bool} {key : α → β}
    (h : ∀ a b, le a b ↔ key a ≤ key b) (hinj : key.Injective) (l : List α) :
    (l.mergeSort le).eraseReps.Pairwise fun a b => key a < key b := by
  have hsorted := (Sorts.of_key key h).pairwise l
  have hanti : ∀ a b, le a b → le b a → a = b := fun a b hab hba =>
    hinj (le_antisymm ((h a b).mp hab) ((h b a).mp hba))
  have hle := hsorted.sublist (eraseReps_sublist _)
  refine (hle.and (nodup_eraseReps hanti hsorted)).imp fun {a b} hab => ?_
  exact lt_of_le_of_ne ((h a b).mp hab.1) fun heq => hab.2 (hinj heq)

/-! ## The comparisons -/

theorem textLe_iff (a b : String) : decide (a ≤ b) ↔ id a ≤ id b := by
  rw [decide_eq_true_iff]
  rfl

theorem sorts_texts : Sorts fun a b : String => decide (a ≤ b) := .of_key id textLe_iff

theorem eq_of_textLe {a b : String} (hab : decide (a ≤ b)) (hba : decide (b ≤ a)) : a = b :=
  String.le_antisymm (of_decide_eq_true hab) (of_decide_eq_true hba)

theorem pairLe_iff (a b : String × String) : pairLe a b ↔ toLex a ≤ toLex b := by
  rw [Prod.Lex.toLex_le_toLex]
  simp [pairLe]

theorem sorts_pairLe : Sorts pairLe := .of_key toLex pairLe_iff

theorem eq_of_pairLe {a b : String × String} (hab : pairLe a b) (hba : pairLe b a) : a = b :=
  toLex_inj.mp (le_antisymm ((pairLe_iff a b).mp hab) ((pairLe_iff b a).mp hba))

theorem rankedFileLe_iff (a b : RankedFile) :
    a.le b ↔ toLex (OrderDual.toDual a.connections, a.id) ≤ toLex (OrderDual.toDual b.connections, b.id) := by
  rw [Prod.Lex.toLex_le_toLex]
  simp [RankedFile.le]

theorem sorts_rankedFileLe : Sorts RankedFile.le := .of_key _ rankedFileLe_iff

/-- In a ranking files of different ids stand apart. -/
theorem id_eq_of_rankedFileLe {a b : RankedFile} (hab : a.le b) (hba : b.le a) : a.id = b.id :=
  congrArg Prod.snd (toLex_inj.mp (le_antisymm ((rankedFileLe_iff a b).mp hab) ((rankedFileLe_iff b a).mp hba)))

namespace Path

theorem sorts_namesLE : Sorts namesLE where
  trans a b c hab hbc := by
    induction a generalizing b c with
    | nil => rfl
    | cons x a ih =>
      cases b with
      | nil => cases hab
      | cons y b =>
        cases c with
        | nil => cases hbc
        | cons z c =>
          simp only [namesLE] at hab hbc ⊢
          grind
  total a b := by
    induction a generalizing b with
    | nil => rfl
    | cons x a ih =>
      cases b with
      | nil => rfl
      | cons y b =>
        simp only [namesLE]
        grind

theorem eq_of_namesLE {a b : List String} (hab : namesLE a b) (hba : namesLE b a) : a = b := by
  induction a generalizing b with
  | nil =>
    cases b with
    | nil => rfl
    | cons y b => cases hba
  | cons x a ih =>
    cases b with
    | nil => cases hab
    | cons y b =>
      simp only [namesLE] at hab hba
      grind

theorem sorts_pathLe : Sorts Path.le := sorts_namesLE.comap parts

/-- Paths that start from one root are told apart by their parts. -/
theorem eq_of_pathLe {p q : Path} (hroot : p.root = q.root) (hpq : p.le q) (hqp : q.le p) : p = q := by
  have hparts : p.parts = q.parts := eq_of_namesLE hpq hqp
  obtain ⟨root, names⟩ := p
  obtain ⟨root', names'⟩ := q
  obtain rfl : root = root' := hroot
  cases root <;> simpa [parts, isAbsolute] using hparts

end Path

end RepoOrbit
