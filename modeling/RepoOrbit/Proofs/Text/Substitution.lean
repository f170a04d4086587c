import Mathlib.Data.List.Basic
import RepoOrbit.Text.Redact

/-!
# What a substitution leaves

`Substituted` is what `substitute` does, one constructor for each thing that can
happen at the place it has come to: the text ends, a character is kept, or what has
the shape is replaced (`substituteFrom_substituted`). From it:

* `FreeOf`: nothing in a text has a shape; such a text stays as it is
  (`Substituted.eq_of_freeOf`);
* `Masked`: of a text, some stretches have been replaced by the mask and all else is
  there still, in its order. A stretch of the result without a star was in the text
  (`Masked.infix_in_text`), and a result is cut where the text is
  (`Masked.split_prefix`, `Masked.split_at`).
-/

namespace RepoOrbit.Text

/-- How a text becomes another when what has a shape is replaced. -/
inductive Substituted (shape : Shape) (by_ : List Char) : Option Char → List Char → List Char → Prop
  | done {before : Option Char} : Substituted shape by_ before [] []
  | keep {before : Option Char} {c : Char} {t o : List Char} : (∀ n, shape before (c :: t) ≠ some (n + 1)) →
      Substituted shape by_ (some c) t o → Substituted shape by_ before (c :: t) (c :: o)
  | replace {before : Option Char} {m t o : List Char} : m ≠ [] → shape before (m ++ t) = some m.length →
      Substituted shape by_ m.getLast? t o → Substituted shape by_ before (m ++ t) (by_ ++ o)

/-- A shape never reaches beyond the end of a text. -/
def Shape.Fits (shape : Shape) : Prop := ∀ before text n, shape before text = some n → n ≤ text.length

/-- Once something has been replaced, the text goes on behind it. -/
theorem substituteFrom_append (shape : Shape) (by_ m : List Char) (before : Option Char) (t : List Char) :
    substituteFrom shape by_ m.length before (m ++ t) =
      substituteFrom shape by_ 0 (m.getLast?.or before) t := by
  induction m generalizing before with
  | nil => rfl
  | cons c m ih =>
    rw [List.length_cons, List.cons_append, substituteFrom, ih]
    cases m with
    | nil => rfl
    | cons d m => rw [List.getLast?_cons_cons, List.getLast?_cons, Option.some_or, Option.some_or]

theorem substituteFrom_substituted {shape : Shape} (hshape : shape.Fits) (by_ : List Char)
    (before : Option Char) (t : List Char) :
    Substituted shape by_ before t (substituteFrom shape by_ 0 before t) := by
  induction hn : t.length using Nat.strongRecOn generalizing before t with
  | ind n ih =>
    cases t with
    | nil => exact .done
    | cons c t =>
      have hkeep : (∀ n, shape before (c :: t) ≠ some (n + 1)) →
          Substituted shape by_ before (c :: t) (c :: substituteFrom shape by_ 0 (some c) t) := fun h =>
        .keep h (ih t.length (by simp [← hn]) (some c) t rfl)
      rw [substituteFrom]
      split
      · rename_i k hk
        have hle : k ≤ t.length := by simpa using hshape _ _ _ hk
        have hcut : c :: t = (c :: t.take k) ++ t.drop k := by simp
        have hlength : (t.take k).length = k := List.length_take_of_le hle
        have hrest : substituteFrom shape by_ k (some c) t =
            substituteFrom shape by_ 0 (c :: t.take k).getLast? (t.drop k) := by
          have h := substituteFrom_append shape by_ (t.take k) (some c) (t.drop k)
          rw [hlength, List.take_append_drop] at h
          rw [h, List.getLast?_cons]
          cases (t.take k).getLast? <;> rfl
        rw [hrest]
        refine hcut ▸ .replace (List.cons_ne_nil _ _) ?_ ?_
        · rw [← hcut, List.length_cons, hlength, hk]
        · have hshorter : (t.drop k).length < n := by
            rw [← hn, List.length_cons, List.length_drop]
            omega
          exact ih (t.drop k).length hshorter _ _ rfl
      · rename_i hnone
        exact hkeep hnone

/-! ## Texts in which nothing has a shape -/

/-- Nothing in a text has the shape. -/
def FreeOf (shape : Shape) : Option Char → List Char → Prop
  | _, [] => True
  | before, c :: t => (∀ n, shape before (c :: t) ≠ some (n + 1)) ∧ FreeOf shape (some c) t

theorem FreeOf.after {shape : Shape} {before : Option Char} {u v : List Char}
    (h : FreeOf shape before (u ++ v)) : FreeOf shape (u.getLast?.or before) v := by
  induction u generalizing before with
  | nil => exact h
  | cons c u ih =>
    have hlater := ih h.2
    rw [List.getLast?_cons, Option.some_or]
    cases hlast : u.getLast? with
    | none => simpa [hlast] using hlater
    | some d => simpa [hlast] using hlater

/-- A text in which nothing has the shape stays as it is. -/
theorem Substituted.eq_of_freeOf {shape : Shape} {by_ : List Char} {before : Option Char} {t o : List Char}
    (h : Substituted shape by_ before t o) (hfree : FreeOf shape before t) : o = t := by
  induction h with
  | done => rfl
  | keep _ _ ih => rw [ih hfree.2]
  | @replace before m t o hm hshape _ _ =>
    obtain ⟨c, m, rfl⟩ := List.exists_cons_of_ne_nil hm
    exact absurd hshape (hfree.1 m.length)

/-! ## Texts with stretches masked -/

/-- Of a text, stretches of characters of a kind have been replaced by the mask. -/
inductive Masked (P : Char → Prop) : List Char → List Char → Prop
  | done : Masked P [] []
  | keep {c : Char} {t o : List Char} : Masked P t o → Masked P (c :: t) (c :: o)
  | mask {m t o : List Char} : m ≠ [] → (∀ c ∈ m, P c) → Masked P t o → Masked P (m ++ t) (mask ++ o)

/-- Replacing by the mask masks what has the shape. -/
theorem Substituted.masked {shape : Shape} {P : Char → Prop} {before : Option Char} {t o : List Char}
    (h : Substituted shape mask before t o)
    (hP : ∀ before m t, shape before (m ++ t) = some m.length → ∀ c ∈ m, P c) : Masked P t o := by
  induction h with
  | done => exact .done
  | keep _ _ ih => exact .keep ih
  | replace hm hshape _ ih => exact .mask hm (hP _ _ _ hshape) ih

theorem star_not_mem_cons {c : Char} {a : List Char} (h : '*' ∉ c :: a) : c ≠ '*' ∧ '*' ∉ a :=
  ⟨fun heq => h (heq ▸ List.mem_cons_self), fun hm => h (List.mem_cons_of_mem c hm)⟩

namespace Masked

variable {P : Char → Prop} {t o : List Char}

theorem keep_all (a : List Char) (h : Masked P t o) : Masked P (a ++ t) (a ++ o) := by
  induction a with
  | nil => exact h
  | cons c a ih => exact .keep ih

theorem eq_nil (h : Masked P t []) : t = [] := by
  generalize ho : [] = o at h
  cases h with
  | done => rfl
  | keep | mask => cases ho

theorem nil_eq (h : Masked P [] o) : o = [] := by
  generalize ht : [] = t at h
  cases h with
  | done => rfl
  | keep => cases ht
  | mask hm => exact absurd (List.append_eq_nil_iff.mp ht.symm).1 hm

/-- Masking leaves nothing only of nothing. -/
theorem eq_nil_iff (h : Masked P t o) : o = [] ↔ t = [] :=
  ⟨fun ho => (ho ▸ h).eq_nil, fun ht => (ht ▸ h).nil_eq⟩

/-- The text has characters of a kind if the result has, and what was masked. -/
theorem forall_of_forall {Q : Char → Prop} (h : Masked P t o) (hP : ∀ c, P c → Q c) (ho : ∀ c ∈ o, Q c) :
    ∀ c ∈ t, Q c := by
  induction h with
  | done => exact ho
  | keep _ ih =>
    obtain ⟨hc, ho⟩ := List.forall_mem_cons.mp ho
    exact List.forall_mem_cons.mpr ⟨hc, ih ho⟩
  | mask _ hm _ ih =>
    refine List.forall_mem_append.mpr ⟨fun c hc => hP c (hm c hc), ih fun c hc => ?_⟩
    exact ho c (List.mem_append_right _ hc)

theorem append_eq_mask_append {u v : List Char} {c : Char} (hc : c ≠ '*') (h : u ++ c :: v = Text.mask ++ o) :
    ∃ u', u = Text.mask ++ u' ∧ o = u' ++ c :: v := by
  rcases List.append_eq_append_iff.mp h with ⟨a, hmask, ho⟩ | hu
  · cases a with
    | nil => exact ⟨[], by rw [hmask, List.append_nil, List.append_nil], ho.symm⟩
    | cons d a =>
      obtain ⟨rfl, -⟩ := List.cons.inj ho
      have hmem : c ∈ Text.mask := hmask ▸ List.mem_append_right u List.mem_cons_self
      exact absurd (by simpa [Text.mask] using hmem) hc
  · exact hu

/-- The text is cut where the result is, in front of a character that is kept. -/
theorem split_at {u v : List Char} {c : Char} (hc : c ≠ '*') (h : Masked P t (u ++ c :: v)) :
    ∃ u' v', t = u' ++ c :: v' ∧ Masked P u' u ∧ Masked P v' v := by
  generalize ho : u ++ c :: v = o at h
  induction h generalizing u with
  | done => simp at ho
  | keep h ih =>
    cases u with
    | nil =>
      obtain ⟨rfl, rfl⟩ := List.cons.inj ho
      exact ⟨[], _, rfl, .done, h⟩
    | cons d u =>
      obtain ⟨rfl, hrest⟩ := List.cons.inj ho
      obtain ⟨u', v', rfl, hu, hv⟩ := ih hrest
      exact ⟨d :: u', v', rfl, .keep hu, hv⟩
  | @mask m t o hm hP h ih =>
    obtain ⟨u, rfl, rfl⟩ := append_eq_mask_append hc ho
    obtain ⟨u', v', rfl, hu, hv⟩ := ih rfl
    exact ⟨m ++ u', v', by rw [List.append_assoc], .mask hm hP hu, hv⟩

/-- What the result begins with was kept, up to the first star. -/
theorem split_prefix {a : List Char} (ha : '*' ∉ a) (h : Masked P t (a ++ o)) :
    ∃ t', t = a ++ t' ∧ Masked P t' o := by
  induction a generalizing t with
  | nil => exact ⟨t, rfl, h⟩
  | cons c a ih =>
    obtain ⟨hc, ha⟩ := star_not_mem_cons ha
    obtain ⟨u, t₁, rfl, hu, h₁⟩ := split_at (u := []) hc h
    obtain rfl := hu.eq_nil
    obtain ⟨t₂, rfl, h₂⟩ := ih ha h₁
    exact ⟨t₂, rfl, h₂⟩

/-- A stretch of the result without a star was in the text. -/
theorem infix_in_text {w : List Char} (h : Masked P t o) (hw : '*' ∉ w) (ho : w <:+: o) : w <:+: t := by
  cases w with
  | nil => exact List.nil_infix
  | cons c w =>
    obtain ⟨u, v, rfl⟩ := ho
    obtain ⟨hc, hw⟩ := star_not_mem_cons hw
    rw [List.append_assoc, List.cons_append] at h
    obtain ⟨u', t', rfl, -, h⟩ := split_at hc h
    obtain ⟨v', rfl, -⟩ := split_prefix hw h
    exact ⟨u', v', by simp⟩

/-- A text of which no character can be masked stays as it is. -/
theorem eq_of_forall_not (h : Masked P t o) (ht : ∀ c ∈ t, ¬ P c) : o = t := by
  induction h with
  | done => rfl
  | keep _ ih => rw [ih fun c hc => ht c (List.mem_cons_of_mem _ hc)]
  | @mask m t o hm hP _ _ =>
    obtain ⟨c, m, rfl⟩ := List.exists_cons_of_ne_nil hm
    exact absurd (hP c List.mem_cons_self) (ht c List.mem_cons_self)

end Masked

end RepoOrbit.Text
