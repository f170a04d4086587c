import Mathlib.Algebra.GroupWithZero.Nat
import Mathlib.Data.List.Nodup
import Mathlib.Data.List.TakeWhile

/-!
# Lists without repetitions

What dropping the runs of a sorted list leaves (`eraseReps`), what dropping every second
copy leaves (`eraseDups`), what a traversal gives that never fails
(`mapM_eq_ok`), what is looked up where no key stands twice, where the first items of
a kind end (`takeWhile_append_cons`, `append_cons_inj`) and where the last of a kind is
(`append_cons_inj_of_last`), which item is the first of a kind
(`find?_eq_some_of_takeWhile`, `exists_find?_of_imp`), which of two items is before the other
(`pair_sublist_iff`, `pair_sublist_or`, `not_pair_sublist_swap`), when two places in a list are one
(`concat_eq_of_not_before`), what is true of all its beginnings
(`forall_take_of_concat`), and how many items of two lists go together, counted from either side
(`sum_countP_comm`, `sum_count_eq_length`).
-/

namespace RepoOrbit

variable {α β ε : Type}

/-- A traversal succeeds where every step of it does. -/
theorem mapM_eq_ok {f : α → Except ε β} {g : α → β} {l : List α} (h : ∀ x ∈ l, f x = .ok (g x)) :
    l.mapM f = .ok (l.map g) := by
  induction l with
  | nil => rfl
  | cons x l ih =>
    rw [List.mapM_cons, h x List.mem_cons_self, ih fun y hy => h y (List.mem_cons_of_mem _ hy)]
    rfl

/-- Where no key stands twice, each entry is looked up by its key. -/
theorem lookup_eq_some_of_mem [BEq α] [LawfulBEq α] {l : List (α × β)} (hnodup : (l.map (·.1)).Nodup) {key : α}
    {value : β} (h : (key, value) ∈ l) : l.lookup key = some value := by
  obtain ⟨before, after, rfl⟩ := List.append_of_mem h
  rw [List.map_append, List.map_cons] at hnodup
  refine List.lookup_eq_some_iff.mpr ⟨before, after, rfl, fun e he => ?_⟩
  have hlater := List.disjoint_of_nodup_append hnodup (List.mem_map_of_mem he)
  rw [bne_iff_ne]
  rintro rfl
  exact hlater List.mem_cons_self

/-- The items up to the first one that is not of a kind. -/
theorem takeWhile_append_cons {f : α → Bool} {l r : List α} {a : α} (hl : ∀ b ∈ l, f b) (ha : ¬ f a) :
    (l ++ a :: r).takeWhile f = l := by
  rw [List.takeWhile_append_of_pos hl, List.takeWhile_cons_of_neg ha, List.append_nil]

/-- The first item of a kind is at one place. -/
theorem append_cons_inj_of_kind {f : α → Bool} {a b : α} {p q v w : List α} (hp : ∀ c ∈ p, ¬ f c) (hq : ∀ c ∈ q, ¬ f c)
    (ha : f a) (hb : f b) (h : p ++ a :: v = q ++ b :: w) : p = q ∧ a = b ∧ v = w := by
  have hpq : p = q := by
    calc p = (p ++ a :: v).takeWhile (!f ·) := (takeWhile_append_cons (by simpa using hp) (by simpa using ha)).symm
      _ = (q ++ b :: w).takeWhile (!f ·) := by rw [h]
      _ = q := takeWhile_append_cons (by simpa using hq) (by simpa using hb)
  subst hpq
  exact ⟨rfl, List.cons.inj (List.append_cancel_left h)⟩

/-- The last item of a kind is at one place. -/
theorem append_cons_inj_of_last {f : α → Bool} {a b : α} {p q v w : List α} (hv : ∀ c ∈ v, ¬ f c) (hw : ∀ c ∈ w, ¬ f c)
    (ha : f a) (hb : f b) (h : p ++ a :: v = q ++ b :: w) : p = q ∧ a = b ∧ v = w := by
  have hreverse : v.reverse ++ a :: p.reverse = w.reverse ++ b :: q.reverse := by
    simpa using congrArg List.reverse h
  obtain ⟨hvw, hab, hpq⟩ := append_cons_inj_of_kind (by simpa using hv) (by simpa using hw) ha hb hreverse
  exact ⟨List.reverse_injective hpq, hab, List.reverse_injective hvw⟩

/-- Where the first parts hold no separator, the first separator is at one place. -/
theorem append_cons_inj [BEq α] [LawfulBEq α] {a : α} {p q v w : List α} (hp : a ∉ p) (hq : a ∉ q)
    (h : p ++ a :: v = q ++ a :: w) : p = q ∧ v = w := by
  have hapart : ∀ {r : List α}, a ∉ r → ∀ b ∈ r, ¬ (b == a) := fun hr b hb heq => hr (eq_of_beq heq ▸ hb)
  obtain ⟨hpq, -, hvw⟩ := append_cons_inj_of_kind (hapart hp) (hapart hq) BEq.rfl BEq.rfl h
  exact ⟨hpq, hvw⟩

/-- An item is found if it is of the kind and none before it is. -/
theorem find?_eq_some_of_takeWhile [BEq α] [LawfulBEq α] {f : α → Bool} {l : List α} {a : α} (hmem : a ∈ l) (ha : f a)
    (h : ∀ b ∈ l.takeWhile (· != a), f b = false) : l.find? f = some a := by
  obtain ⟨before, after, rfl, hnot⟩ := List.eq_append_cons_of_mem hmem
  have hapart : ∀ b ∈ before, (b != a) = true := fun b hb => bne_iff_ne.mpr (ne_of_mem_of_not_mem hb hnot)
  rw [takeWhile_append_cons hapart (by simp)] at h
  have hnone : before.find? f = none := List.find?_eq_none.mpr fun b hb => by simp [h b hb]
  rw [List.find?_append, hnone, Option.none_or, List.find?_cons_of_pos ha]

/-- Of a wider kind the same item is found, or one before it. -/
theorem exists_find?_of_imp {f g : α → Bool} (h : ∀ a, f a → g a) {l : List α} {a : α} (ha : l.find? f = some a) :
    ∃ b, l.find? g = some b ∧ (b = a ∨ [b, a].Sublist l) := by
  obtain ⟨hfa, before, after, rfl, -⟩ := List.find?_eq_some_iff_append.mp ha
  rw [List.find?_append, List.find?_cons_of_pos (h a hfa)]
  cases hbefore : before.find? g with
  | none => exact ⟨a, rfl, .inl rfl⟩
  | some b =>
    have hb : [b].Sublist before := List.singleton_sublist.mpr (List.mem_of_find?_eq_some hbefore)
    have hafter : [a].Sublist (a :: after) := List.singleton_sublist.mpr List.mem_cons_self
    exact ⟨b, rfl, .inr (hb.append hafter)⟩

/-- With another item in the place of one, of a kind that both are of or neither, the item that was
found is found again or the other one in its place. -/
theorem find?_append_cons_of_eq {f : α → Bool} {a b c : α} {before after : List α} (hab : f a = f b)
    (h : (before ++ a :: after).find? f = some c) :
    (before ++ b :: after).find? f = some c ∨ a = c ∧ (before ++ b :: after).find? f = some b := by
  rw [List.find?_append] at h ⊢
  cases hbefore : before.find? f with
  | some d =>
    rw [hbefore] at h
    exact .inl h
  | none =>
    rw [hbefore, Option.none_or] at h
    rw [Option.none_or]
    by_cases ha : f a
    · rw [List.find?_cons_of_pos ha] at h
      exact .inr ⟨Option.some.inj h, List.find?_cons_of_pos (hab ▸ ha)⟩
    · rw [List.find?_cons_of_neg ha] at h
      exact .inl (by rwa [List.find?_cons_of_neg (hab ▸ ha)])

theorem drop_length_takeWhile (f : α → Bool) (l : List α) : l.drop (l.takeWhile f).length = l.dropWhile f := by
  have h : (l.takeWhile f ++ l.dropWhile f).drop (l.takeWhile f).length = l.dropWhile f := List.drop_left
  rwa [List.takeWhile_append_dropWhile] at h

/-- An item is before another if the list can be cut between them. -/
theorem pair_sublist_iff {l : List α} {a b : α} :
    [a, b].Sublist l ↔ ∃ l₁ l₂, l = l₁ ++ l₂ ∧ a ∈ l₁ ∧ b ∈ l₂ := by
  rw [List.cons_sublist_iff]
  simp only [List.singleton_sublist]

/-- Of two items one is before the other. -/
theorem pair_sublist_or {l : List α} {a b : α} (ha : a ∈ l) (hb : b ∈ l) (hne : a ≠ b) :
    [a, b].Sublist l ∨ [b, a].Sublist l := by
  obtain ⟨before, after, rfl⟩ := List.append_of_mem ha
  rcases List.mem_append.mp hb with hbefore | hafter
  · exact .inr (pair_sublist_iff.mpr ⟨before, a :: after, rfl, hbefore, List.mem_cons_self⟩)
  · have hafter := (List.mem_cons.mp hafter).resolve_left hne.symm
    exact .inl (((List.singleton_sublist.mpr hafter).cons_cons a).trans (List.sublist_append_right _ _))

theorem not_pair_sublist_swap {l : List α} {a b : α} (h : l.Nodup) (hab : [a, b].Sublist l) : ¬ [b, a].Sublist l := by
  obtain ⟨l₁, l₂, rfl, ha, hb⟩ := pair_sublist_iff.mp hab
  intro hba
  obtain ⟨before, after, heq, hbefore, hafter⟩ := List.sublist_append_iff.mp hba
  have hapart := List.disjoint_of_nodup_append h
  cases before with
  | nil =>
    rw [List.nil_append] at heq
    exact hapart ha (hafter.subset (heq ▸ List.mem_cons_of_mem b List.mem_cons_self))
  | cons c before =>
    obtain rfl : b = c := (List.cons.inj heq).1
    exact hapart (hbefore.subset List.mem_cons_self) hb

/-- Of two places in a list neither of which is before the other. -/
theorem concat_eq_of_not_before {l before₁ before₂ : List α} {a₁ a₂ : α} (h₁ : before₁ ++ [a₁] <+: l)
    (h₂ : before₂ ++ [a₂] <+: l) (hnot₁ : ¬ before₁ ++ [a₁] <+: before₂) (hnot₂ : ¬ before₂ ++ [a₂] <+: before₁) :
    before₁ = before₂ ∧ a₁ = a₂ := by
  rcases List.prefix_or_prefix_of_prefix h₁ h₂ with h | h
  · exact List.append_singleton_inj.mp ((List.prefix_concat_iff.mp h).resolve_right hnot₁)
  · obtain ⟨rfl, rfl⟩ := List.append_singleton_inj.mp ((List.prefix_concat_iff.mp h).resolve_right hnot₂)
    exact ⟨rfl, rfl⟩

/-- What is true of all beginnings but the whole is true of all beginnings without the
last item. -/
theorem forall_take_of_concat {p : List α → Prop} {l : List α} {a : α}
    (h : ∀ n < (l ++ [a]).length, p ((l ++ [a]).take n)) (n : Nat) (hn : n ≤ l.length) : p (l.take n) := by
  have hlength : (l ++ [a]).length = l.length + 1 := List.length_append
  have hp := h n (by omega)
  rwa [List.take_append_of_le_length hn] at hp

/-! ## Runs -/

theorem eraseRepsBy_loop_eq_append [BEq α] (a : α) (l acc : List α) :
    List.eraseRepsBy.loop (· == ·) a l acc = acc.reverse ++ List.eraseRepsBy.loop (· == ·) a l [] := by
  induction l generalizing a acc with
  | nil => simp [List.eraseRepsBy.loop]
  | cons b l ih =>
    simp only [List.eraseRepsBy.loop]
    split
    · exact ih a acc
    · rw [ih b (a :: acc), ih b [a], List.reverse_cons, List.append_assoc]
      rfl

section Runs

variable [BEq α] [LawfulBEq α]

theorem eraseReps_cons_self (a : α) (l : List α) : (a :: a :: l).eraseReps = (a :: l).eraseReps := by
  simp [List.eraseReps, List.eraseRepsBy, List.eraseRepsBy.loop]

theorem eraseReps_cons_of_ne {a b : α} (h : a ≠ b) (l : List α) :
    (a :: b :: l).eraseReps = a :: (b :: l).eraseReps := by
  simp only [List.eraseReps, List.eraseRepsBy, List.eraseRepsBy.loop, beq_eq_false_iff_ne.mpr h]
  rw [eraseRepsBy_loop_eq_append]
  rfl

@[simp] theorem mem_eraseReps {x : α} {l : List α} : x ∈ l.eraseReps ↔ x ∈ l := by
  induction l with
  | nil => rfl
  | cons a l ih =>
    cases l with
    | nil => rfl
    | cons b l =>
      rcases Classical.em (a = b) with rfl | hne
      · rw [eraseReps_cons_self, ih]
        simp
      · rw [eraseReps_cons_of_ne hne, List.mem_cons, ih, List.mem_cons (a := x) (b := a)]

/-- Where nothing is repeated there are no runs. -/
theorem eraseReps_of_nodup {l : List α} (h : l.Nodup) : l.eraseReps = l := by
  induction l with
  | nil => rfl
  | cons a l ih =>
    cases l with
    | nil => rfl
    | cons b l =>
      obtain ⟨ha, hl⟩ := List.nodup_cons.mp h
      have hne : a ≠ b := fun heq => ha (by rw [heq]; exact List.mem_cons_self)
      rw [eraseReps_cons_of_ne hne, ih hl]

theorem eraseReps_sublist (l : List α) : l.eraseReps.Sublist l := by
  induction l with
  | nil => exact .slnil
  | cons a l ih =>
    cases l with
    | nil => exact .refl _
    | cons b l =>
      rcases Classical.em (a = b) with rfl | hne
      · rw [eraseReps_cons_self]
        exact ih.cons a
      · rw [eraseReps_cons_of_ne hne]
        exact ih.cons_cons a

/-- In a sorted list equal items stand together. -/
theorem nodup_eraseReps {le : α → α → Prop} (hle : ∀ a b, le a b → le b a → a = b) {l : List α}
    (h : l.Pairwise le) : l.eraseReps.Nodup := by
  induction l with
  | nil => exact List.nodup_nil
  | cons a l ih =>
    cases l with
    | nil => exact List.nodup_singleton a
    | cons b l =>
      obtain ⟨ha, hl⟩ := List.pairwise_cons.mp h
      rcases Classical.em (a = b) with rfl | hne
      · rw [eraseReps_cons_self]
        exact ih hl
      · rw [eraseReps_cons_of_ne hne, List.nodup_cons, mem_eraseReps]
        refine ⟨fun hmem => ?_, ih hl⟩
        rcases List.mem_cons.mp hmem with heq | hmem
        · exact hne heq
        · exact hne (hle a b (ha b List.mem_cons_self) ((List.pairwise_cons.mp hl).1 a hmem))

end Runs

/-! ## Copies -/

theorem nodup_eraseDups [BEq α] [LawfulBEq α] (l : List α) : l.eraseDups.Nodup := by
  induction hn : l.length using Nat.strongRecOn generalizing l with
  | ind n ih =>
    cases l with
    | nil => exact List.nodup_nil
    | cons a l =>
      rw [List.eraseDups_cons, List.nodup_cons]
      have hshorter : (l.filter fun b => !b == a).length < n := by
        have := List.length_filter_le (fun b => !b == a) l
        rw [List.length_cons] at hn
        omega
      exact ⟨by simp, ih _ hshorter _ rfl⟩

/-- Lists of the same items are the same without their copies, but for the order. -/
theorem eraseDups_perm [BEq α] [LawfulBEq α] {l l' : List α} (h : ∀ a, a ∈ l ↔ a ∈ l') :
    l.eraseDups.Perm l'.eraseDups := by
  refine (List.perm_ext_iff_of_nodup (nodup_eraseDups l) (nodup_eraseDups l')).mpr fun a => ?_
  rw [List.mem_eraseDups, List.mem_eraseDups, h]

/-! ## Counting -/

/-- Pairs of two lists are counted from either side. -/
theorem sum_countP_comm (r : α → β → Bool) (l : List α) (m : List β) :
    (l.map fun a => m.countP (r a)).sum = (m.map fun b => l.countP fun a => r a b).sum := by
  induction m with
  | nil => simp
  | cons b m ih =>
    have hmore : ∀ l : List α, (l.map fun a => (b :: m).countP (r a)).sum =
        (l.countP fun a => r a b) + (l.map fun a => m.countP (r a)).sum := by
      intro l
      induction l with
      | nil => rfl
      | cons a l ih =>
        rw [List.map_cons, List.sum_cons, ih, List.map_cons, List.sum_cons, List.countP_cons, List.countP_cons]
        omega
    rw [hmore, ih, List.map_cons, List.sum_cons]

theorem countP_add_countP (p q : α → Bool) (l : List α) :
    l.countP p + l.countP q = (l.countP fun a => p a || q a) + l.countP fun a => p a && q a := by
  induction l with
  | nil => rfl
  | cons a l ih =>
    simp only [List.countP_cons]
    cases p a <;> cases q a <;>
      simp only [Bool.or_true, Bool.or_false, Bool.and_true, Bool.and_false, Bool.false_eq_true, if_true, if_false] <;>
      omega

section

variable [BEq α] [LawfulBEq α]

/-- The items of a list are counted over a list that has each of them once. -/
theorem sum_count_eq_length {l m : List α} (hm : m.Nodup) (h : ∀ a ∈ l, a ∈ m) :
    (m.map fun a => l.count a).sum = l.length := by
  have hone : ∀ b ∈ l, (m.countP fun a => b == a) = 1 := fun b hb => by
    have hcount : m.count b = 1 := by rw [hm.count, if_pos (h b hb)]
    simpa only [List.count, Bool.beq_comm] using hcount
  calc (m.map fun a => l.count a).sum = (l.map fun b => m.countP fun a => b == a).sum :=
        sum_countP_comm (fun a b => b == a) m l
    _ = (l.map fun _ => 1).sum := by rw [List.map_congr_left hone]
    _ = l.length := by simp

theorem countP_contains_eq_length {l m : List α} (hl : l.Nodup) (hm : m.Nodup) (h : ∀ a ∈ l, a ∈ m) :
    m.countP l.contains = l.length := by
  rw [List.countP_eq_length_filter]
  refine ((List.perm_ext_iff_of_nodup (hm.filter _) hl).mpr fun a => ?_).length_eq
  rw [List.mem_filter, List.contains_iff_mem, and_iff_right_of_imp (h a)]

/-- One item is counted apart. -/
theorem countP_eq_add_of_mem {l : List α} (hl : l.Nodup) {b : α} (hb : b ∈ l) (p : α → Bool) :
    l.countP p = (l.countP fun a => a != b && p a) + if p b then 1 else 0 := by
  obtain ⟨before, after, rfl⟩ := List.append_of_mem hb
  have hapart : ∀ a ∈ before ++ after, (a != b) = true := fun a ha => by
    rw [bne_iff_ne]
    rintro rfl
    exact (List.nodup_middle.mp hl).notMem ha
  obtain ⟨hbefore, hafter⟩ := List.forall_mem_append.mp hapart
  have hsame : ∀ {part : List α}, (∀ a ∈ part, (a != b) = true) →
      part.countP (fun a => a != b && p a) = part.countP p := fun hpart =>
    List.countP_congr fun a ha => by rw [hpart a ha, Bool.true_and]
  rw [List.countP_append, List.countP_append, List.countP_cons, List.countP_cons, hsame hbefore, hsame hafter]
  simp only [bne_self_eq_false, Bool.false_and, Bool.false_eq_true, if_false]
  omega

theorem count_flatMap_of_nodup {f : β → List α} {l : List β} (h : ∀ b ∈ l, (f b).Nodup) (a : α) :
    (l.flatMap f).count a = l.countP fun b => (f b).contains a := by
  induction l with
  | nil => rfl
  | cons b l ih =>
    obtain ⟨hb, hl⟩ := List.forall_mem_cons.mp h
    rw [List.flatMap_cons, List.count_append, ih hl, List.countP_cons, hb.count]
    simp only [List.contains_iff_mem]
    omega

end

end RepoOrbit
