import Mathlib.Data.List.Basic
import RepoOrbit.Files.Tree

/-!
# What stands where after a change

The operations on file trees, told by what stands at a place afterwards (`at?`):

* `at?_put_self`, `at?_remove_self`: the place itself and everything below it;
* `at?_put_apart`, `at?_remove_apart`, `at?_change_apart`: a place that is neither
  above nor below keeps what stood there;
* `at?_change_append`: a change below a place is made in what stands there, so that it
  does not empty the place (`isSome_at?_change_below`);
* `at?_change_cases`: what stands anywhere after a change stood there before, is part of the
  new content or is a directory on the way to it;
* `at?_change_of_not_directory`: a file or a link stays, unless the change is made at its
  place or above;
* `at?_makeDirectory_below`: a new directory adds nothing below;
* `at?_move_source`, `at?_move_target`, `at?_move_apart`: moving, from the place
  left, the place reached and any other.
-/

namespace RepoOrbit.FileTree

/-- Neither of two places is the other one or lies below it. -/
def Apart (p q : List String) : Prop := ¬ p <+: q ∧ ¬ q <+: p

theorem Apart.symm {p q : List String} (h : Apart p q) : Apart q p := ⟨h.2, h.1⟩

theorem Apart.append_right {p q : List String} (h : Apart p q) (r : List String) : Apart p (q ++ r) := by
  refine ⟨fun hp => ?_, fun hq => h.2 ((List.prefix_append q r).trans hq)⟩
  rcases List.prefix_or_prefix_of_prefix hp (List.prefix_append q r) with hpq | hqp
  · exact h.1 hpq
  · exact h.2 hqp

theorem Apart.append {p q : List String} (h : Apart p q) (r s : List String) : Apart (p ++ r) (q ++ s) :=
  ((h.append_right s).symm.append_right r).symm

/-- Two names in one directory. -/
theorem apart_of_ne {p : List String} {a b : String} (h : a ≠ b) : Apart (p ++ [a]) (p ++ [b]) := by
  simp only [Apart, List.prefix_append_right_inj, List.cons_prefix_cons, List.prefix_nil]
  exact ⟨fun e => h e.1, fun e => h e.1.symm⟩

theorem not_apart_nil (q : List String) : ¬ Apart [] q := fun h => h.1 List.nil_prefix

theorem Apart.of_cons {a : String} {p q : List String} (h : Apart (a :: p) (a :: q)) : Apart p q := by
  simpa only [Apart, List.cons_prefix_cons, true_and] using h

/-! ## Looking up -/

@[simp] theorem at?_nil (t : FileTree) : t.at? [] = some t := rfl

theorem at?_cons (t : FileTree) (n : String) (p : List String) :
    t.at? (n :: p) = (t.child? n).bind fun e => e.at? p := rfl

theorem at?_append (t : FileTree) (p q : List String) : t.at? (p ++ q) = (t.at? p).bind fun e => e.at? q := by
  induction p generalizing t with
  | nil => rfl
  | cons n p ih =>
    rw [List.cons_append, at?_cons, at?_cons]
    cases t.child? n with
    | none => rfl
    | some e => exact ih e

/-- Nothing stands below a place where nothing stands. -/
theorem at?_append_eq_none {t : FileTree} {p : List String} (h : t.at? p = none) (q : List String) :
    t.at? (p ++ q) = none := by
  rw [at?_append, h, Option.bind_none]

@[simp] theorem child?_directory (es : List (String × FileTree)) (n : String) :
    (directory es).child? n = es.lookup n := rfl

/-! ## The entries of one directory -/

theorem lookup_cons_of_ne {n m : String} (h : m ≠ n) (t : FileTree) (es : List (String × FileTree)) :
    ((n, t) :: es).lookup m = es.lookup m := by
  rw [List.lookup_cons, beq_eq_false_iff_ne.mpr h]

theorem lookup_putEntry_self (n : String) (t : FileTree) (es : List (String × FileTree)) :
    (putEntry n t es).lookup n = some t := by
  induction es with
  | nil => simp [putEntry]
  | cons e es ih =>
    obtain ⟨m, s⟩ := e
    rw [putEntry]
    split
    · rename_i h
      rw [h, List.lookup_cons_self]
    · rename_i h
      rw [lookup_cons_of_ne (Ne.symm h), ih]

theorem lookup_putEntry_of_ne {n m : String} (h : m ≠ n) (t : FileTree) (es : List (String × FileTree)) :
    (putEntry n t es).lookup m = es.lookup m := by
  induction es with
  | nil => rw [putEntry, lookup_cons_of_ne h]
  | cons e es ih =>
    obtain ⟨k, s⟩ := e
    rw [putEntry]
    split
    · rename_i hk
      have hmk : m ≠ k := by rwa [hk]
      rw [lookup_cons_of_ne hmk, lookup_cons_of_ne hmk]
    · rw [List.lookup_cons, List.lookup_cons, ih]

theorem lookup_filter_ne_self (n : String) (es : List (String × FileTree)) :
    (es.filter fun e => e.1 != n).lookup n = none := by
  rw [List.lookup_eq_none_iff]
  intro e he
  rw [bne_iff_ne]
  exact (bne_iff_ne.mp (List.mem_filter.mp he).2).symm

theorem lookup_filter_of_ne {n m : String} (h : m ≠ n) (es : List (String × FileTree)) :
    (es.filter fun e => e.1 != n).lookup m = es.lookup m := by
  induction es with
  | nil => rfl
  | cons e es ih =>
    obtain ⟨k, s⟩ := e
    rw [List.filter_cons]
    split
    · rw [List.lookup_cons, List.lookup_cons, ih]
    · rename_i hk
      have hmk : m ≠ k := fun heq => hk (by simpa [heq] using h)
      rw [lookup_cons_of_ne hmk, ih]

/-! ## Putting -/

/-- What is put at a place stands there, unless a file or a link is in the way;
then nothing stood there before either. -/
theorem at?_put_self (t : FileTree) (p : List String) (new : FileTree) :
    (t.put p new).at? p = some new ∨ ((t.put p new).at? p = none ∧ t.at? p = none) := by
  induction p generalizing t with
  | nil => exact .inl rfl
  | cons n p ih =>
    cases t with
    | directory es =>
      simp only [put, at?_cons, child?_directory, lookup_putEntry_self, Option.bind_some]
      refine (ih ((es.lookup n).getD (.directory []))).imp_right fun h => ⟨h.1, ?_⟩
      cases hl : es.lookup n with
      | none => rfl
      | some e => simpa [hl] using h.2
    | file | link => exact .inr ⟨rfl, rfl⟩

theorem at?_put_apart (t : FileTree) {p q : List String} (h : Apart p q) (new : FileTree) :
    (t.put p new).at? q = t.at? q := by
  induction p generalizing t q with
  | nil => exact absurd h (not_apart_nil q)
  | cons n p ih =>
    cases t with
    | file | link => rfl
    | directory es =>
      cases q with
      | nil => exact absurd h.symm (not_apart_nil _)
      | cons m q =>
        simp only [put, at?_cons, child?_directory]
        by_cases hm : m = n
        · subst hm
          rw [lookup_putEntry_self, Option.bind_some, ih _ h.of_cons]
          cases es.lookup m with
          | some e => rfl
          | none =>
            -- the directory that would have to be made is empty
            cases q with
            | nil => exact absurd h.of_cons.symm (not_apart_nil p)
            | cons k q => rfl
        · rw [lookup_putEntry_of_ne hm]

/-- What is put below a place is put into what stands there. -/
theorem at?_put_append {t e : FileTree} {p : List String} (h : t.at? p = some e) (r : List String) (new : FileTree) :
    (t.put (p ++ r) new).at? p = some (e.put r new) := by
  induction p generalizing t with
  | nil =>
    obtain rfl : t = e := Option.some.inj h
    rfl
  | cons n p ih =>
    cases t with
    | file | link => simp [at?_cons, child?, entries] at h
    | directory es =>
      simp only [at?_cons, child?_directory] at h
      simp only [List.cons_append, put, at?_cons, child?_directory, lookup_putEntry_self, Option.bind_some]
      cases hl : es.lookup n with
      | none => simp [hl] at h
      | some d => exact ih (by simpa [hl] using h)

/-! ## Taking away -/

theorem remove_of_lookup_none {es : List (String × FileTree)} {n : String} (h : es.lookup n = none)
    (m : String) (p : List String) : (directory es).remove (n :: m :: p) = directory es := by
  simp only [remove, h]

theorem remove_of_lookup_some {es : List (String × FileTree)} {n : String} {e : FileTree}
    (h : es.lookup n = some e) (m : String) (p : List String) :
    (directory es).remove (n :: m :: p) = directory (putEntry n (e.remove (m :: p)) es) := by
  simp only [remove, h]

theorem at?_remove_self (t : FileTree) {p : List String} (h : p ≠ []) : (t.remove p).at? p = none := by
  induction p generalizing t with
  | nil => exact absurd rfl h
  | cons n p ih =>
    cases t with
    | file | link => cases p <;> rfl
    | directory es =>
      cases p with
      | nil => simp [remove, at?_cons, lookup_filter_ne_self]
      | cons m p =>
        cases hl : es.lookup n with
        | none => rw [remove_of_lookup_none hl, at?_cons, child?_directory, hl]; rfl
        | some e =>
          rw [remove_of_lookup_some hl, at?_cons, child?_directory, lookup_putEntry_self]
          exact ih e (List.cons_ne_nil m p)

theorem at?_remove_apart (t : FileTree) {p q : List String} (h : Apart p q) :
    (t.remove p).at? q = t.at? q := by
  induction p generalizing t q with
  | nil => exact absurd h (not_apart_nil q)
  | cons n p ih =>
    cases t with
    | file | link => cases p <;> rfl
    | directory es =>
      cases q with
      | nil => exact absurd h.symm (not_apart_nil _)
      | cons k q =>
        cases p with
        | nil =>
          have hk : k ≠ n := fun e => absurd (e ▸ h).of_cons (not_apart_nil q)
          simp only [remove, at?_cons, child?_directory, lookup_filter_of_ne hk]
        | cons m p =>
          cases hl : es.lookup n with
          | none => rw [remove_of_lookup_none hl]
          | some e =>
            rw [remove_of_lookup_some hl, at?_cons, at?_cons, child?_directory, child?_directory]
            by_cases hk : k = n
            · subst hk
              rw [lookup_putEntry_self, hl]
              exact ih e h.of_cons
            · rw [lookup_putEntry_of_ne hk]

/-- What is taken away below a place is taken out of what stands there. -/
theorem at?_remove_append {t e : FileTree} {p r : List String} (hr : r ≠ []) (h : t.at? p = some e) :
    (t.remove (p ++ r)).at? p = some (e.remove r) := by
  induction p generalizing t with
  | nil =>
    obtain rfl : t = e := Option.some.inj h
    rfl
  | cons n p ih =>
    cases t with
    | file | link => simp [at?_cons, child?, entries] at h
    | directory es =>
      obtain ⟨m, q, hq⟩ := List.exists_cons_of_ne_nil (List.append_ne_nil_of_right_ne_nil p hr)
      rw [at?_cons, child?_directory] at h
      cases hl : es.lookup n with
      | none => simp [hl] at h
      | some d =>
        rw [List.cons_append, hq, remove_of_lookup_some hl, at?_cons, child?_directory,
          lookup_putEntry_self, ← hq]
        exact ih (by simpa [hl] using h)

/-! ## Changes of either kind -/

theorem at?_change_apart (t : FileTree) {p q : List String} (h : Apart p q) (content : Option FileTree) :
    (t.change p content).at? q = t.at? q := by
  cases content with
  | some new => exact at?_put_apart t h new
  | none => exact at?_remove_apart t h

theorem at?_change_append {t e : FileTree} {p r : List String} (hr : r ≠ []) (h : t.at? p = some e)
    (content : Option FileTree) : (t.change (p ++ r) content).at? p = some (e.change r content) := by
  cases content with
  | some new => exact at?_put_append h r new
  | none => exact at?_remove_append hr h

/-- A change below a place does not empty it. -/
theorem isSome_at?_change_below (t : FileTree) (p : List String) {r : List String} (hr : r ≠ [])
    (content : Option FileTree) (h : (t.at? p).isSome) : ((t.change (p ++ r) content).at? p).isSome := by
  obtain ⟨e, he⟩ := Option.isSome_iff_exists.mp h
  rw [at?_change_append hr he]
  rfl

/-- A change below a directory leaves a directory. -/
theorem isDirectory_change {t : FileTree} (h : t.isDirectory) {r : List String} (hr : r ≠ [])
    (content : Option FileTree) : (t.change r content).isDirectory := by
  cases t with
  | file | link => cases h
  | directory es =>
    obtain ⟨n, r, rfl⟩ := List.exists_cons_of_ne_nil hr
    cases content with
    | some new => rfl
    | none =>
      cases r with
      | nil => rfl
      | cons m r =>
        cases hl : es.lookup n with
        | none => rw [change, remove_of_lookup_none hl]; rfl
        | some e => rw [change, remove_of_lookup_some hl]; rfl

/-- What stands at a place after a change stood there before, is a directory on the way to the
new content or is part of this. -/
theorem at?_put_cases {t new e : FileTree} {q p : List String} (h : (t.put q new).at? p = some e) :
    t.at? p = some e ∨ e.isDirectory ∨ ∃ r, p = q ++ r ∧ new.at? r = some e := by
  induction q generalizing t p with
  | nil => exact .inr (.inr ⟨p, rfl, h⟩)
  | cons n q ih =>
    cases t with
    | file | link => exact .inl h
    | directory es =>
      cases p with
      | nil =>
        obtain rfl := Option.some.inj h
        exact .inr (.inl rfl)
      | cons m p =>
        simp only [put, at?_cons, child?_directory] at h ⊢
        by_cases hm : m = n
        · subst hm
          rw [lookup_putEntry_self, Option.bind_some] at h
          rcases ih h with hbefore | hdirectory | ⟨r, rfl, hnew⟩
          · cases hl : es.lookup m with
            | some d => exact .inl (by simpa [hl] using hbefore)
            | none =>
              -- the directory that had to be made is all that stands there
              rw [hl, Option.getD_none] at hbefore
              cases p with
              | nil =>
                obtain rfl := Option.some.inj hbefore
                exact .inr (.inl rfl)
              | cons k p => simp [at?_cons] at hbefore
          · exact .inr (.inl hdirectory)
          · exact .inr (.inr ⟨r, rfl, hnew⟩)
        · rw [lookup_putEntry_of_ne hm] at h
          exact .inl h

theorem at?_remove_cases {t e : FileTree} {q p : List String} (h : (t.remove q).at? p = some e) :
    t.at? p = some e ∨ e.isDirectory := by
  induction q generalizing t p with
  | nil => exact .inl h
  | cons n q ih =>
    cases t with
    | file | link => cases q <;> exact .inl h
    | directory es =>
      cases p with
      | nil =>
        obtain rfl := Option.some.inj h
        exact .inr (isDirectory_change (t := directory es) rfl (List.cons_ne_nil n q) none)
      | cons m p =>
        rw [at?_cons, child?_directory]
        cases q with
        | nil =>
          simp only [remove, at?_cons, child?_directory] at h
          by_cases hm : m = n
          · rw [hm, lookup_filter_ne_self] at h
            cases h
          · rw [lookup_filter_of_ne hm] at h
            exact .inl h
        | cons k q =>
          cases hl : es.lookup n with
          | none =>
            rw [remove_of_lookup_none hl] at h
            exact .inl h
          | some d =>
            rw [remove_of_lookup_some hl, at?_cons, child?_directory] at h
            by_cases hm : m = n
            · subst hm
              rw [lookup_putEntry_self] at h
              rw [hl]
              exact ih h
            · rw [lookup_putEntry_of_ne hm] at h
              exact .inl h

theorem at?_change_cases {t e : FileTree} {q p : List String} {content : Option FileTree}
    (h : (t.change q content).at? p = some e) :
    t.at? p = some e ∨ e.isDirectory ∨ ∃ new r, content = some new ∧ p = q ++ r ∧ new.at? r = some e := by
  cases content with
  | none => exact (at?_remove_cases h).imp_right .inl
  | some new =>
    refine (at?_put_cases h).imp_right (Or.imp_right ?_)
    rintro ⟨r, hp, hr⟩
    exact ⟨new, r, rfl, hp, hr⟩

/-- Nothing is changed below a file or a link. -/
theorem change_of_not_directory {t : FileTree} (h : ¬ t.isDirectory) {r : List String} (hr : r ≠ [])
    (content : Option FileTree) : t.change r content = t := by
  obtain ⟨n, r, rfl⟩ := List.exists_cons_of_ne_nil hr
  cases t with
  | directory es => exact absurd rfl h
  | file | link => cases content <;> cases r <;> rfl

/-- A file or a link stays where it is, unless the change is made there or above. -/
theorem at?_change_of_not_directory {t e : FileTree} {q p : List String} (h : t.at? p = some e)
    (he : ¬ e.isDirectory) (hq : ¬ q <+: p) (content : Option FileTree) :
    (t.change q content).at? p = some e := by
  by_cases hp : p <+: q
  · obtain ⟨r, rfl⟩ := hp
    have hr : r ≠ [] := fun hnil => hq (by simp [hnil])
    rw [at?_change_append hr h, change_of_not_directory he hr]
  · rw [at?_change_apart t ⟨hq, hp⟩, h]

/-- A new directory is empty, and one that was there keeps its entries. -/
theorem at?_makeDirectory_below (t : FileTree) (p : List String) {r : List String} (hr : r ≠ []) :
    (t.makeDirectory p).at? (p ++ r) = t.at? (p ++ r) := by
  unfold makeDirectory
  split
  · rfl
  · rename_i h
    obtain ⟨n, r, rfl⟩ := List.exists_cons_of_ne_nil hr
    rw [at?_append_eq_none h, at?_append]
    rcases at?_put_self t p (.directory []) with hp | ⟨hp, -⟩
    · rw [hp]; rfl
    · rw [hp]; rfl

/-! ## Moving -/

theorem at?_move_apart (t : FileTree) {p q s : List String} (hp : Apart p s) (hq : Apart q s) :
    (t.move p q).at? s = t.at? s := by
  unfold move
  split
  · rw [at?_put_apart _ hq, at?_remove_apart _ hp]
  · rfl

theorem at?_move_source (t : FileTree) {p q : List String} (h : Apart p q) : (t.move p q).at? p = none := by
  have hp : p ≠ [] := fun e => not_apart_nil q (e ▸ h)
  unfold move
  split
  · rw [at?_put_apart _ h.symm, at?_remove_self _ hp]
  · assumption

/-- What stands at the place something is moved to is what was moved, if anything
was. -/
theorem at?_move_target (t : FileTree) {p q : List String} (h : Apart p q) :
    (∃ e, t.at? p = some e ∧ (t.move p q).at? q = some e) ∨ (t.move p q).at? q = t.at? q := by
  unfold move
  split
  · rename_i e he
    rcases at?_put_self (t.remove p) q e with hs | ⟨hs, hn⟩
    · exact .inl ⟨e, he, hs⟩
    · rw [at?_remove_apart t h] at hn
      exact .inr (hs.trans hn.symm)
  · exact .inr rfl

end RepoOrbit.FileTree
