import RepoOrbit.Graph.Reading

/-!
# What is read where nothing is wrong

A check of several parts reads a value if each part does (`Checked.map_eq_ok`,
`Checked.seq_eq_ok`), and lists and maps are read as their members are (`listFrom_map`,
`entries_map`, `exists_of_mem_listFrom`). A field is read under the first of its names that
is given (`FieldName.find?_plain`, `FieldName.find?_twofold`).
-/

namespace RepoOrbit

namespace Checked

variable {α β : Type}

@[simp] theorem map_ok (f : α → β) (a : α) : f <$> ok a = ok (f a) := rfl

@[simp] theorem seq_ok (f : α → β) (a : α) : ok f <*> ok a = ok (f a) := rfl

@[simp] theorem within_ok (step : Step) (a : α) : (ok a).within step = ok a := rfl

theorem map_eq_ok {f : α → β} {x : Checked α} {b : β} : f <$> x = ok b ↔ ∃ a, x = ok a ∧ f a = b := by
  cases x with
  | ok a => simp
  | refused is => exact ⟨nofun, fun ⟨_, h, _⟩ => nomatch h⟩

theorem seq_eq_ok {x : Checked (α → β)} {y : Checked α} {b : β} :
    x <*> y = ok b ↔ ∃ f a, x = ok f ∧ y = ok a ∧ f a = b := by
  cases x with
  | ok f => cases y with
    | ok a => simp
    | refused is => exact ⟨nofun, fun ⟨_, _, _, h, _⟩ => nomatch h⟩
  | refused is => cases y <;> exact ⟨nofun, fun ⟨_, _, h, _⟩ => nomatch h⟩

theorem within_eq_ok {step : Step} {x : Checked α} {a : α} : x.within step = ok a ↔ x = ok a := by
  cases x with
  | ok b => rfl
  | refused is => exact ⟨nofun, nofun⟩

theorem andThen_eq_ok {x : Checked α} {f : α → Checked β} {b : β} :
    x.andThen f = ok b ↔ ∃ a, x = ok a ∧ f a = ok b := by
  cases x with
  | ok a => simp [andThen]
  | refused is => simp [andThen]

/-! ## Lists and maps -/

variable {check : Check β}

/-- A list is read as its members are. -/
theorem listFrom_map {write : α → Value} {read : α → β} {items : List α}
    (h : ∀ a ∈ items, check (write a) = ok (read a)) (start : Nat) : listFrom check start (items.map write) = ok (items.map read) := by
  induction items generalizing start with
  | nil => rfl
  | cons a items ih =>
    obtain ⟨ha, hitems⟩ := List.forall_mem_cons.mp h
    rw [List.map_cons, listFrom, ha, ih hitems]
    rfl

/-- A map is read back if its entries are, under the same keys and in the same order. -/
theorem entries_map {write : β → Value} {items : List (String × β)} (h : ∀ e ∈ items, check (write e.2) = ok e.2) :
    entries check (items.map fun e => (e.1, write e.2)) = ok items := by
  induction items with
  | nil => rfl
  | cons e items ih =>
    obtain ⟨he, hitems⟩ := List.forall_mem_cons.mp h
    rw [List.map_cons, entries, he, ih hitems]
    rfl

/-- Every member of a list that was read was read from some value. -/
theorem exists_of_mem_listFrom {start : Nat} {values : List Value} {items : List β}
    (h : listFrom check start values = ok items) : ∀ b ∈ items, ∃ v, check v = ok b := by
  induction values generalizing start items with
  | nil =>
    obtain rfl : [] = items := ok.inj h
    simp
  | cons v values ih =>
    obtain ⟨prepend, rest, hhead, hrest, rfl⟩ := seq_eq_ok.mp h
    obtain ⟨b, hb, rfl⟩ := map_eq_ok.mp hhead
    exact List.forall_mem_cons.mpr ⟨⟨v, within_eq_ok.mp hb⟩, ih hrest⟩

end Checked

/-! ## Fields -/

namespace FieldName

variable {α : Type} {f : FieldName} {check : Check α} {e : List (String × Value)}

theorem find?_plain (name : String) : (plain name).find? e = (e.lookup name).map fun v => (name, v) := by
  rw [find?, plain, List.findSome?_cons]
  cases e.lookup name <;> rfl

theorem find?_twofold (short long : String) :
    (twofold short long).find? e =
      ((e.lookup short).map fun v => (short, v)).or ((e.lookup long).map fun v => (long, v)) := by
  rw [find?, twofold, List.findSome?_cons, List.findSome?_cons]
  cases e.lookup short <;> cases e.lookup long <;> rfl

/-- A field that may be left out is its default or is read from some value. -/
theorem optional_eq_ok {default a : α} (h : f.optional default check e = .ok a) :
    a = default ∨ ∃ v, check v = .ok a := by
  unfold optional at h
  split at h
  · exact .inr ⟨_, Checked.within_eq_ok.mp h⟩
  · exact .inl (Checked.ok.inj h).symm

end FieldName

end RepoOrbit
