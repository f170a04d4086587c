import RepoOrbit.Imports.Specifier
import RepoOrbit.Proofs.Imports.Occurrences

/-!
# The occurrences that a scan chooses

An occurrence of a form of import has its place in a text (`ImportForm.OccursAt`). However white
space and body are cut, one occurrence begins at a place at most (`OccursAt.eq_of_start_eq`), but
occurrences may reach into each other. Chosen from left to right are those that do not begin inside
one chosen before (`ImportForm.IsSelection`); there is one way to choose so (`IsSelection.unique`).
A scan passes a place at which no occurrence begins (`IsSelection.of_succ`), and takes the one that
does and goes on behind it (`IsSelection.cons`).

* `extract_scan_exact`: a scan gives the specifiers of the occurrences so chosen.
-/

namespace RepoOrbit.ImportForm

/-! ## Places of occurrences -/

/-- A stretch of a text, and the specifier in it. -/
structure Occurrence where
  start : Nat
  stop : Nat
  body : List Char

variable {form : ImportForm} {text : List Char}

/-- An occurrence of the form in a text. -/
def OccursAt (form : ImportForm) (text : List Char) (o : Occurrence) : Prop :=
  ∃ before found after, text = before ++ (found ++ after) ∧ o.start = before.length ∧
    o.stop = o.start + found.length ∧ Occurs form before.getLast? (found ++ after) o.body after

theorem OccursAt.start_lt_stop {o : Occurrence} (h : form.OccursAt text o) : o.start < o.stop := by
  obtain ⟨before, found, after, -, -, hstop, hoccurs⟩ := h
  have hlength := hoccurs.length_lt
  rw [List.length_append] at hlength
  omega

theorem OccursAt.stop_le {o : Occurrence} (h : form.OccursAt text o) : o.stop ≤ text.length := by
  obtain ⟨before, found, after, rfl, hstart, hstop, -⟩ := h
  simp only [List.length_append]
  omega

/-- Behind the beginning of a text an occurrence is one of the rest. -/
theorem occursAt_append_iff {before rest : List Char} {o : Occurrence} (hstart : o.start = before.length) :
    form.OccursAt (before ++ rest) o ↔
      ∃ found after, rest = found ++ after ∧ o.stop = before.length + found.length ∧
        Occurs form before.getLast? rest o.body after := by
  constructor
  · rintro ⟨before', found, after, htext, hstart', hstop, hoccurs⟩
    obtain ⟨rfl, rfl⟩ := List.append_inj htext (hstart.symm.trans hstart')
    exact ⟨found, after, rfl, hstart ▸ hstop, hoccurs⟩
  · rintro ⟨found, after, rfl, hstop, hoccurs⟩
    exact ⟨before, found, after, rfl, hstart, hstart ▸ hstop, hoccurs⟩

/-- However an occurrence is read, one begins at a place at most. -/
theorem OccursAt.eq_of_start_eq {o o' : Occurrence} (h : form.OccursAt text o) (h' : form.OccursAt text o')
    (hstart : o.start = o'.start) : o = o' := by
  obtain ⟨before, found, after, rfl, hbefore, hstop, hoccurs⟩ := h
  obtain ⟨found', after', hrest, hstop', hoccurs'⟩ := (occursAt_append_iff (hstart ▸ hbefore)).mp h'
  have hread : some (o.body, after) = some (o'.body, after') :=
    (here?_eq_some_iff.mpr hoccurs).symm.trans (here?_eq_some_iff.mpr hoccurs')
  obtain ⟨hbody, rfl⟩ := Prod.mk.inj (Option.some.inj hread)
  obtain rfl := List.append_cancel_right hrest
  have hstops : o.stop = o'.stop := by omega
  cases o
  cases o'
  simp_all

/-- Where nothing is read, no occurrence begins. -/
theorem OccursAt.start_ne_of_here?_eq_none {before rest : List Char} (hnone : form.here? before.getLast? rest = none)
    {o : Occurrence} (ho : form.OccursAt (before ++ rest) o) : o.start ≠ before.length := by
  intro hstart
  obtain ⟨found, after, -, -, hoccurs⟩ := (occursAt_append_iff hstart).mp ho
  rw [here?_eq_some_iff.mpr hoccurs] at hnone
  cases hnone

/-! ## Choosing from left to right -/

/-- The occurrences chosen of those that begin at a place or behind it: they lie behind each other,
and what is not chosen begins inside one that is and that begins before it. -/
structure IsSelection (form : ImportForm) (text : List Char) (place : Nat) (chosen : List Occurrence) : Prop where
  occurs : ∀ o ∈ chosen, form.OccursAt text o
  place_le : ∀ o ∈ chosen, place ≤ o.start
  apart : chosen.Pairwise fun o o' => o.stop ≤ o'.start
  leftmost : ∀ o, form.OccursAt text o → place ≤ o.start →
    o ∈ chosen ∨ ∃ o' ∈ chosen, o'.start < o.start ∧ o.start < o'.stop

namespace IsSelection

variable {place : Nat} {chosen : List Occurrence} {o : Occurrence}

/-- At the end of the text there is nothing to choose. -/
theorem nil : IsSelection form text text.length [] where
  occurs := nofun
  place_le := nofun
  apart := .nil
  leftmost o ho hle := by
    have hlt := ho.start_lt_stop
    have hstop := ho.stop_le
    omega

/-- A place at which no occurrence begins is passed. -/
theorem of_succ (h : IsSelection form text (place + 1) chosen)
    (hnone : ∀ o, form.OccursAt text o → o.start ≠ place) : IsSelection form text place chosen where
  occurs := h.occurs
  place_le o ho := by
    have hle := h.place_le o ho
    omega
  apart := h.apart
  leftmost o ho hle := by
    have hne := hnone o ho
    exact h.leftmost o ho (by omega)

/-- An occurrence that begins at the place is chosen, and the choice goes on behind it. -/
theorem cons (ho : form.OccursAt text o) (h : IsSelection form text o.stop chosen) :
    IsSelection form text o.start (o :: chosen) where
  occurs := List.forall_mem_cons.mpr ⟨ho, h.occurs⟩
  place_le := List.forall_mem_cons.mpr ⟨le_rfl, fun o' ho' => ho.start_lt_stop.le.trans (h.place_le o' ho')⟩
  apart := List.pairwise_cons.mpr ⟨h.place_le, h.apart⟩
  leftmost o' ho' hle := by
    rcases Nat.lt_or_ge o'.start o.stop with hlt | hge
    · rcases Nat.eq_or_lt_of_le hle with heq | hlt'
      · exact .inl (List.mem_cons.mpr (.inl (ho'.eq_of_start_eq ho heq.symm)))
      · exact .inr ⟨o, List.mem_cons_self, hlt', hlt⟩
    · rcases h.leftmost o' ho' hge with hmem | ⟨o'', hmem, hinside⟩
      · exact .inl (List.mem_cons_of_mem _ hmem)
      · exact .inr ⟨o'', List.mem_cons_of_mem _ hmem, hinside⟩

theorem tail (h : IsSelection form text place (o :: chosen)) : IsSelection form text o.stop chosen where
  occurs := (List.forall_mem_cons.mp h.occurs).2
  place_le := (List.pairwise_cons.mp h.apart).1
  apart := (List.pairwise_cons.mp h.apart).2
  leftmost o' ho' hle := by
    have hlt := (h.occurs o List.mem_cons_self).start_lt_stop
    have hplace := h.place_le o List.mem_cons_self
    rcases h.leftmost o' ho' (by omega) with hmem | ⟨o'', hmem, hinside⟩
    · rcases List.mem_cons.mp hmem with rfl | hmem
      · omega
      · exact .inl hmem
    · rcases List.mem_cons.mp hmem with rfl | hmem
      · omega
      · exact .inr ⟨o'', hmem, hinside⟩

/-- No occurrence begins before the first one chosen. -/
theorem head_le (h : IsSelection form text place (o :: chosen)) {o' : Occurrence} (ho' : form.OccursAt text o')
    (hle : place ≤ o'.start) : o.start ≤ o'.start := by
  have hlt := (h.occurs o List.mem_cons_self).start_lt_stop
  have hfirst : ∀ o'' ∈ o :: chosen, o.start ≤ o''.start :=
    List.forall_mem_cons.mpr ⟨le_rfl, fun o'' hmem => hlt.le.trans (h.tail.place_le o'' hmem)⟩
  rcases h.leftmost o' ho' hle with hmem | ⟨o'', hmem, hinside, -⟩
  · exact hfirst o' hmem
  · exact (hfirst o'' hmem).trans hinside.le

theorem start_lt_of_nil (h : IsSelection form text place []) (ho : form.OccursAt text o) : o.start < place := by
  by_contra hle
  rcases h.leftmost o ho (Nat.not_lt.mp hle) with hmem | ⟨o', hmem, -⟩
  · cases hmem
  · cases hmem

/-- There is one way to choose from left to right. -/
theorem unique {chosen' : List Occurrence} (h : IsSelection form text place chosen)
    (h' : IsSelection form text place chosen') : chosen = chosen' := by
  induction chosen generalizing place chosen' with
  | nil =>
    cases chosen' with
    | nil => rfl
    | cons o' chosen' =>
      have hle := h'.place_le o' List.mem_cons_self
      exact absurd hle (Nat.not_le.mpr (h.start_lt_of_nil (h'.occurs o' List.mem_cons_self)))
  | cons o chosen ih =>
    have ho := h.occurs o List.mem_cons_self
    have hle := h.place_le o List.mem_cons_self
    cases chosen' with
    | nil => exact absurd hle (Nat.not_le.mpr (h'.start_lt_of_nil ho))
    | cons o' chosen' =>
      have ho' := h'.occurs o' List.mem_cons_self
      have hstart := Nat.le_antisymm (h.head_le ho' (h'.place_le o' List.mem_cons_self)) (h'.head_le ho hle)
      obtain rfl := ho.eq_of_start_eq ho' hstart
      rw [ih h.tail h'.tail]

end IsSelection

/-! ## What a scan gives -/

/-- From any place on, a scan gives the specifiers of what is chosen from there. -/
theorem exists_selection_bodiesFrom (form : ImportForm) (before rest : List Char) :
    ∃ chosen, IsSelection form (before ++ rest) before.length chosen ∧
      bodiesFrom form 0 before.getLast? rest = chosen.map Occurrence.body := by
  -- By what is left of the text: it gets shorter by one character or by an occurrence.
  induction hlength : rest.length using Nat.strong_induction_on generalizing before rest with
  | _ n ih =>
    subst hlength
    cases rest with
    | nil =>
      refine ⟨[], ?_, rfl⟩
      rw [List.append_nil]
      exact .nil
    | cons c rest =>
      cases hread : form.here? before.getLast? (c :: rest) with
      | none =>
        obtain ⟨chosen, hchosen, hbodies⟩ := ih rest.length (Nat.lt_succ_self _) (before ++ [c]) rest rfl
        rw [List.append_assoc, List.singleton_append, List.length_append, List.length_singleton] at hchosen
        rw [List.getLast?_concat] at hbodies
        refine ⟨chosen, hchosen.of_succ fun o ho => ho.start_ne_of_here?_eq_none hread, ?_⟩
        rw [bodiesFrom, hread]
        exact hbodies
      | some read =>
        obtain ⟨body, after⟩ := read
        have hoccurs := here?_eq_some_iff.mp hread
        obtain ⟨found, hrest⟩ := hoccurs.exists_append
        rw [hrest] at hoccurs ⊢
        obtain ⟨chosen, hchosen, hbodies⟩ := ih after.length (hrest ▸ hoccurs.length_lt) (before ++ found) after rfl
        rw [List.append_assoc, List.length_append] at hchosen
        have hplace : form.OccursAt (before ++ (found ++ after)) ⟨before.length, before.length + found.length, body⟩ :=
          ⟨before, found, after, rfl, rfl, rfl, hoccurs⟩
        refine ⟨_ :: chosen, .cons hplace hchosen, ?_⟩
        rw [bodiesFrom_of_occurs hoccurs, ← List.getLast?_append, hbodies, List.map_cons]

/-- In every text one occurrence at most begins at a place, and a scan gives the specifiers of the
occurrences chosen from left to right, in this order. -/
theorem extract_scan_exact (form : ImportForm) (text : String) :
    (∀ o o', form.OccursAt text.toList o → form.OccursAt text.toList o' → o.start = o'.start → o = o') ∧
      ∃ chosen, IsSelection form text.toList 0 chosen ∧
        (∀ other, IsSelection form text.toList 0 other → other = chosen) ∧
        (SpecifierStrategy.scan form).extract text = .ok (chosen.map fun o => String.ofList o.body) := by
  refine ⟨fun o o' ho ho' => ho.eq_of_start_eq ho', ?_⟩
  obtain ⟨chosen, hchosen, hbodies⟩ := exists_selection_bodiesFrom form [] text.toList
  refine ⟨chosen, hchosen, fun other hother => hother.unique hchosen, ?_⟩
  rw [SpecifierStrategy.extract, bodies, ← List.getLast?_nil, hbodies, List.map_map]
  rfl

/-- What looks like a second occurrence begins inside the first one. -/
example : bodies .fromClause "from './a from './b'".toList = ["./a from ".toList] := by decide

end RepoOrbit.ImportForm
