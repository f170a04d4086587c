import Mathlib.Data.List.Basic
import Mathlib.Data.String.Basic
import RepoOrbit.Fetch.HostAddress

/-!
# The form of numeric host addresses

What tells an address of groups from a name and from an address of decimal numbers: it has two
colons, and it begins with a colon or a hexadecimal digit (`isGrouped_spec`); an address of
decimal numbers has no colon (`not_isDotted_of_colon`).
-/

namespace RepoOrbit.HostAddress

/-! ## Pieces -/

theorem pieces_eq (separator : Char) (s : String) :
    pieces separator s = (s.toList.splitOn separator).map String.ofList :=
  String.splitToList_of_valid _ _

theorem length_splitOn (separator : Char) (l : List Char) : (l.splitOn separator).length = l.count separator + 1 := by
  induction l with
  | nil => rfl
  | cons c l ih =>
    rw [List.splitOn_cons_eq_if_modifyHead, List.count_cons]
    split
    · rw [List.length_cons, ih]
    · rw [List.length_modifyHead, ih]

theorem length_pieces (separator : Char) (s : String) : (pieces separator s).length = s.toList.count separator + 1 := by
  rw [pieces_eq, List.length_map, length_splitOn]

theorem exists_pieces_cons {separator : Char} {s : String} (h : separator ∈ s.toList) :
    ∃ first rest, s.toList = first.toList ++ separator :: rest.toList ∧
      pieces separator s = first :: pieces separator rest := by
  obtain ⟨a, b, hs, ha⟩ := List.eq_append_cons_of_mem h
  refine ⟨String.ofList a, String.ofList b, by simpa using hs, ?_⟩
  rw [pieces_eq, hs, List.splitOn_append_cons_self, List.splitOn_eq_singleton ha, pieces_eq, String.toList_ofList]
  rfl

theorem prefix_of_pieces {separator : Char} {s first : String} {others : List String}
    (h : pieces separator s = first :: others) : first.toList <+: s.toList := by
  by_cases hmem : separator ∈ s.toList
  · obtain ⟨first', rest, hs, hpieces⟩ := exists_pieces_cons hmem
    rw [hs, (List.cons.inj (h.symm.trans hpieces)).1]
    exact List.prefix_append _ _
  · rw [pieces_eq, List.splitOn_eq_singleton hmem, List.map_singleton, String.ofList_toList] at h
    exact (List.cons.inj h).1 ▸ List.prefix_rfl

theorem mem_intercalate {separator c : Char} {parts : List (List Char)} (h : c ∈ [separator].intercalate parts) :
    c = separator ∨ ∃ part ∈ parts, c ∈ part := by
  induction parts with
  | nil => cases h
  | cons first others ih =>
    cases others with
    | nil =>
      rw [List.intercalate_singleton] at h
      exact .inr ⟨first, List.mem_cons_self, h⟩
    | cons second others =>
      rw [List.intercalate_cons_cons] at h
      simp only [List.mem_append, List.mem_singleton] at h
      rcases h with (hfirst | hseparator) | hrest
      · exact .inr ⟨first, List.mem_cons_self, hfirst⟩
      · exact .inl hseparator
      · obtain hseparator | ⟨part, hpart, hc⟩ := ih hrest
        · exact .inl hseparator
        · exact .inr ⟨part, List.mem_cons_of_mem _ hpart, hc⟩

/-- What is not the separator stands in one of the pieces. -/
theorem exists_mem_pieces {separator c : Char} {s : String} (hc : c ∈ s.toList) (hne : c ≠ separator) :
    ∃ piece ∈ pieces separator s, c ∈ piece.toList := by
  have hjoin : [separator].intercalate (s.toList.splitOn separator) = s.toList := List.intercalate_splitOn separator
  rw [← hjoin] at hc
  obtain ⟨part, hpart, hmem⟩ := (mem_intercalate hc).resolve_left hne
  refine ⟨String.ofList part, ?_, by rwa [String.toList_ofList]⟩
  rw [pieces_eq]
  exact List.mem_map_of_mem hpart

/-! ## Addresses -/

theorem not_isDotted_of_colon {s : String} (h : ':' ∈ s.toList) : ¬ isDotted s := by
  intro hdotted
  obtain ⟨piece, hpiece, hcolon⟩ := exists_mem_pieces h (by decide : ':' ≠ '.')
  simp only [isDotted, Bool.and_eq_true, List.all_eq_true] at hdotted
  have hoctet := hdotted.2 piece hpiece
  simp only [isOctet, Bool.and_eq_true, List.all_eq_true] at hoctet
  exact absurd (hoctet.1.1.1.2 ':' hcolon) (by decide)

/-- The groups of an address begin with the first piece of it, and there are two colons. -/
theorem groups?_spec {s : String} {parts : List String} (h : groups? s = some parts) :
    2 ≤ s.toList.count ':' ∧ parts.head? = (pieces ':' s).head? := by
  unfold groups? at h
  dsimp only at h
  have hlength := length_pieces ':' s
  split at h
  · cases h
  · refine ⟨by omega, ?_⟩
    split at h
    · split at h
      · have hhead : (pieces ':' s).dropLast.head? = (pieces ':' s).head? := by
          rw [List.head?_dropLast, if_pos (by omega)]
        rw [← Option.some.inj h, List.head?_append, hhead]
        cases hpieces : pieces ':' s with
        | nil => simp [hpieces] at hlength
        | cons first others => rfl
      · cases h
    · rw [← Option.some.inj h]

theorem left_of_sidesFit {before after : List String} (h : sidesFit before after) {first : String}
    (hfirst : before.head? = some first) : first = "" ∨ isGroup first := by
  by_cases hempty : first = ""
  · exact .inl hempty
  · have hne : before.head? ≠ some "" := by simpa [hfirst] using hempty
    simp only [sidesFit, if_neg hne, Bool.and_eq_true, List.all_eq_true] at h
    exact .inr (h.1.2 first (List.mem_of_mem_head? hfirst))

theorem first_of_groupsFit {parts : List String} (h : groupsFit parts) {first : String}
    (hfirst : parts.head? = some first) : first = "" ∨ isGroup first := by
  unfold groupsFit at h
  split at h
  · cases h
  · dsimp only at h
    split at h
    · simp only [Bool.and_eq_true, List.all_eq_true] at h
      exact .inr (h.2 first (List.mem_of_mem_head? hfirst))
    · refine left_of_sidesFit h ?_
      rw [List.head?_take, if_neg (by omega), hfirst]
    · cases h

/-- An address of groups has two colons, and it begins with a colon or a hexadecimal digit. -/
theorem isGrouped_spec {s : String} (h : isGrouped s) :
    2 ≤ s.toList.count ':' ∧ ∀ c, s.toList.head? = some c → c = ':' ∨ isHex c := by
  obtain ⟨address, parts, hbegin, hgroups, hfit⟩ : ∃ address parts, address.toList <+: s.toList ∧
      groups? address = some parts ∧ groupsFit parts := by
    unfold isGrouped at h
    split at h
    · rename_i address hpieces
      obtain ⟨parts, hparts⟩ := (Option.any_eq_true _ _).mp h
      exact ⟨address, parts, prefix_of_pieces hpieces, hparts⟩
    · rename_i address zone hpieces
      obtain ⟨parts, hparts⟩ := (Option.any_eq_true _ _).mp ((Bool.and_eq_true _ _).mp h).2
      exact ⟨address, parts, prefix_of_pieces hpieces, hparts⟩
    · cases h
  obtain ⟨hcolons, hhead⟩ := groups?_spec hgroups
  refine ⟨hcolons.trans (hbegin.sublist.count_le _), fun c hc => ?_⟩
  have hcolon : ':' ∈ address.toList := List.count_pos_iff.mp (by omega)
  obtain ⟨first, rest, haddress, hpieces⟩ := exists_pieces_cons hcolon
  rw [hpieces] at hhead
  obtain ⟨tail, htail⟩ := hbegin
  rw [← htail, haddress] at hc
  rcases first_of_groupsFit hfit hhead with rfl | hgroup
  · exact .inl (Option.some.inj hc).symm
  · simp only [isGroup, Bool.and_eq_true, bne_iff_ne, List.all_eq_true] at hgroup
    obtain ⟨d, l, hfirst⟩ := List.exists_cons_of_ne_nil fun hnil => hgroup.1.1 (String.toList_eq_nil_iff.mp hnil)
    rw [hfirst] at hc hgroup
    obtain rfl : d = c := Option.some.inj hc
    exact .inr (hgroup.2 d List.mem_cons_self)

end RepoOrbit.HostAddress
