import RepoOrbit.Fetch.Repository
import RepoOrbit.Proofs.Lists
import RepoOrbit.Proofs.Paths

/-!
# Which texts name a repository

An identifier is an owner and a name with a slash between them (`IsIdentifier`). A text is
taken for one by its form, in which a line end may follow the name
(`hasRepositoryForm_iff`), and by the pieces between its slashes, to the last of which that
line end belongs (`isRepository_join_iff`, `isRepository_lineEnd_iff`).
`repositories_exact` says what is taken for a repository: the identifiers, and also an owner
and a name with a line end behind them, where the name may be a dot or two as well.
-/

namespace RepoOrbit

/-- Letters, digits and three signs, at least one of them. -/
structure IsWord (part : String) : Prop where
  ne_empty : part ≠ ""
  chars : ∀ c ∈ part.toList, c.isAlphanum ∨ c = '_' ∨ c = '.' ∨ c = '-'

/-- An owner or a name: a word that is neither a dot nor two and begins with no hyphen. -/
structure IsIdentifierPart (part : String) : Prop extends IsWord part where
  ne_dot : part ≠ "."
  ne_dots : part ≠ ".."
  not_hyphen : ¬ part.startsWith "-"

/-- An owner and a name with a slash between them. -/
def IsIdentifier (repo : String) : Prop :=
  ∃ owner name, IsIdentifierPart owner ∧ IsIdentifierPart name ∧ repo = owner ++ "/" ++ name

theorem isNameChar_iff {c : Char} : isNameChar c ↔ c.isAlphanum ∨ c = '_' ∨ c = '.' ∨ c = '-' := by
  simp [isNameChar, or_assoc]

theorem isWord_ofList_iff {l : List Char} : IsWord (String.ofList l) ↔ l ≠ [] ∧ ∀ c ∈ l, isNameChar c := by
  constructor
  · intro h
    refine ⟨fun hnil => h.ne_empty (by rw [hnil]), fun c hc => isNameChar_iff.mpr (h.chars c ?_)⟩
    rwa [String.toList_ofList]
  · rintro ⟨hne, hchars⟩
    refine ⟨fun hempty => hne ?_, fun c hc => isNameChar_iff.mp (hchars c ?_)⟩
    · rw [← String.toList_ofList (l := l), hempty]
      rfl
    · rwa [String.toList_ofList] at hc

namespace IsWord

variable {part : String}

theorem isNameChar (h : IsWord part) : ∀ c ∈ part.toList, isNameChar c := fun c hc => isNameChar_iff.mpr (h.chars c hc)

theorem toList_ne_nil (h : IsWord part) : part.toList ≠ [] := by
  intro hnil
  exact h.ne_empty (String.toList_eq_nil_iff.mp hnil)

theorem slash_not_mem (h : IsWord part) : '/' ∉ part.toList := fun hm => absurd (h.isNameChar _ hm) (by decide)

theorem newline_not_mem (h : IsWord part) : '\n' ∉ part.toList := fun hm => absurd (h.isNameChar _ hm) (by decide)

end IsWord

/-! ## The form -/

/-- A text is itself without a line end at its end, or has one more. -/
theorem withoutFinalNewline_eq_iff {s text : List Char} (h : '\n' ∉ text) :
    withoutFinalNewline s = text ↔ s = text ∨ s = text ++ ['\n'] := by
  unfold withoutFinalNewline
  split
  · rename_i hlast
    have hs : s.dropLast ++ ['\n'] = s := List.dropLast_append_getLast? _ hlast
    constructor
    · rintro rfl
      exact .inr hs.symm
    · rintro (rfl | rfl)
      · exact absurd (List.mem_of_getLast? hlast) h
      · exact List.dropLast_concat
  · rename_i hlast
    refine ⟨.inl, ?_⟩
    rintro (rfl | rfl)
    · rfl
    · exact absurd List.getLast?_concat hlast

theorem hasRepositoryForm_iff_exists {repo : String} : hasRepositoryForm repo ↔
    ∃ owner name, withoutFinalNewline repo.toList = owner ++ '/' :: name ∧ IsWord (String.ofList owner) ∧
      IsWord (String.ofList name) := by
  simp only [isWord_ofList_iff]
  unfold hasRepositoryForm
  dsimp only
  rw [drop_length_takeWhile]
  constructor
  · intro h
    split at h
    · rename_i name hname
      simp only [Bool.and_eq_true, Bool.not_eq_true', List.isEmpty_eq_false_iff, List.all_eq_true] at h
      obtain ⟨⟨howner, hnil⟩, hchars⟩ := h
      refine ⟨_, name, ?_, ⟨howner, fun c hc => List.mem_takeWhile_imp hc⟩, hnil, hchars⟩
      rw [← hname, List.takeWhile_append_dropWhile]
    · cases h
  · rintro ⟨owner, name, htext, ⟨howner, hochars⟩, hnil, hchars⟩
    have htake : (owner ++ '/' :: name).takeWhile isNameChar = owner := takeWhile_append_cons hochars (by decide)
    have hdrop : (owner ++ '/' :: name).dropWhile isNameChar = '/' :: name := by
      rw [← drop_length_takeWhile, htake, List.drop_left]
    rw [htext, htake, hdrop]
    simpa [howner, hnil] using hchars

/-- The form of a repository: two words with a slash between them; a line end may follow. -/
theorem hasRepositoryForm_iff {repo : String} : hasRepositoryForm repo ↔
    ∃ owner name, IsWord owner ∧ IsWord name ∧
      (repo = owner ++ "/" ++ name ∨ repo = owner ++ "/" ++ name ++ "\n") := by
  have hlineEnd : ∀ {owner name : String}, IsWord owner → IsWord name →
      '\n' ∉ owner.toList ++ '/' :: name.toList := by
    intro owner name howner hname hm
    rcases List.mem_append.mp hm with hm | hm
    · exact howner.newline_not_mem hm
    · exact hname.newline_not_mem ((List.mem_cons.mp hm).resolve_left (by decide))
  have htexts : ∀ owner name : String, (repo.toList = owner.toList ++ '/' :: name.toList ∨
      repo.toList = owner.toList ++ '/' :: name.toList ++ ['\n']) ↔
      (repo = owner ++ "/" ++ name ∨ repo = owner ++ "/" ++ name ++ "\n") := by
    intro owner name
    rw [← String.toList_inj, ← String.toList_inj]
    simp
  rw [hasRepositoryForm_iff_exists]
  constructor
  · rintro ⟨owner, name, htext, howner, hname⟩
    refine ⟨_, _, howner, hname, (htexts _ _).mp ?_⟩
    rw [← withoutFinalNewline_eq_iff (hlineEnd howner hname), htext, String.toList_ofList, String.toList_ofList]
  · rintro ⟨owner, name, howner, hname, hrepo⟩
    refine ⟨owner.toList, name.toList, ?_, by rwa [String.ofList_toList], by rwa [String.ofList_toList]⟩
    exact (withoutFinalNewline_eq_iff (hlineEnd howner hname)).mpr ((htexts _ _).mpr hrepo)

/-! ## The pieces -/

theorem isRepository_append_iff {owner last : String} (howner : '/' ∉ owner.toList) (hlast : '/' ∉ last.toList) :
    isRepository (owner ++ "/" ++ last) ↔ hasRepositoryForm (owner ++ "/" ++ last) ∧
      (owner ≠ "." ∧ owner ≠ ".." ∧ ¬ owner.startsWith "-") ∧ last ≠ "." ∧ last ≠ ".." ∧ ¬ last.startsWith "-" := by
  have hpieces : (owner ++ "/" ++ last).splitToList (· == '/') = [owner, last] := by
    have h := Path.pieces_append_slash owner last
    rwa [Path.pieces_of_not_mem howner, Path.pieces_of_not_mem hlast] at h
  rw [isRepository, hpieces]
  simp [and_assoc]

/-- A line end behind a word changes nothing about how it begins. -/
theorem IsWord.startsWith_append {part : String} (h : IsWord part) (tail : String) :
    (part ++ tail).startsWith "-" ↔ part.startsWith "-" := by
  rw [String.startsWith_string_iff, String.startsWith_string_iff, String.toList_append]
  obtain ⟨c, l, hl⟩ := List.exists_cons_of_ne_nil h.toList_ne_nil
  simp [hl]

theorem isRepository_join_iff {owner name : String} (howner : IsWord owner) (hname : IsWord name) :
    isRepository (owner ++ "/" ++ name) ↔ IsIdentifierPart owner ∧ IsIdentifierPart name := by
  have hform : hasRepositoryForm (owner ++ "/" ++ name) :=
    hasRepositoryForm_iff.mpr ⟨owner, name, howner, hname, .inl rfl⟩
  rw [isRepository_append_iff howner.slash_not_mem hname.slash_not_mem]
  constructor
  · rintro ⟨-, ⟨ho₁, ho₂, ho₃⟩, hn₁, hn₂, hn₃⟩
    exact ⟨⟨howner, ho₁, ho₂, ho₃⟩, hname, hn₁, hn₂, hn₃⟩
  · rintro ⟨ho, hn⟩
    exact ⟨hform, ⟨ho.ne_dot, ho.ne_dots, ho.not_hyphen⟩, hn.ne_dot, hn.ne_dots, hn.not_hyphen⟩

theorem isRepository_lineEnd_iff {owner name : String} (howner : IsWord owner) (hname : IsWord name) :
    isRepository (owner ++ "/" ++ name ++ "\n") ↔ IsIdentifierPart owner ∧ ¬ name.startsWith "-" := by
  have hform : hasRepositoryForm (owner ++ "/" ++ name ++ "\n") :=
    hasRepositoryForm_iff.mpr ⟨owner, name, howner, hname, .inr rfl⟩
  have hslash : '/' ∉ (name ++ "\n").toList := by
    rw [String.toList_append, List.mem_append, not_or]
    exact ⟨hname.slash_not_mem, by decide⟩
  -- The line end belongs to the last piece, which is neither a dot nor two then.
  have hdots : ∀ dots : String, '\n' ∉ dots.toList → name ++ "\n" ≠ dots := by
    rintro dots hdots rfl
    exact hdots (by simp)
  rw [String.append_assoc] at hform ⊢
  rw [isRepository_append_iff howner.slash_not_mem hslash, hname.startsWith_append]
  constructor
  · rintro ⟨-, ⟨ho₁, ho₂, ho₃⟩, -, -, hn⟩
    exact ⟨⟨howner, ho₁, ho₂, ho₃⟩, hn⟩
  · rintro ⟨ho, hn⟩
    exact ⟨hform, ⟨ho.ne_dot, ho.ne_dots, ho.not_hyphen⟩, hdots _ (by decide), hdots _ (by decide), hn⟩

/-- A repository is an owner, a slash and a word, which a line end may follow. -/
theorem exists_parts {repo : String} (h : isRepository repo) :
    ∃ owner name tail, IsIdentifierPart owner ∧ IsWord name ∧ (tail = "" ∨ tail = "\n") ∧
      repo = owner ++ "/" ++ name ++ tail := by
  obtain ⟨owner, name, howner, hname, rfl | rfl⟩ := hasRepositoryForm_iff.mp ((Bool.and_eq_true _ _).mp h).1
  · exact ⟨owner, name, "", ((isRepository_join_iff howner hname).mp h).1, hname, .inl rfl, by rw [String.append_empty]⟩
  · exact ⟨owner, name, "\n", ((isRepository_lineEnd_iff howner hname).mp h).1, hname, .inr rfl, rfl⟩

/-- What is taken for a repository: the identifiers, and what would be one without the line
end behind it, were its name not allowed to be a dot or two then. -/
theorem repositories_exact (repo : String) : isRepository repo ↔ IsIdentifier repo ∨
    ∃ owner name, IsIdentifierPart owner ∧ IsWord name ∧ ¬ name.startsWith "-" ∧
      repo = owner ++ "/" ++ name ++ "\n" := by
  constructor
  · intro h
    obtain ⟨owner, name, howner, hname, rfl | rfl⟩ := hasRepositoryForm_iff.mp ((Bool.and_eq_true _ _).mp h).1
    · obtain ⟨ho, hn⟩ := (isRepository_join_iff howner hname).mp h
      exact .inl ⟨owner, name, ho, hn, rfl⟩
    · obtain ⟨ho, hn⟩ := (isRepository_lineEnd_iff howner hname).mp h
      exact .inr ⟨owner, name, ho, hname, hn, rfl⟩
  · rintro (⟨owner, name, ho, hn, rfl⟩ | ⟨owner, name, ho, hname, hn, rfl⟩)
    · exact (isRepository_join_iff ho.toIsWord hn.toIsWord).mpr ⟨ho, hn⟩
    · exact (isRepository_lineEnd_iff ho.toIsWord hname).mpr ⟨ho, hn⟩

theorem IsIdentifier.newline_not_mem {repo : String} (h : IsIdentifier repo) : '\n' ∉ repo.toList := by
  obtain ⟨owner, name, ho, hn, rfl⟩ := h
  have howner := ho.newline_not_mem
  have hname := hn.newline_not_mem
  simp [howner, hname]

/-- Not every repository is an identifier. -/
theorem repository_not_always_identifier : ¬ ∀ repo, isRepository repo ↔ IsIdentifier repo := by
  intro hall
  have hidentifier : IsIdentifier "o/r\n" := (hall "o/r\n").mp (by decide +kernel)
  exact hidentifier.newline_not_mem (by decide)

end RepoOrbit
