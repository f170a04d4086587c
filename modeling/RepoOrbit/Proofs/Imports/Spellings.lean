import Mathlib.Logic.Relation
import RepoOrbit.Proofs.Imports.Candidates
import RepoOrbit.Proofs.Lists

/-!
# Specifiers that lead to the same place

A relative specifier may be written with more slashes, with `./`, or with a name and `../`
behind any of its slashes (`Respells`), and leads to the same place then
(`follow_of_respells`). So it resolves to the same file; and this is a known one of those
that are tried for the place, and the first of them (`resolution_is_lexical`).
-/

namespace RepoOrbit

/-- A specifier with one more slash, `./`, or name and `../` behind one of its slashes, or
with a slash at its end. -/
inductive Respells : String → String → Prop where
  | slash (before after : String) : Respells (before ++ "/" ++ after) (before ++ "//" ++ after)
  | dot (before after : String) : Respells (before ++ "/" ++ after) (before ++ "/./" ++ after)
  | detour (before name after : String) (hname : Path.IsName name) (hdots : name ≠ "..") :
      Respells (before ++ "/" ++ after) (before ++ "/" ++ name ++ "/../" ++ after)
  | ending (s : String) : Respells s (s ++ "/")

theorem Path.follow_of_respells (p : Path) {s s' : String} (h : Respells s s') : p.follow s' = p.follow s := by
  cases h with
  | slash before after =>
    have htext : before ++ "//" ++ after = before ++ "/" ++ "" ++ "/" ++ after := by simp [String.append_assoc]
    rw [htext, follow_append_slash, follow_append_slash, follow_append_slash, follow_empty]
  | dot before after =>
    have htext : before ++ "/./" ++ after = before ++ "/" ++ "." ++ "/" ++ after := by simp [String.append_assoc]
    rw [htext, follow_append_slash, follow_append_slash, follow_append_slash, follow_dot]
  | detour before name after hname hnot =>
    have htext : before ++ "/" ++ name ++ "/../" ++ after = before ++ "/" ++ name ++ "/" ++ ".." ++ "/" ++ after := by
      simp [String.append_assoc]
    rw [htext, follow_append_slash, follow_append_slash, follow_append_slash, follow_append_slash, follow_dots,
      (p.follow before).follow_of_not_mem hname.2.2, walk_name _ hname hnot, parent_child]
  | ending => exact p.follow_slash_end s

theorem head?_of_isRelative {s : String} (h : isRelative s) : s.toList.head? = some '.' := by
  rw [isRelative, Bool.or_eq_true, String.startsWith_string_iff, String.startsWith_string_iff] at h
  rcases h with ⟨rest, hrest⟩ | ⟨rest, hrest⟩ <;> rw [← hrest] <;> rfl

/-- However it is written, a specifier begins with a dot. -/
theorem head?_of_respells {s s' : String} (h : Respells s s') (hs : s.toList.head? = some '.') :
    s'.toList.head? = some '.' := by
  have hbefore : ∀ {before after : String}, (before ++ "/" ++ after).toList.head? = some '.' →
      ∀ t, (before ++ t).toList.head? = some '.' := by
    intro before after hdot t
    cases hlist : before.toList with
    | nil => simp [hlist] at hdot
    | cons c rest => simpa [hlist] using hdot
  cases h with
  | slash before after =>
    rw [String.append_assoc]
    exact hbefore hs _
  | dot before after =>
    rw [String.append_assoc]
    exact hbefore hs _
  | detour before name after =>
    simp only [String.append_assoc]
    exact hbefore hs _
  | ending =>
    rw [String.toList_append, List.head?_append, hs]
    rfl

section

variable {importer : Path} {specifier : String}

theorem resolveSpecifier_of_relative (habsolute : importer.isAbsolute) (h : importer.IsProper)
    (hdot : specifier.toList.head? = some '.') (known : Path → Bool) :
    resolveSpecifier importer specifier known = (importer.parent.normal.follow specifier).attempts.find? known :=
  resolveSpecifier_eq habsolute h (by rw [Path.StartsBelow, hdot]; decide) known

theorem resolveSpecifier_of_respells (habsolute : importer.isAbsolute) (h : importer.IsProper) {spelling : String}
    (hdot : specifier.toList.head? = some '.') (hspelling : Relation.ReflTransGen Respells specifier spelling)
    (known : Path → Bool) :
    resolveSpecifier importer spelling known = resolveSpecifier importer specifier known := by
  have hsame : spelling.toList.head? = some '.' ∧
      importer.parent.normal.follow spelling = importer.parent.normal.follow specifier := by
    induction hspelling with
    | refl => exact ⟨hdot, rfl⟩
    | tail _ hstep ih => exact ⟨head?_of_respells hstep ih.1, (Path.follow_of_respells _ hstep).trans ih.2⟩
  rw [resolveSpecifier_of_relative habsolute h hsame.1, resolveSpecifier_of_relative habsolute h hdot, hsame.2]

/-- A relative specifier resolves to one file however it is written. That is a known file and
one of those that are tried for the place to which the specifier leads; and where more files
are known, it is this one or one that is tried before it. -/
theorem resolution_is_lexical (habsolute : importer.isAbsolute) (h : importer.IsProper)
    (hrelative : isRelative specifier) :
    (∀ spelling known, Relation.ReflTransGen Respells specifier spelling →
      resolveSpecifier importer spelling known = resolveSpecifier importer specifier known) ∧
    (∀ known file, resolveSpecifier importer specifier known = some file →
      known file ∧ file ∈ (importer.parent.normal.follow specifier).attempts) ∧
    (∀ known known' file, (∀ f, known f → known' f) → resolveSpecifier importer specifier known = some file →
      ∃ file', resolveSpecifier importer specifier known' = some file' ∧
        (file' = file ∨ [file', file].Sublist (importer.parent.normal.follow specifier).attempts)) := by
  have hdot := head?_of_isRelative hrelative
  have hresolve := resolveSpecifier_of_relative habsolute h hdot
  refine ⟨fun spelling known hspelling => resolveSpecifier_of_respells habsolute h hdot hspelling known,
    fun known file hfile => ?_, fun known known' file hmore hfile => ?_⟩
  · rw [hresolve] at hfile
    exact ⟨List.find?_some hfile, List.mem_of_find?_eq_some hfile⟩
  · rw [hresolve] at hfile
    rw [hresolve]
    exact exists_find?_of_imp hmore hfile

end

/-- A file in a directory that is reached by a detour. -/
def detouredFile : Path := ⟨.slash, ["src", "..", "src", "app", "main.ts"]⟩

/-- Other spellings of a specifier for a directory, and another file for the same place. -/
theorem resolution_is_lexical_detouredFile :
    let index : Path := ⟨.slash, ["src", "lib", "index.ts"]⟩
    let known : Path → Bool := [index].contains
    let more : Path → Bool := [index, ⟨.slash, ["src", "lib.ts"]⟩].contains
    resolveSpecifier detouredFile "..//./lib/../lib/" known = some index ∧ known index ∧
      ∃ file, resolveSpecifier detouredFile "../lib" more = some file ∧
        (file = index ∨ [file, index].Sublist (detouredFile.parent.normal.follow "../lib").attempts) := by
  intro index known more
  have hfile : resolveSpecifier detouredFile "../lib" known = some index := by decide +kernel
  have hspelling : Relation.ReflTransGen Respells "../lib" "..//./lib/../lib/" :=
    (((Relation.ReflTransGen.refl.tail (.slash ".." "lib")).tail (.dot "../" "lib")).tail (.ending "..//./lib")).tail
      (.detour "..//." "lib" "lib/" (by decide) (by decide))
  have hmore : ∀ f, known f → more f := fun f hf => by
    rw [List.contains_iff_mem] at hf ⊢
    rw [List.mem_singleton.mp hf]
    exact List.mem_cons_self
  have habsolute : detouredFile.isAbsolute := by decide
  have hrelative : isRelative "../lib" := by decide +kernel
  obtain ⟨hsame, hsound, hstable⟩ := resolution_is_lexical habsolute (by decide) hrelative
  refine ⟨?_, (hsound known index hfile).1, hstable known more index hmore hfile⟩
  rw [hsame _ _ hspelling, hfile]

end RepoOrbit
