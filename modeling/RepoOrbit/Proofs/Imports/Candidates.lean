import RepoOrbit.Imports.Specifier
import RepoOrbit.Proofs.Paths

/-!
# What is tried for a specifier

A specifier leads from the directory of a file to a place, and what it resolves to is the
first known path among those that are tried for the place (`resolveSpecifier_eq`): the place
itself, the place with each suffix, and an index file with each suffix in it
(`Path.attempts`).
-/

namespace RepoOrbit

namespace Path

/-- The path with a text at the end of its last name. -/
def extended (p : Path) (ending : String) : Path := p.parent.child (p.name ++ ending)

/-- The paths that are tried for a place, in their order. -/
def attempts (p : Path) : List Path :=
  p :: sourceSuffixes.map p.extended ++ sourceSuffixes.map fun suffix => p.child ("index" ++ suffix)

section

variable {p : Path}

theorem toString_extended (habsolute : p.isAbsolute) (ending : String) :
    (p.extended ending).toString = p.toString ++ ending := by
  obtain ⟨root, names⟩ := p
  rcases List.eq_nil_or_concat' names with rfl | ⟨init, n, rfl⟩
  · have hone : extended ⟨root, []⟩ ending = ⟨root, ["" ++ ending]⟩ := rfl
    have hextended : isAbsolute ⟨root, ["" ++ ending]⟩ := habsolute
    rw [hone, toString_eq habsolute, toString_eq hextended]
    simp
  · obtain ⟨before, -, hbefore⟩ := exists_toString_concat root init
    have hextended : extended ⟨root, init ++ [n]⟩ ending = ⟨root, init ++ [n ++ ending]⟩ := by
      simp [extended, parent, child, name]
    rw [hextended, hbefore, hbefore, String.append_assoc]

theorem isName_append_suffix {name suffix : String} (hname : '/' ∉ name.toList) (hsuffix : suffix ∈ sourceSuffixes) :
    IsName (name ++ suffix) := by
  have hall : ∀ s ∈ sourceSuffixes, '/' ∉ s.toList ∧ 2 ≤ s.toList.length := by decide
  obtain ⟨hslash, hlength⟩ := hall suffix hsuffix
  have hlong : 2 ≤ (name ++ suffix).toList.length := by
    rw [String.toList_append, List.length_append]
    omega
  refine ⟨fun h => ?_, fun h => ?_, by simp [hname, hslash]⟩
  · rw [h] at hlong
    exact absurd hlong (by decide)
  · rw [h] at hlong
    exact absurd hlong (by decide)

theorem IsProper.slash_not_mem_name (h : p.IsProper) : '/' ∉ p.name.toList := by
  unfold name
  cases hlast : p.names.getLast? with
  | none => simp
  | some n => exact (h n (List.mem_of_getLast? hlast)).2.2

theorem IsProper.extended (h : p.IsProper) {suffix : String} (hsuffix : suffix ∈ sourceSuffixes) :
    (p.extended suffix).IsProper := h.parent.child (isName_append_suffix h.slash_not_mem_name hsuffix)

theorem isName_index {suffix : String} (h : suffix ∈ sourceSuffixes) : IsName ("index" ++ suffix) :=
  isName_append_suffix (by decide) h

/-- What is tried for the text of a place is what is tried for the place. -/
theorem map_ofString_attempts (habsolute : p.isAbsolute) (h : p.IsProper) :
    (p.toString :: sourceSuffixes.map (p.toString ++ ·) ++
      sourceSuffixes.map fun suffix => joinText p.toString ("index" ++ suffix)).map ofString = p.attempts := by
  have hextended : ∀ suffix ∈ sourceSuffixes, ofString (p.toString ++ suffix) = p.extended suffix := by
    intro suffix hs
    have hplace : (p.extended suffix).isAbsolute := habsolute
    rw [← toString_extended habsolute, ofString_toString hplace (h.extended hs)]
  have hindex : ∀ suffix ∈ sourceSuffixes,
      ofString (joinText p.toString ("index" ++ suffix)) = p.child ("index" ++ suffix) := by
    intro suffix hs
    have hname := isName_index hs
    have hchild : (p.child ("index" ++ suffix)).isAbsolute := habsolute
    rw [joinText_name habsolute h hname.1 hname.2.2, ofString_toString hchild (h.child hname)]
  have hextendeds : sourceSuffixes.map (ofString ∘ (p.toString ++ ·)) = sourceSuffixes.map p.extended :=
    List.map_congr_left hextended
  have hindexes : sourceSuffixes.map (ofString ∘ fun suffix => joinText p.toString ("index" ++ suffix)) =
      sourceSuffixes.map fun suffix => p.child ("index" ++ suffix) := List.map_congr_left hindex
  rw [attempts, List.map_append, List.map_cons, List.map_map, List.map_map, ofString_toString habsolute h,
    hextendeds, hindexes]

theorem isAbsolute_follow (habsolute : p.isAbsolute) (s : String) : (p.normal.follow s).isAbsolute := by
  rwa [isAbsolute, follow, normal, foldl_walk_root, foldl_walk_root]

end

end Path

/-- A specifier resolves to the first known path of those tried for the place it leads to. -/
theorem resolveSpecifier_eq {importer : Path} (habsolute : importer.isAbsolute) (h : importer.IsProper)
    {specifier : String} (hs : Path.StartsBelow specifier) (known : Path → Bool) :
    resolveSpecifier importer specifier known = (importer.parent.normal.follow specifier).attempts.find? known := by
  have hdir : importer.parent.isAbsolute := habsolute
  have hplace := (Path.isNormal_normal h.parent).follow specifier
  rw [resolveSpecifier, resolutionCandidates, Path.normalize_joinText hdir h.parent hs,
    Path.map_ofString_attempts (Path.isAbsolute_follow hdir specifier) hplace.isProper]

end RepoOrbit
