import Mathlib.Data.List.Induction
import RepoOrbit.Files.Walk
import RepoOrbit.Proofs.Imports.Candidates
import RepoOrbit.Proofs.Lists

/-!
# Specifiers from one file to another

A route from a directory to a place climbs to a directory that holds both and goes down from
there (`Path.Leads`), and whoever follows it gets to the place (`Path.Leads.follow`). So the
route from a file to another is a specifier that resolves to the other, and so does the route
to what it is without its suffix, or to its directory if it is an index file, unless what is
tried before it is known (`route_resolves`).
-/

namespace RepoOrbit

/-- The text that climbs some directories and goes down by names. -/
def routeText (climbs : Nat) (names : List String) : String :=
  (if climbs = 0 then "./" else String.join (List.replicate climbs "../")) ++ "/".intercalate names

namespace Path

/-- A text leads from a directory to a place by a directory that holds both. A slash at the end
may be left out. -/
def Leads (dir place : Path) (s : String) : Prop :=
  ∃ shared left below, dir = ⟨place.root, shared ++ left⟩ ∧ place.names = shared ++ below ∧
    (s = routeText left.length below ∨ s ++ "/" = routeText left.length below)

theorem head?_routeText (climbs : Nat) (names : List String) : (routeText climbs names).toList.head? = some '.' := by
  unfold routeText
  cases climbs with
  | zero => simp
  | succ n => simp [List.replicate_succ]

theorem Leads.startsBelow {dir place : Path} {s : String} (h : dir.Leads place s) : StartsBelow s := by
  obtain ⟨_, left, below, -, -, rfl | hslash⟩ := h
  · rw [StartsBelow, head?_routeText]
    decide
  · intro hs
    have hhead := head?_routeText left.length below
    rw [← hslash, String.toList_append, List.head?_append, hs] at hhead
    exact absurd hhead (by decide)

theorem follow_step_append (p : Path) (s : String) : p.follow ("../" ++ s) = p.parent.follow s := by
  have htext : "../" ++ s = ".." ++ "/" ++ s := rfl
  rw [htext, follow_append_slash, follow_dots]

theorem follow_climb (root : PathRoot) (shared left : List String) (s : String) :
    follow ⟨root, shared ++ left⟩ (String.join (List.replicate left.length "../") ++ s) =
      follow ⟨root, shared⟩ s := by
  induction left using List.reverseRecOn with
  | nil => simp
  | append_singleton left n ih =>
    have hparent : parent ⟨root, shared ++ (left ++ [n])⟩ = ⟨root, shared ++ left⟩ := by
      rw [parent, ← List.append_assoc, List.dropLast_concat]
    rw [List.length_append, List.length_singleton, List.replicate_succ, String.join_cons, String.append_assoc,
      follow_step_append, hparent, ih]

theorem follow_names (p : Path) {names : List String} (h : IsNormal ⟨p.root, names⟩) :
    p.follow ("/".intercalate names) = ⟨p.root, p.names ++ names⟩ := by
  cases names with
  | nil => rw [String.intercalate_nil, follow_empty, List.append_nil]
  | cons n names =>
    rw [follow, pieces_intercalate (List.cons_ne_nil _ _) fun k hk => (h k hk).1.2.2, foldl_walk_names p h]

/-- Whoever follows a route gets to its place. -/
theorem Leads.follow {dir place : Path} {s : String} (h : dir.Leads place s) (hplace : place.IsNormal) :
    dir.follow s = place := by
  obtain ⟨shared, left, below, rfl, hnames, hs⟩ := h
  have hbelow : IsNormal ⟨place.root, below⟩ := fun n hn =>
    hplace n (by rw [hnames]; exact List.mem_append_right _ hn)
  have hdown : Path.follow ⟨place.root, shared⟩ ("/".intercalate below) = place :=
    (follow_names ⟨place.root, shared⟩ hbelow).trans (by rw [← hnames])
  have hroute : Path.follow ⟨place.root, shared ++ left⟩ (routeText left.length below) = place := by
    rw [routeText]
    split
    · rename_i hlength
      have htext (s : String) : "./" ++ s = "." ++ "/" ++ s := rfl
      rw [List.length_eq_zero_iff.mp hlength, List.append_nil, htext, follow_append_slash, follow_dot, hdown]
    · rw [follow_climb, hdown]
  rcases hs with rfl | hslash
  · exact hroute
  · rw [← follow_slash_end, hslash, hroute]

end Path

section

variable {importer file : Path} {known : Path → Bool}

theorem resolveSpecifier_of_leads (habsolute : importer.isAbsolute) (himporter : importer.IsNormal) {place : Path}
    (hplace : place.IsNormal) {s : String} (hs : importer.parent.Leads place s) (hknown : known file)
    (hmem : file ∈ place.attempts) (hfirst : ∀ f ∈ place.attempts.takeWhile (· != file), known f = false) :
    resolveSpecifier importer s known = some file := by
  rw [resolveSpecifier_eq habsolute himporter.isProper hs.startsBelow, Path.normal_eq himporter.parent,
    hs.follow hplace]
  exact find?_eq_some_of_takeWhile hmem hknown hfirst

theorem isHidden_append {name : String} (h : isHidden name) (ending : String) : isHidden (name ++ ending) := by
  rw [isHidden, String.startsWith_string_iff] at h ⊢
  rw [String.toList_append]
  exact h.trans (List.prefix_append _ _)

/-- What a name is without its suffix is a name too, if the name is not hidden. -/
theorem isName_of_append {stem ending : String} (hslash : '/' ∉ (stem ++ ending).toList) (hending : isHidden ending)
    (hvisible : ¬ isHidden (stem ++ ending)) : Path.IsName stem ∧ stem ≠ ".." := by
  rw [String.toList_append, List.mem_append, not_or] at hslash
  refine ⟨⟨?_, ?_, hslash.1⟩, ?_⟩
  · rintro rfl
    exact hvisible (by rwa [String.empty_append])
  · rintro rfl
    exact hvisible (isHidden_append (by decide +kernel) ending)
  · rintro rfl
    exact hvisible (isHidden_append (by decide +kernel) ending)

/-- A file is found by the route to it. It is found by the route to what it is without its
suffix as well, and, if it is an index file, by the route to its directory, unless something
is known that is tried before it. -/
theorem route_resolves (habsolute : importer.isAbsolute) (himporter : importer.IsNormal) (hfile : file.IsNormal)
    (hvisible : ¬ isHidden file.name) (hknown : known file) :
    (∀ s, importer.parent.Leads file s → resolveSpecifier importer s known = some file) ∧
    (∀ s stem, ∀ suffix ∈ sourceSuffixes, file.name = stem ++ suffix →
      importer.parent.Leads (file.parent.child stem) s →
      (∀ f ∈ (file.parent.child stem).attempts.takeWhile (· != file), known f = false) →
      resolveSpecifier importer s known = some file) ∧
    (∀ s, ∀ suffix ∈ sourceSuffixes, file.name = "index" ++ suffix → importer.parent.Leads file.parent s →
      (∀ f ∈ file.parent.attempts.takeWhile (· != file), known f = false) →
      resolveSpecifier importer s known = some file) := by
  have hsuffixes : ∀ suffix ∈ sourceSuffixes, isHidden suffix ∧ suffix ≠ "" := by decide +kernel
  have hnamed : ∀ stem, ∀ suffix ∈ sourceSuffixes, file.name = stem ++ suffix →
      file.parent.child (stem ++ suffix) = file := fun stem suffix hsuffix hname => by
    have hne : stem ++ suffix ≠ "" := by simp [(hsuffixes suffix hsuffix).2]
    rw [← hname, Path.child_parent_name (hname ▸ hne)]
  refine ⟨fun s hs => ?_, fun s stem suffix hsuffix hname hs hfirst => ?_, fun s suffix hsuffix hname hs hfirst => ?_⟩
  · refine resolveSpecifier_of_leads habsolute himporter hfile hs hknown (by simp [Path.attempts]) ?_
    simp [Path.attempts]
  · have hslash : '/' ∉ (stem ++ suffix).toList := hname ▸ hfile.isProper.slash_not_mem_name
    have hstem := isName_of_append hslash (hsuffixes suffix hsuffix).1 (hname ▸ hvisible)
    have hplace := hfile.parent.child hstem.1 hstem.2
    have hextended : (file.parent.child stem).extended suffix = file := by
      rw [Path.extended, Path.parent_child, Path.name_child, hnamed stem suffix hsuffix hname]
    refine resolveSpecifier_of_leads habsolute himporter hplace hs hknown ?_ hfirst
    rw [Path.attempts, List.mem_append]
    exact .inl (List.mem_cons_of_mem _ (List.mem_map.mpr ⟨suffix, hsuffix, hextended⟩))
  · have hindex := hnamed "index" suffix hsuffix hname
    refine resolveSpecifier_of_leads habsolute himporter hfile.parent hs hknown ?_ hfirst
    rw [Path.attempts, List.mem_append]
    exact .inr (List.mem_map.mpr ⟨suffix, hsuffix, hindex⟩)

end

/-- A file that imports another. -/
def mainFile : Path := ⟨.slash, ["src", "app", "main.js"]⟩

/-- An index file in the directory beside. -/
def indexFile : Path := ⟨.slash, ["src", "lib", "index.tsx"]⟩

/-- The index file beside another one that is tried later. -/
theorem route_resolves_indexFile :
    let known : Path → Bool := [mainFile, ⟨.slash, ["src", "lib", "index.mjs"]⟩, indexFile].contains
    resolveSpecifier mainFile "../lib/index.tsx" known = some indexFile ∧
      resolveSpecifier mainFile "../lib/index" known = some indexFile ∧
      resolveSpecifier mainFile "../lib" known = some indexFile := by
  intro known
  have habsolute : mainFile.isAbsolute := by decide
  have hvisible : ¬ isHidden indexFile.name := by decide +kernel
  have hknown : known indexFile := by decide
  obtain ⟨hexact, hextended, hindex⟩ := route_resolves habsolute (by decide) (by decide) hvisible hknown
  have hplace : indexFile.parent.child "index" = ⟨.slash, ["src", "lib", "index"]⟩ := by decide
  refine ⟨hexact _ ⟨["src"], ["app"], ["lib", "index.tsx"], rfl, rfl, .inl (by decide +kernel)⟩, ?_, ?_⟩
  · refine hextended _ "index" ".tsx" (by decide) (by decide) ?_ (by decide)
    exact hplace ▸ ⟨["src"], ["app"], ["lib", "index"], rfl, rfl, .inl (by decide +kernel)⟩
  · refine hindex _ ".tsx" (by decide) (by decide) ?_ (by decide)
    exact ⟨["src"], ["app"], ["lib"], rfl, by decide, .inl (by decide +kernel)⟩

end RepoOrbit
