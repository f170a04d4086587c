import RepoOrbit.Graph.Reduce
import RepoOrbit.Proofs.Paths

/-!
# Ids and directory keys of the files below a root

`relativeId` and `directoryKey` fail for a file that lies elsewhere. For one that
lies below the root (`LiesBelow`, which can be decided) they do not, and what they give is its `idBelow`
and its `keyBelow`; two files below the root do not share an id (`idBelow_inj`).
-/

namespace RepoOrbit

namespace Path

/-- The path goes on from the root by further names, none of them with a slash. -/
def LiesBelow (p root : Path) : Prop :=
  ∃ names, names ≠ [] ∧ (∀ n ∈ names, '/' ∉ n.toList) ∧ p = ⟨root.root, root.names ++ names⟩

theorem liesBelow_iff {p root : Path} :
    p.LiesBelow root ↔ (p.root = root.root ∧ root.names <+: p.names) ∧ p.names.drop root.names.length ≠ [] ∧
      ∀ n ∈ p.names.drop root.names.length, '/' ∉ n.toList := by
  constructor
  · rintro ⟨names, hne, hslash, rfl⟩
    rw [List.drop_left]
    exact ⟨⟨rfl, List.prefix_append _ _⟩, hne, hslash⟩
  · rintro ⟨⟨hroot, names, hnames⟩, hne, hslash⟩
    rw [← hnames, List.drop_left] at hne hslash
    refine ⟨names, hne, hslash, ?_⟩
    rw [hnames, ← hroot]

instance (p root : Path) : Decidable (p.LiesBelow root) := decidable_of_iff _ liesBelow_iff.symm

/-- The id of a file below the root. -/
def idBelow (root p : Path) : String := Path.toString ⟨.relative, p.names.drop root.names.length⟩

/-- The key of the directory of a file below the root. -/
def keyBelow (root p : Path) : String := directoryKeyOf (p.names.dropLast.drop root.names.length)

theorem relativeTo?_append (root : Path) (names : List String) :
    relativeTo? ⟨root.root, root.names ++ names⟩ root = some names := by
  have hprefix : root.names.isPrefixOf (root.names ++ names) :=
    List.isPrefixOf_iff_prefix.mpr (List.prefix_append _ _)
  simp [relativeTo?, hprefix]

theorem below_append (root : Path) (names : List String) :
    below ⟨root.root, root.names ++ names⟩ root = .ok names := by
  rw [below, relativeTo?_append]

theorem parent_append (root : Path) {names : List String} (h : names ≠ []) :
    parent ⟨root.root, root.names ++ names⟩ = ⟨root.root, root.names ++ names.dropLast⟩ := by
  rw [parent, List.dropLast_append_of_ne_nil h]

theorem LiesBelow.relativeId {p root : Path} (h : p.LiesBelow root) :
    p.relativeId root = .ok (root.idBelow p) := by
  obtain ⟨names, -, -, rfl⟩ := h
  rw [Path.relativeId, below_append, idBelow, List.drop_left]
  rfl

theorem LiesBelow.directoryKey {p root : Path} (h : p.LiesBelow root) :
    p.directoryKey root = .ok (root.keyBelow p) := by
  obtain ⟨names, hne, -, rfl⟩ := h
  rw [Path.directoryKey, parent_append root hne, below_append, keyBelow, List.dropLast_append_of_ne_nil hne,
    List.drop_left]
  rfl

theorem intercalate_slash_inj {a b : List String} (hne : a ≠ []) (hne' : b ≠ []) (ha : ∀ n ∈ a, '/' ∉ n.toList)
    (hb : ∀ n ∈ b, '/' ∉ n.toList) (h : "/".intercalate a = "/".intercalate b) : a = b := by
  rw [← pieces_intercalate hne ha, h, pieces_intercalate hne' hb]

theorem toString_relative {names : List String} (h : names ≠ []) :
    Path.toString ⟨.relative, names⟩ = "/".intercalate names := by
  cases names with
  | nil => exact absurd rfl h
  | cons n names => simp [Path.toString, PathRoot.text]

/-- Two files below the root do not share an id. -/
theorem idBelow_inj {p q root : Path} (hp : p.LiesBelow root) (hq : q.LiesBelow root)
    (h : root.idBelow p = root.idBelow q) : p = q := by
  obtain ⟨names, hne, hslash, rfl⟩ := hp
  obtain ⟨names', hne', hslash', rfl⟩ := hq
  simp only [idBelow, List.drop_left, toString_relative hne, toString_relative hne'] at h
  rw [intercalate_slash_inj hne hne' hslash hslash' h]

end Path

end RepoOrbit
