import RepoOrbit.Graph.Writing
import RepoOrbit.Proofs.Graph.Coherence
import RepoOrbit.Proofs.Validation.Reading

/-!
# Documents read back

A document that is written, under the short or the long names of its fields, is read back
as it was but for the kinds of its nodes, which are not written (`GraphDocument.reads_back`).
The one condition is that every node counts at least one file. Documents that are read meet
it (`Check.valid_of_graphDocument`), and so do documents of source trees
(`FileTree.valid_of_graphDocument`).

The lemmas follow the records: for each one, that it is read back from what it is written as.
-/

namespace RepoOrbit

/-- A node as it is read back: of the kind that a node has which does not say so. -/
def GraphNode.withoutKind (n : GraphNode) : GraphNode := { n with kind := .file }

namespace GraphDocument

/-- Every node counts at least one file. -/
def Valid (d : GraphDocument) : Prop := ∀ n ∈ d.nodes ++ d.fileNodes, 1 ≤ n.fileCount

instance (d : GraphDocument) : Decidable d.Valid :=
  inferInstanceAs (Decidable (∀ n ∈ d.nodes ++ d.fileNodes, 1 ≤ n.fileCount))

/-- A document as it is read back. -/
def withoutKinds (d : GraphDocument) : GraphDocument :=
  { d with nodes := d.nodes.map (·.withoutKind), fileNodes := d.fileNodes.map (·.withoutKind) }

/-- The kinds of the nodes are not written. -/
theorem toValue_withoutKinds (d : GraphDocument) (style : KeyStyle) :
    d.withoutKinds.toValue style = d.toValue style := by
  have hnodes : ∀ nodes : List GraphNode,
      (nodes.map (·.withoutKind)).map (·.toValue style) = nodes.map (·.toValue style) := fun nodes => by
    rw [List.map_map]
    rfl
  rw [toValue, toValue, withoutKinds, hnodes, hnodes]

end GraphDocument

namespace Check

open FieldName (find?_plain find?_twofold)

/-! ## What was written is read -/

theorem count_ofNat {n : Nat} (h : 1 ≤ n) : count (.int n) = .ok n := by
  have hle : (1 : Int) ≤ n := by omega
  rw [count, integer, Checked.andThen, if_pos hle, Int.toNat_natCast]

theorem view_name (k : ViewKind) : view (.text k.name) = .ok k := by
  cases k <;> rfl

theorem graphNode_toValue (style : KeyStyle) {n : GraphNode} (h : 1 ≤ n.fileCount) :
    graphNode (n.toValue style) = .ok n.withoutKind := by
  cases style <;>
    simp [graphNode, GraphNode.toValue, record, KeyStyle.pick, FieldName.required, FieldName.optional,
      find?_plain, find?_twofold, List.lookup_cons, text, count_ofNat h, GraphNode.withoutKind]

theorem graphLink_toValue (l : GraphLink) : graphLink l.toValue = .ok l := by
  simp [graphLink, GraphLink.toValue, record, FieldName.required, find?_plain, List.lookup_cons, text]

theorem categoryInfo_toValue (i : CategoryInfo) : categoryInfo i.toValue = .ok i := by
  simp [categoryInfo, CategoryInfo.toValue, record, FieldName.required, find?_plain, List.lookup_cons, text]

theorem graphMeta_toValue (style : KeyStyle) (m : GraphMeta) : graphMeta (m.toValue style) = .ok m := by
  cases style <;>
    simp [graphMeta, GraphMeta.toValue, record, KeyStyle.pick, FieldName.required, FieldName.optional,
      find?_plain, find?_twofold, List.lookup_cons, text, integer, view_name]

theorem list_map {α β : Type} {check : Check β} {write : α → Value} {read : α → β} {items : List α}
    (h : ∀ a ∈ items, check (write a) = .ok (read a)) : list check (.list (items.map write)) = .ok (items.map read) :=
  Checked.listFrom_map h 0

theorem graphDocument_toValue (style : KeyStyle) {d : GraphDocument} (h : d.Valid) :
    graphDocument (d.toValue style) = .ok d.withoutKinds := by
  obtain ⟨hnodes, hfileNodes⟩ := List.forall_mem_append.mp h
  have hcategories : map categoryInfo (.map (d.categories.map fun c => (c.1, c.2.toValue))) = .ok d.categories :=
    Checked.entries_map fun c _ => categoryInfo_toValue c.2
  have hlinks (links : List GraphLink) : list graphLink (.list (links.map (·.toValue))) = .ok links := by
    rw [list_map fun l _ => graphLink_toValue l, List.map_id']
  have hdirectories : map text (.map (d.fileToDirectory.map fun e => (e.1, .text e.2))) = .ok d.fileToDirectory :=
    Checked.entries_map fun _ _ => rfl
  have hnodesRead := list_map fun n hn => graphNode_toValue style (hnodes n hn)
  have hfileNodesRead := list_map fun n hn => graphNode_toValue style (hfileNodes n hn)
  cases style <;>
    simp [graphDocument, GraphDocument.toValue, record, KeyStyle.pick, FieldName.required, FieldName.optional,
      find?_plain, find?_twofold, List.lookup_cons, graphMeta_toValue, hcategories, hlinks, hdirectories, hnodesRead,
      hfileNodesRead, GraphDocument.withoutKinds]

/-! ## What is read can be written -/

theorem one_le_of_count {v : Value} {n : Nat} (h : count v = .ok n) : 1 ≤ n := by
  obtain ⟨i, -, hi⟩ := Checked.andThen_eq_ok.mp h
  split at hi
  · have := Checked.ok.inj hi
    omega
  · cases hi

theorem exists_of_record {α : Type} {name : String} {fields : List (String × Value) → Checked α} {v : Value} {a : α}
    (h : record name fields v = .ok a) : ∃ e, fields e = .ok a := by
  cases v with
  | map e => exact ⟨e, h⟩
  | _ => cases h

theorem exists_of_mem_list {α : Type} {check : Check α} {v : Value} {items : List α} (h : list check v = .ok items) :
    ∀ a ∈ items, ∃ w, check w = .ok a := by
  cases v with
  | list values => exact Checked.exists_of_mem_listFrom h
  | _ => cases h

theorem one_le_fileCount_of_graphNode {v : Value} {n : GraphNode} (h : graphNode v = .ok n) : 1 ≤ n.fileCount := by
  obtain ⟨e, he⟩ := exists_of_record h
  simp only [Checked.seq_eq_ok, Checked.map_eq_ok] at he
  obtain ⟨_, _, ⟨_, fileCount, ⟨_, _, ⟨_, _, ⟨_, -, rfl⟩, -, rfl⟩, -, rfl⟩, hcount, rfl⟩, -, rfl⟩ := he
  rcases FieldName.optional_eq_ok hcount with hdefault | ⟨w, hw⟩
  · exact Nat.le_of_eq hdefault.symm
  · exact one_le_of_count hw

theorem valid_of_graphDocument {v : Value} {d : GraphDocument} (h : graphDocument v = .ok d) : d.Valid := by
  have hlist : ∀ {f : FieldName} {e : List (String × Value)} {nodes : List GraphNode},
      f.optional [] (list graphNode) e = .ok nodes → ∀ n ∈ nodes, 1 ≤ n.fileCount := by
    intro f e nodes hnodes n hn
    rcases FieldName.optional_eq_ok hnodes with rfl | ⟨w, hw⟩
    · cases hn
    · obtain ⟨v, hv⟩ := exists_of_mem_list hw n hn
      exact one_le_fileCount_of_graphNode hv
  obtain ⟨e, he⟩ := exists_of_record h
  simp only [Checked.seq_eq_ok, Checked.map_eq_ok] at he
  obtain ⟨_, _, ⟨_, _, ⟨_, _, ⟨_, _, ⟨_, _, ⟨_, _, ⟨_, -, rfl⟩, -, rfl⟩, hnodes, rfl⟩, -, rfl⟩,
    hfileNodes, rfl⟩, -, rfl⟩, -, rfl⟩ := he
  exact List.forall_mem_append.mpr ⟨hlist hnodes, hlist hfileNodes⟩

end Check

/-! ## Documents of source trees -/

theorem GraphDocument.Shows.valid {d : GraphDocument} {root : Path} {files : List Path} {imports : ImportMap}
    {limit : Int} (hd : d.Shows root files imports limit) : d.Valid := by
  rw [Valid, hd.nodes, hd.fileNodes, List.forall_mem_append, List.forall_mem_map, List.forall_mem_map]
  exact ⟨fun key hkey => List.count_pos_iff.mpr (mem_sortedTexts.mp hkey), fun _ _ => Nat.le_refl 1⟩

theorem FileTree.valid_of_graphDocument {t : FileTree} (ht : t.wellNamed) {start : List String}
    {options : BuildOptions} {d : GraphDocument} (h : t.graphDocument start options = .ok d) : d.Valid := by
  obtain ⟨d', hd', hshows⟩ := GraphDocument.exists_shows (importMap_among ht start) options
  rw [graphDocument, discover_resolve] at h
  obtain rfl : d' = d := Except.ok.inj (hd'.symm.trans h)
  exact hshows.valid

/-! ## The round trip -/

namespace GraphDocument

/-- A written document is read back as it was, but for the kinds of its nodes, whichever names
its fields are written under; written again, it is the same under either names. -/
theorem reads_back {d : GraphDocument} (h : d.Valid) (style : KeyStyle) :
    Check.graphDocument (d.toValue style) = .ok d.withoutKinds ∧
      ∀ again : KeyStyle, (Check.graphDocument (d.toValue style)).map (·.toValue again) = .ok (d.toValue again) := by
  have hread := Check.graphDocument_toValue style h
  refine ⟨hread, fun again => ?_⟩
  rw [hread, Checked.map, d.toValue_withoutKinds]

/-- Two directories of which one imports the other, with their files. -/
def twoDirectories : GraphDocument where
  about := ⟨"owner/name", .file, "src", 2, 1⟩
  categories := [("ui", ⟨"#a0c4ff", "Interface"⟩), ("lib", ⟨"#ffd6a5", "Libraries"⟩)]
  nodes := [⟨"app", "app", "ui", 2, .directory⟩, ⟨"lib", "lib", "lib", 1, .directory⟩]
  links := [⟨"app", "lib"⟩]
  fileNodes := [⟨"app/main.jsx", "main", "ui", 1, .file⟩, ⟨"lib/util.jsx", "util", "lib", 1, .file⟩]
  fileLinks := [⟨"app/main.jsx", "lib/util.jsx"⟩]
  fileToDirectory := [("app/main.jsx", "app"), ("app/view.jsx", "app"), ("lib/util.jsx", "lib")]

theorem reads_back_twoDirectories :
    twoDirectories.Valid ∧ Check.graphDocument (twoDirectories.toValue .short) = .ok twoDirectories.withoutKinds ∧
      ∀ again : KeyStyle, (Check.graphDocument (twoDirectories.toValue .short)).map (·.toValue again) =
        .ok (twoDirectories.toValue again) := by
  have hvalid : twoDirectories.Valid := by decide
  exact ⟨hvalid, reads_back hvalid .short⟩

end GraphDocument

end RepoOrbit
