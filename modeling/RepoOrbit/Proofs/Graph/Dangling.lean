import Mathlib.Data.List.Perm.Subperm
import RepoOrbit.Proofs.Files.Dangling
import RepoOrbit.Proofs.Graph.Unseen

/-!
# Links to nothing in a document

A walk passes over links to nothing only if they do not look like source files: one that does is
listed, and shows in the document (`dangling_links_show_iff`). With all links to nothing taken away
a walk finds the same files but for those, and the document is the same exactly if there is
none of them.
-/

namespace RepoOrbit.FileTree

/-- The tree without the links that lead to nothing. -/
def withoutDangling (t : FileTree) : FileTree := t.without t.dangles

/-- A walk lists a link to nothing as a source file. -/
def ListsDangling (t : FileTree) (start : List String) (f : Path) : Prop :=
  f ∈ t.discover start ∧ ∃ names, f = ⟨.slash, t.resolve start ++ names⟩ ∧ t.LeadsTo t.dangles (t.resolve start) names

variable {t : FileTree} {start : List String}

theorem mem_discover_withoutDangling_iff (ht : t.wellNamed) (hdirectory : t.holdsDirectory start) {f : Path} :
    f ∈ t.withoutDangling.discover start ↔ f ∈ t.discover start ∧ ¬ t.ListsDangling start f := by
  rw [withoutDangling, mem_discover_without_iff (fun _ => id) hdirectory ht]
  refine and_congr_right fun hf => ⟨?_, fun hnot names heq hleads => hnot ⟨hf, names, heq, hleads⟩⟩
  rintro hnot ⟨-, names, heq, hleads⟩
  exact hnot names heq hleads

/-- Where a walk lists no link to nothing, there are the same sources without them. -/
theorem sameSources_withoutDangling (ht : t.wellNamed) (hdirectory : t.holdsDirectory start)
    (h : ∀ f, ¬ t.ListsDangling start f) : t.SameSources t.withoutDangling start :=
  sameSources_without (fun _ => id) hdirectory ht fun names hf hleads => h _ ⟨hf, names, rfl, hleads⟩

/-- A document tells how many files there are. -/
theorem length_discover_eq {t' : FileTree} (ht : t.wellNamed) (ht' : t'.wellNamed) {options : BuildOptions}
    {document : GraphDocument} (h : t.graphDocument start options = .ok document)
    (h' : t'.graphDocument start options = .ok document) :
    (t.discover start).length = (t'.discover start).length := by
  have hlength : ∀ {t : FileTree}, t.wellNamed → t.graphDocument start options = .ok document →
      document.fileToDirectory.length = (t.discover start).length := by
    intro t ht h
    obtain ⟨d, hd, hshows⟩ := GraphDocument.exists_shows (importMap_among ht start) options
    rw [graphDocument, discover_resolve, hd] at h
    obtain rfl := Except.ok.inj h
    rw [hshows.fileToDirectory, List.length_map, List.length_mergeSort]
  rw [← hlength ht h, ← hlength ht' h']

/-- A source file and links to nothing that do not look like one: to a directory, to a file of another
kind and to a hidden file. -/
def passedOver : FileTree :=
  .directory [("src", .directory
    [("ok.js", .file []), ("gone", .link "nowhere"), ("theme.css", .link "nowhere"), (".env.js", .link "nowhere")])]

/-- A source file and a link to nothing that looks like one. -/
def lonelyLink : FileTree := .directory [("src", .directory [("ok.js", .file []), ("gone.js", .link "missing.js")])]

end RepoOrbit.FileTree
