import Mathlib.Logic.Relation
import RepoOrbit.Proofs.Files.Sources

/-!
# Changes that a walk does not see

A walk passes over hidden entries and skipped directories, with all that is in them
(`isOverlooked`), and over files that are not source files. A change of such content is
`Unseen`. However many of these are made below a directory without links
(`sameSources_of_unseen`), its source files are the same, with the same texts
(`FileTree.SameSources`).
-/

namespace RepoOrbit

/-- Whether an entry of this name, or all that is in a directory of this name, is passed over. -/
def isOverlooked (name : String) : Bool := isHidden name || skippedDirectories.contains name

namespace FileTree

/-! ## The changes -/

/-- Changes of what stands at a place below the root that nobody sees: hidden entries and all in
them, all in skipped directories, and files that are not source files, which come or go. -/
inductive Unseen (t : FileTree) (root : List String) : List String → Option FileTree → Prop
  | overlooked {rel : List String} {name : String} {content : Option FileTree} :
      name ∈ rel → isOverlooked name → Unseen t root rel content
  | added {above : List String} {name : String} {bytes : List UInt8} :
      ¬ isSourceName name → t.at? (root ++ (above ++ [name])) = none →
      Unseen t root (above ++ [name]) (some (.file bytes))
  | removed {above : List String} {name : String} {bytes : List UInt8} :
      ¬ isSourceName name → t.at? (root ++ (above ++ [name])) = some (.file bytes) →
      Unseen t root (above ++ [name]) none

/-- One such change, of content that has no links. -/
inductive UnseenStep (root : List String) (t : FileTree) : FileTree → Prop
  | change {rel : List String} {content : Option FileTree} : Unseen t root rel content →
      (∀ n ∈ root ++ rel, '/' ∉ n.toList) → (∀ new ∈ content, new.wellNamed ∧ new.linkFree) →
      UnseenStep root t (t.change (root ++ rel) content)

/-! ## No source place is touched -/

theorem not_isSourceName_of_skipped {name : String} (h : skippedDirectories.contains name) : ¬ isSourceName name := by
  have hall : ∀ n ∈ skippedDirectories, ¬ isSourceName n := by decide +kernel
  exact hall name (List.contains_iff_mem.mp h)

theorem not_isSourcePlace_of_overlooked {name : String} {names : List String} (hmem : name ∈ names)
    (h : isOverlooked name) : ¬ isSourcePlace names := by
  intro hsource
  rw [isOverlooked, Bool.or_eq_true] at h
  induction names with
  | nil => cases hmem
  | cons n rest ih =>
    rcases eq_or_ne rest [] with rfl | hrest
    · obtain rfl := List.mem_singleton.mp hmem
      obtain ⟨hhidden, hname⟩ := isSourcePlace_singleton.mp hsource
      exact h.elim hhidden fun hskipped => not_isSourceName_of_skipped hskipped hname
    · obtain ⟨hhidden, hskipped, hsource⟩ := (isSourcePlace_cons hrest).mp hsource
      rcases List.mem_cons.mp hmem with rfl | hmem
      · exact h.elim hhidden hskipped
      · exact ih hmem hsource

theorem isSourceName_of_isSourcePlace {above : List String} {name : String} (h : isSourcePlace (above ++ [name])) :
    isSourceName name := by
  induction above with
  | nil => exact (isSourcePlace_singleton.mp h).2
  | cons n above ih => exact ih ((isSourcePlace_cons (by simp)).mp h).2.2

/-- All that is below a file is the file itself. -/
theorem eq_nil_of_at?_file {bytes : List UInt8} {r : List String} {e : FileTree}
    (h : (file bytes).at? r = some e) : r = [] := by
  cases r with
  | nil => rfl
  | cons n r => simp [at?_cons, child?, entries] at h

section

variable {t : FileTree} {root rel r : List String} {content : Option FileTree} {bytes : List UInt8}

/-- No source file stands where an unseen change is made. -/
theorem Unseen.not_isSourcePlace (h : Unseen t root rel content)
    (hfile : t.at? (root ++ (rel ++ r)) = some (.file bytes)) : ¬ isSourcePlace (rel ++ r) := by
  cases h with
  | overlooked hmem hname => exact not_isSourcePlace_of_overlooked (List.mem_append_left _ hmem) hname
  | added hname hnone =>
    rw [← List.append_assoc, at?_append_eq_none hnone] at hfile
    cases hfile
  | removed hname hold =>
    rw [← List.append_assoc, at?_append, hold, Option.bind_some] at hfile
    obtain rfl := eq_nil_of_at?_file hfile
    rw [List.append_nil]
    exact fun hsource => hname (isSourceName_of_isSourcePlace hsource)

/-- Nor does one come to stand there. -/
theorem Unseen.not_isSourcePlace_new {new : FileTree} (h : Unseen t root rel (some new))
    (hfile : new.at? r = some (.file bytes)) : ¬ isSourcePlace (rel ++ r) := by
  cases h with
  | overlooked hmem hname => exact not_isSourcePlace_of_overlooked (List.mem_append_left _ hmem) hname
  | added hname hnone =>
    obtain rfl := eq_nil_of_at?_file hfile
    rw [List.append_nil]
    exact fun hsource => hname (isSourceName_of_isSourcePlace hsource)

/-- The files at source places are the same after an unseen change. -/
theorem Unseen.at?_iff (h : Unseen t root rel content) {place : List String} (hplace : isSourcePlace place) :
    (t.change (root ++ rel) content).at? (root ++ place) = some (.file bytes) ↔
      t.at? (root ++ place) = some (.file bytes) := by
  constructor
  · intro hafter
    rcases at?_change_cases hafter with hbefore | hdirectory | ⟨new, r, rfl, hr, hnew⟩
    · exact hbefore
    · cases hdirectory
    · rw [List.append_assoc] at hr
      obtain rfl := List.append_cancel_left hr
      exact absurd hplace (h.not_isSourcePlace_new hnew)
  · intro hbefore
    refine at?_change_of_not_directory hbefore (by simp [isDirectory]) ?_ content
    rw [List.prefix_append_right_inj]
    rintro ⟨r, rfl⟩
    exact h.not_isSourcePlace hbefore hplace

/-! ## No link is touched -/

theorem NoLinksBelow.change (h : t.NoLinksBelow root) (rel : List String)
    (hcontent : ∀ new ∈ content, new.linkFree) :
    (t.change (root ++ rel) content).NoLinksBelow root := by
  intro rest target hlink
  rcases at?_change_cases hlink with hbefore | hdirectory | ⟨new, r, rfl, -, hnew⟩
  · exact h rest target hbefore
  · cases hdirectory
  · exact ne_link_of_at? (hcontent new rfl) hnew

/-- The links elsewhere stay when something without links changes below a place without any. -/
theorem NoLinksBelow.link_iff (h : t.NoLinksBelow root) (rel : List String)
    (hcontent : ∀ new ∈ content, new.linkFree) (place : List String) (target : String) :
    t.at? place = some (.link target) ↔ (t.change (root ++ rel) content).at? place = some (.link target) := by
  constructor
  · intro hbefore
    refine at?_change_of_not_directory hbefore (by simp [isDirectory]) ?_ content
    rintro ⟨r, rfl⟩
    rw [List.append_assoc] at hbefore
    exact h _ target hbefore
  · intro hafter
    rcases at?_change_cases hafter with hbefore | hdirectory | ⟨new, r, rfl, -, hnew⟩
    · exact hbefore
    · cases hdirectory
    · exact absurd hnew (ne_link_of_at? (hcontent new rfl))

end

/-! ## The same sources -/

/-- Two trees have the same source files below `start`, with the same texts. -/
structure SameSources (t t' : FileTree) (start : List String) : Prop where
  resolve_eq : t.resolve start = t'.resolve start
  mem_iff {f : Path} : f ∈ t.discover start ↔ f ∈ t'.discover start
  text_eq {f : Path} : f ∈ t.discover start → t.text? f = t'.text? f

section

variable {t t' t'' : FileTree} {start : List String}

theorem SameSources.refl (t : FileTree) (start : List String) : t.SameSources t start := ⟨rfl, .rfl, fun _ => rfl⟩

theorem SameSources.trans (h : t.SameSources t' start) (h' : t'.SameSources t'' start) : t.SameSources t'' start where
  resolve_eq := h.resolve_eq.trans h'.resolve_eq
  mem_iff := h.mem_iff.trans h'.mem_iff
  text_eq hf := (h.text_eq hf).trans (h'.text_eq (h.mem_iff.mp hf))

theorem SameSources.of_step {root : List String} (hroot : t.resolve start = root) (hlinks : t.NoLinksBelow root)
    (h : UnseenStep root t t') : t'.resolve start = root ∧ t'.NoLinksBelow root ∧ t.SameSources t' start := by
  obtain @⟨rel, content, hunseen, -, hcontent⟩ := h
  have hfree : ∀ new ∈ content, new.linkFree := fun new hnew => (hcontent new hnew).2
  have hsame := hlinks.link_iff rel hfree
  have hroot' := (resolve_congr hsame start).symm.trans hroot
  have hlinks' := hlinks.change rel hfree
  refine ⟨hroot', hlinks', hroot.trans hroot'.symm, ?_, ?_⟩
  · intro f
    rw [mem_discover_iff hroot hlinks, mem_discover_iff hroot' hlinks']
    refine exists₂_congr fun rest bytes => and_congr_right fun _ => and_congr_right fun hsource => ?_
    exact (hunseen.at?_iff hsource).symm
  · intro f hf
    obtain ⟨rest, bytes, rfl, hsource, hbytes⟩ := (mem_discover_iff hroot hlinks).mp hf
    have hrest : rest ≠ [] := by rintro rfl; cases hsource
    have hdots := dots_not_mem_of_isSourcePlace hsource
    have hbytes' := (hunseen.at?_iff hsource).mpr hbytes
    rw [text?_below hroot hrest hdots hbytes, text?_below hroot' hrest hdots hbytes', resolveFrom?_congr hsame]

theorem UnseenStep.wellNamed {root : List String} (h : UnseenStep root t t') (ht : t.wellNamed) : t'.wellNamed := by
  obtain ⟨-, hnames, hcontent⟩ := h
  exact wellNamed_change ht hnames fun new hnew => (hcontent new hnew).1

/-- However many unseen changes are made, the source files are the same. -/
theorem sameSources_of_unseen (ht : t.wellNamed) (hlinks : t.NoLinksBelow (t.resolve start))
    (h : Relation.ReflTransGen (UnseenStep (t.resolve start)) t t') :
    t'.wellNamed ∧ t'.NoLinksBelow (t.resolve start) ∧ t.SameSources t' start := by
  induction h with
  | refl => exact ⟨ht, hlinks, .refl t start⟩
  | tail _ hstep ih =>
    obtain ⟨hnamed, hlinks, hsame⟩ := ih
    obtain ⟨-, hlinks', hsame'⟩ := SameSources.of_step hsame.resolve_eq.symm hlinks hstep
    exact ⟨hstep.wellNamed hnamed, hlinks', hsame.trans hsame'⟩

end

end FileTree

end RepoOrbit
