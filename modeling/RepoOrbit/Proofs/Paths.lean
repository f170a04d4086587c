import Mathlib.Data.List.Basic
import Mathlib.Data.String.Basic
import RepoOrbit.Path

/-!
# Where the text of a path leads

A text is read piece by piece between its slashes (`pieces_append_slash`,
`pieces_intercalate`). `follow` goes from a place where the pieces of a text lead, one
directory down or out for each (`walk`). Of a text that starts from a root,

* `ofString_toString`: a path that is written is read as the same path;
* `normalize_eq`: the normalised text is that of the place the text leads to from its root;
* `normalize_joinText`: a text read from a directory leads where it does from the place of that
  directory (`normal`), in which no `..` is left (`isNormal_normal`).

Of any path, the names below its last name stay where they are when its text is normalised, if
none of them leads out of a directory (`normalize_child_append`).
-/

namespace RepoOrbit.Path

/-! ## Pieces -/

theorem pieces_eq (s : String) : pieces s = (s.toList.splitOn '/').map String.ofList :=
  String.splitToList_of_valid _ _

theorem pieces_ne_nil (s : String) : pieces s ≠ [] := by
  rw [pieces_eq, ne_eq, List.map_eq_nil_iff]
  exact List.splitOn_ne_nil _ _

theorem pieces_append_slash (s t : String) : pieces (s ++ "/" ++ t) = pieces s ++ pieces t := by
  have htext : (s ++ "/" ++ t).toList = s.toList ++ '/' :: t.toList := by simp
  rw [pieces_eq, htext, List.splitOn_append_cons_self, List.map_append, ← pieces_eq, ← pieces_eq]

theorem pieces_of_not_mem {s : String} (h : '/' ∉ s.toList) : pieces s = [s] := by
  rw [pieces_eq, List.splitOn_eq_singleton h, List.map_singleton, String.ofList_toList]

/-- The pieces of names with slashes between them are the names. -/
theorem pieces_intercalate {names : List String} (hne : names ≠ []) (h : ∀ n ∈ names, '/' ∉ n.toList) :
    pieces ("/".intercalate names) = names := by
  induction names with
  | nil => exact absurd rfl hne
  | cons n names ih =>
    have hn := pieces_of_not_mem (h n List.mem_cons_self)
    cases names with
    | nil => rw [String.intercalate_singleton, hn]
    | cons m names =>
      rw [String.intercalate_cons_cons, pieces_append_slash, hn,
        ih (List.cons_ne_nil _ _) fun k hk => h k (List.mem_cons_of_mem _ hk)]
      rfl

theorem not_mem_of_mem_splitOn {c : Char} {l part : List Char} (h : part ∈ l.splitOn c) : c ∉ part := by
  induction l generalizing part with
  | nil =>
    rw [List.splitOn_nil, List.mem_singleton] at h
    rw [h]
    exact List.not_mem_nil
  | cons d l ih =>
    rw [List.splitOn_cons_eq_if_modifyHead] at h
    split at h
    · rcases List.mem_cons.mp h with rfl | h
      · exact List.not_mem_nil
      · exact ih h
    · rename_i hd
      cases hsplit : l.splitOn c with
      | nil => exact absurd hsplit (List.splitOn_ne_nil c l)
      | cons first parts =>
        rw [hsplit] at h ih
        rcases List.mem_cons.mp h with rfl | h
        · rw [List.mem_cons, not_or]
          exact ⟨fun heq => hd (by simp [heq]), ih List.mem_cons_self⟩
        · exact ih (List.mem_cons_of_mem _ h)

theorem slash_not_mem_of_mem_pieces {s piece : String} (h : piece ∈ pieces s) : '/' ∉ piece.toList := by
  rw [pieces_eq] at h
  obtain ⟨part, hpart, rfl⟩ := List.mem_map.mp h
  rw [String.toList_ofList]
  exact not_mem_of_mem_splitOn hpart

theorem pieces_injective : Function.Injective pieces := by
  intro s t h
  rw [pieces_eq, pieces_eq] at h
  have hsplit := List.map_injective_iff.mpr (fun _ _ => String.ofList_injective) h
  have hback : ['/'].intercalate (s.toList.splitOn '/') = s.toList := List.intercalate_splitOn '/'
  rw [← String.toList_inj, ← hback, hsplit, List.intercalate_splitOn]

/-- Where some pieces end and others begin there is a slash. -/
theorem exists_of_pieces_append {s : String} {names names' : List String} (hne : names ≠ []) (hne' : names' ≠ [])
    (h : pieces s = names ++ names') : ∃ a b, s = a ++ "/" ++ b ∧ pieces a = names ∧ pieces b = names' := by
  have hslash : ∀ n ∈ names ++ names', '/' ∉ n.toList := fun n hn => slash_not_mem_of_mem_pieces (h ▸ hn)
  have hnames := pieces_intercalate hne fun n hn => hslash n (List.mem_append_left _ hn)
  have hnames' := pieces_intercalate hne' fun n hn => hslash n (List.mem_append_right _ hn)
  refine ⟨"/".intercalate names, "/".intercalate names', pieces_injective ?_, hnames, hnames'⟩
  rw [pieces_append_slash, hnames, hnames', h]

/-! ## Names -/

/-- A name as reading a path gives it: neither empty nor the dot, and without a slash. -/
def IsName (name : String) : Prop := name ≠ "" ∧ name ≠ "." ∧ '/' ∉ name.toList

instance (name : String) : Decidable (IsName name) := inferInstanceAs (Decidable (_ ∧ _ ∧ _))

/-- All names are as reading gives them. -/
def IsProper (p : Path) : Prop := ∀ n ∈ p.names, IsName n

instance (p : Path) : Decidable p.IsProper := inferInstanceAs (Decidable (∀ n ∈ p.names, IsName n))

/-- The names are proper and none of them leads out of a directory. -/
def IsNormal (p : Path) : Prop := ∀ n ∈ p.names, IsName n ∧ n ≠ ".."

instance (p : Path) : Decidable p.IsNormal := inferInstanceAs (Decidable (∀ n ∈ p.names, IsName n ∧ n ≠ ".."))

theorem isProper_ofString (s : String) : (ofString s).IsProper := by
  intro n hn
  obtain ⟨hpiece, hnot⟩ := List.mem_filter.mp hn
  rw [Bool.and_eq_true, bne_iff_ne, bne_iff_ne] at hnot
  exact ⟨hnot.1, hnot.2, slash_not_mem_of_mem_pieces hpiece⟩

section

variable {p : Path}

theorem IsNormal.isProper (h : p.IsNormal) : p.IsProper := fun n hn => (h n hn).1

theorem IsProper.parent (h : p.IsProper) : p.parent.IsProper := fun n hn => h n (List.dropLast_subset _ hn)

theorem IsNormal.parent (h : p.IsNormal) : p.parent.IsNormal := fun n hn => h n (List.dropLast_subset _ hn)

theorem IsProper.child (h : p.IsProper) {name : String} (hname : IsName name) : (p.child name).IsProper := by
  intro n hn
  rcases List.mem_append.mp hn with hn | hn
  · exact h n hn
  · rwa [List.mem_singleton.mp hn]

theorem IsNormal.child (h : p.IsNormal) {name : String} (hname : IsName name) (hdots : name ≠ "..") :
    (p.child name).IsNormal := by
  intro n hn
  rcases List.mem_append.mp hn with hn | hn
  · exact h n hn
  · rw [List.mem_singleton.mp hn]
    exact ⟨hname, hdots⟩

theorem isNormal_root (root : PathRoot) : IsNormal ⟨root, []⟩ := fun n (hn : n ∈ []) => absurd hn List.not_mem_nil

end

/-! ## Walking -/

/-- The place one piece of a text leads to: `..` leads out of a directory, but not out of the
root. -/
def walk (p : Path) (piece : String) : Path :=
  if piece = "" ∨ piece = "." then p else if piece = ".." then p.parent else p.child piece

/-- The place a text leads to. -/
def follow (p : Path) (s : String) : Path := (pieces s).foldl walk p

/-- The place of a path, its `..` names worked out. -/
def normal (p : Path) : Path := p.names.foldl walk ⟨p.root, []⟩

theorem walk_empty (p : Path) : p.walk "" = p := rfl

theorem walk_name (p : Path) {name : String} (h : IsName name) (hdots : name ≠ "..") :
    p.walk name = p.child name := by
  rw [walk, if_neg (not_or.mpr ⟨h.1, h.2.1⟩), if_neg hdots]

@[simp] theorem parent_child (p : Path) (name : String) : (p.child name).parent = p := by
  simp [parent, child]

@[simp] theorem name_child (p : Path) (n : String) : (p.child n).name = n := by
  simp [name, child]

theorem child_parent_name {p : Path} (h : p.name ≠ "") : p.parent.child p.name = p := by
  obtain ⟨root, names⟩ := p
  rcases List.eq_nil_or_concat' names with rfl | ⟨init, n, rfl⟩
  · exact absurd rfl h
  · simp [parent, child, name]

theorem follow_append_slash (p : Path) (s t : String) : p.follow (s ++ "/" ++ t) = (p.follow s).follow t := by
  rw [follow, pieces_append_slash, List.foldl_append]
  rfl

theorem follow_of_not_mem (p : Path) {s : String} (h : '/' ∉ s.toList) : p.follow s = p.walk s := by
  rw [follow, pieces_of_not_mem h]
  rfl

@[simp] theorem follow_empty (p : Path) : p.follow "" = p := p.follow_of_not_mem List.not_mem_nil

@[simp] theorem follow_dot (p : Path) : p.follow "." = p := p.follow_of_not_mem (by decide)

@[simp] theorem follow_dots (p : Path) : p.follow ".." = p.parent := p.follow_of_not_mem (by decide)

/-- A slash at the end leads nowhere. -/
theorem follow_slash_end (p : Path) (s : String) : p.follow (s ++ "/") = p.follow s := by
  have htext : s ++ "/" = s ++ "/" ++ "" := String.append_empty.symm
  rw [htext, follow_append_slash, follow_empty]

/-- Down by names. -/
theorem foldl_walk_names (p : Path) {names : List String} (h : IsNormal ⟨p.root, names⟩) :
    names.foldl walk p = ⟨p.root, p.names ++ names⟩ := by
  induction names generalizing p with
  | nil => rw [List.append_nil, List.foldl_nil]
  | cons n names ih =>
    obtain ⟨hname, hdots⟩ := h n List.mem_cons_self
    rw [List.foldl_cons, walk_name p hname hdots, ih (p.child n) fun k hk => h k (List.mem_cons_of_mem _ hk)]
    simp [child]

theorem normal_eq {p : Path} (h : p.IsNormal) : p.normal = p := foldl_walk_names ⟨p.root, []⟩ h

section

variable {p : Path}

theorem walk_root (p : Path) (piece : String) : (p.walk piece).root = p.root := by
  unfold walk
  split
  · rfl
  · split <;> rfl

theorem foldl_walk_root (p : Path) (pieces : List String) : (pieces.foldl walk p).root = p.root := by
  induction pieces generalizing p with
  | nil => rfl
  | cons piece pieces ih => rw [List.foldl_cons, ih, walk_root]

theorem IsNormal.walk (h : p.IsNormal) {piece : String} (hslash : '/' ∉ piece.toList) : (p.walk piece).IsNormal := by
  unfold Path.walk
  split
  · exact h
  · rename_i hnot
    rw [not_or] at hnot
    split
    · exact h.parent
    · rename_i hdots
      exact h.child ⟨hnot.1, hnot.2, hslash⟩ hdots

theorem IsNormal.foldl_walk (h : p.IsNormal) {pieces : List String} (hslash : ∀ s ∈ pieces, '/' ∉ s.toList) :
    (pieces.foldl Path.walk p).IsNormal := by
  induction pieces generalizing p with
  | nil => exact h
  | cons piece pieces ih =>
    exact ih (h.walk (hslash piece List.mem_cons_self)) fun s hs => hslash s (List.mem_cons_of_mem _ hs)

theorem IsNormal.follow (h : p.IsNormal) (s : String) : (p.follow s).IsNormal :=
  h.foldl_walk fun _ => slash_not_mem_of_mem_pieces

theorem isNormal_normal (h : p.IsProper) : p.normal.IsNormal :=
  (isNormal_root p.root).foldl_walk fun n hn => (h n hn).2.2

end

/-! ## Texts that start from a root -/

/-- The text does not start from a root. -/
def StartsBelow (s : String) : Prop := s.toList.head? ≠ some '/'

section

variable {root : PathRoot} {s : String}

theorem rootOf_append (hroot : root ≠ .relative) (hs : StartsBelow s) : rootOf (root.text ++ s) = root := by
  unfold StartsBelow at hs
  cases root with
  | relative => exact absurd rfl hroot
  | slash =>
    rw [rootOf, String.toList_append]
    cases hlist : s.toList with
    | nil => rfl
    | cons c rest =>
      rw [hlist, List.head?_cons, ne_eq, Option.some_inj] at hs
      simp [PathRoot.text, hs]
  | doubleSlash =>
    rw [rootOf, String.toList_append]
    cases hlist : s.toList with
    | nil => rfl
    | cons c rest =>
      rw [hlist, List.head?_cons, ne_eq, Option.some_inj] at hs
      simp [PathRoot.text, hs]

theorem slash_eq_append (s : String) : "/" ++ s = "" ++ "/" ++ s := by rw [String.empty_append]

theorem pieces_slash_append (s : String) : pieces ("/" ++ s) = "" :: pieces s := by
  rw [slash_eq_append, pieces_append_slash, pieces_of_not_mem (s := "") List.not_mem_nil, List.singleton_append]

theorem doubleSlash_append (s : String) : PathRoot.doubleSlash.text ++ s = "/" ++ ("/" ++ s) := by
  rw [← String.append_assoc]
  rfl

/-- The slashes of a root lead nowhere. -/
theorem follow_append_root (p : Path) (root : PathRoot) (s : String) : p.follow (root.text ++ s) = p.follow s := by
  have hslash (s : String) : p.follow ("/" ++ s) = p.follow s := by
    rw [follow, pieces_slash_append, List.foldl_cons, walk_empty, follow]
  cases root with
  | relative => rw [PathRoot.text, String.empty_append]
  | slash => exact hslash s
  | doubleSlash => rw [doubleSlash_append, hslash, hslash]

/-- The slashes of a root are no names. -/
theorem names_ofString_append_root (root : PathRoot) (s : String) :
    (ofString (root.text ++ s)).names = (ofString s).names := by
  have hslash (s : String) : (ofString ("/" ++ s)).names = (ofString s).names := by
    simp [ofString, pieces_slash_append]
  cases root with
  | relative => rw [PathRoot.text, String.empty_append]
  | slash => exact hslash s
  | doubleSlash => rw [doubleSlash_append, hslash, hslash]

end

theorem startsBelow_of_name {name s : String} (hempty : name ≠ "") (hslash : '/' ∉ name.toList) :
    StartsBelow (name ++ s) := by
  cases hlist : name.toList with
  | nil => exact absurd (String.toList_eq_nil_iff.mp hlist) hempty
  | cons c rest =>
    rw [hlist, List.mem_cons, not_or] at hslash
    simpa [StartsBelow, hlist] using Ne.symm hslash.1

section

variable {p : Path}

theorem ne_relative (h : p.isAbsolute) : p.root ≠ .relative := by simpa [isAbsolute] using h

theorem toString_eq (h : p.isAbsolute) : p.toString = p.root.text ++ "/".intercalate p.names := by
  have hroot := ne_relative h
  obtain ⟨root, names⟩ := p
  cases root with
  | relative => exact absurd rfl hroot
  | slash => rfl
  | doubleSlash => rfl

theorem IsProper.startsBelow_append (h : p.IsProper) (hne : p.names ≠ []) (s : String) :
    StartsBelow ("/".intercalate p.names ++ s) := by
  obtain ⟨root, names⟩ := p
  cases names with
  | nil => exact absurd rfl hne
  | cons n names =>
    obtain ⟨hempty, -, hslash⟩ := h n List.mem_cons_self
    cases names with
    | nil =>
      rw [String.intercalate_singleton]
      exact startsBelow_of_name hempty hslash
    | cons m names =>
      rw [String.intercalate_cons_cons, String.append_assoc, String.append_assoc]
      exact startsBelow_of_name hempty hslash

theorem IsProper.startsBelow (h : p.IsProper) : StartsBelow ("/".intercalate p.names) := by
  by_cases hne : p.names = []
  · simp [StartsBelow, hne]
  · simpa using h.startsBelow_append hne ""

theorem IsProper.names_ofString (h : p.IsProper) : (ofString ("/".intercalate p.names)).names = p.names := by
  obtain ⟨root, names⟩ := p
  cases names with
  | nil => simp [ofString, pieces_of_not_mem]
  | cons n names =>
    rw [ofString, pieces_intercalate (List.cons_ne_nil _ _) fun k hk => (h k hk).2.2]
    refine List.filter_eq_self.mpr fun k hk => ?_
    rw [Bool.and_eq_true, bne_iff_ne, bne_iff_ne]
    exact ⟨(h k hk).1, (h k hk).2.1⟩

/-- A path that is written is read as the same path. -/
theorem ofString_toString (habsolute : p.isAbsolute) (h : p.IsProper) : ofString p.toString = p := by
  have hroot : (ofString p.toString).root = p.root := by
    rw [toString_eq habsolute, ofString, rootOf_append (ne_relative habsolute) h.startsBelow]
  have hnames : (ofString p.toString).names = p.names := by
    rw [toString_eq habsolute, names_ofString_append_root, h.names_ofString]
  calc ofString p.toString = ⟨(ofString p.toString).root, (ofString p.toString).names⟩ := rfl
    _ = p := by rw [hroot, hnames]

/-! ## Normalised texts -/

/-- One piece, on names and on the place they make. -/
theorem walk_eq_normalStep {done : List String} (root : PathRoot) (piece : String) (h : ".." ∉ done) :
    walk ⟨root, done.reverse⟩ piece = ⟨root, (normalStep true done piece).reverse⟩ ∧
      ".." ∉ normalStep true done piece := by
  by_cases hskip : piece = "" ∨ piece = "."
  · have hstep : normalStep true done piece = done := if_pos hskip
    rw [hstep, walk, if_pos hskip]
    exact ⟨rfl, h⟩
  · by_cases hdots : piece = ".."
    · subst hdots
      cases done with
      | nil => exact ⟨rfl, h⟩
      | cons top done =>
        rw [List.mem_cons, not_or] at h
        simp [walk, normalStep, parent, Ne.symm h.1, h.2]
    · have hstep : normalStep true done piece = piece :: done := (if_neg hskip).trans (if_pos hdots)
      rw [hstep, walk, if_neg hskip, if_neg hdots, child, List.reverse_cons, List.mem_cons, not_or]
      exact ⟨rfl, Ne.symm hdots, h⟩

theorem foldl_walk_eq_normalStep {done : List String} (root : PathRoot) (pieces : List String) (h : ".." ∉ done) :
    pieces.foldl walk ⟨root, done.reverse⟩ = ⟨root, (pieces.foldl (normalStep true) done).reverse⟩ := by
  induction pieces generalizing done with
  | nil => rfl
  | cons piece pieces ih =>
    obtain ⟨hwalk, hdots⟩ := walk_eq_normalStep root piece h
    rw [List.foldl_cons, List.foldl_cons, hwalk, ih hdots]

/-- A text that starts from a root is normalised to the place it leads to. -/
theorem normalize_eq {s : String} (h : rootOf s ≠ .relative) :
    normalize s = (follow ⟨rootOf s, []⟩ s).toString := by
  have hrooted : (rootOf s != .relative) = true := bne_iff_ne.mpr h
  have hnil : ".." ∉ ([] : List String) := List.not_mem_nil
  have hnames : follow ⟨rootOf s, []⟩ s = ⟨rootOf s, ((pieces s).foldl (normalStep true) []).reverse⟩ :=
    foldl_walk_eq_normalStep _ _ hnil
  rw [normalize, hnames, hrooted]
  rfl

end

/-! ## Names below a path -/

theorem toString_of_ne_nil (root : PathRoot) {names : List String} (h : names ≠ []) :
    toString ⟨root, names⟩ = root.text ++ "/".intercalate names := by
  unfold toString
  split
  · rename_i hnames
    exact absurd hnames h
  · rfl

/-- A path is written as what is above it, and the names below that. -/
theorem toString_append (root : PathRoot) {names : List String} (h : names ≠ []) (below : List String) :
    toString ⟨root, names ++ below⟩ = "/".intercalate (toString ⟨root, names⟩ :: below) := by
  rw [toString_of_ne_nil root h, toString_of_ne_nil root (List.append_ne_nil_of_left_ne_nil h below)]
  by_cases hbelow : below = []
  · rw [hbelow, List.append_nil, String.intercalate_singleton]
  · rw [String.intercalate_append_of_ne_nil h hbelow, ← List.singleton_append,
      String.intercalate_append_of_ne_nil (List.cons_ne_nil _ _) hbelow, String.intercalate_singleton]
    simp only [String.append_assoc]

/-- The last name stands behind a slash, or alone. -/
theorem exists_toString_concat (root : PathRoot) (names : List String) :
    ∃ front, (front = "" ∨ ∃ s, front = s ++ "/") ∧ ∀ n, toString ⟨root, names ++ [n]⟩ = front ++ n := by
  by_cases hne : names = []
  · subst hne
    have htext (n : String) : toString ⟨root, [n]⟩ = root.text ++ n := by
      rw [toString_of_ne_nil root (by simp), String.intercalate_singleton]
    refine ⟨root.text, ?_, htext⟩
    cases root with
    | relative => exact .inl rfl
    | slash => exact .inr ⟨"", rfl⟩
    | doubleSlash => exact .inr ⟨"/", rfl⟩
  · refine ⟨toString ⟨root, names⟩ ++ "/", .inr ⟨_, rfl⟩, fun n => ?_⟩
    rw [toString_append root hne, String.intercalate_cons_cons, String.intercalate_singleton]

theorem exists_pieces_append {front : String} (h : front = "" ∨ ∃ s, front = s ++ "/") {name : String}
    (hslash : '/' ∉ name.toList) : ∃ before, pieces (front ++ name) = before ++ [name] := by
  rcases h with rfl | ⟨s, rfl⟩
  · exact ⟨[], by rw [String.empty_append, pieces_of_not_mem hslash]; rfl⟩
  · exact ⟨pieces s, by rw [pieces_append_slash, pieces_of_not_mem hslash]⟩

/-- What follows a character that is no slash does not change the root. -/
theorem rootOf_append_of_mem {s : String} {c : Char} (hc : c ∈ s.toList) (hslash : c ≠ '/') (t : String) :
    rootOf (s ++ t) = rootOf s := by
  rw [rootOf, rootOf, String.toList_append]
  match s.toList, hc with
  | [a], hc =>
    obtain rfl := List.mem_singleton.mp hc
    simp [hslash]
  | [a, b], hc =>
    by_cases ha : a = '/'
    · have hb : b ≠ '/' := by
        rintro rfl
        simp_all
      simp [ha, hb]
    · simp [ha]
  | a :: b :: d :: l, _ =>
    by_cases ha : a = '/' <;> by_cases hb : b = '/' <;> by_cases hd : d = '/' <;> simp [ha, hb, hd]

theorem normalize_eq_toString (s : String) :
    normalize s = toString ⟨rootOf s, ((pieces s).foldl (normalStep (rootOf s != .relative)) []).reverse⟩ := rfl

/-- Names that do not lead out of a directory are taken as they are. -/
theorem foldl_normalStep_names (rooted : Bool) {names : List String} (h : IsNormal ⟨.relative, names⟩)
    (done : List String) : names.foldl (normalStep rooted) done = names.reverse ++ done := by
  induction names generalizing done with
  | nil => rfl
  | cons n names ih =>
    obtain ⟨hname, hdots⟩ := h n List.mem_cons_self
    have hstep : normalStep rooted done n = n :: done := by
      unfold normalStep
      rw [if_neg (not_or.mpr ⟨hname.1, hname.2.1⟩), if_pos hdots]
    rw [List.foldl_cons, hstep, ih fun k hk => h k (List.mem_cons_of_mem _ hk)]
    simp

theorem exists_intercalate_cons (s : String) (below : List String) :
    ∃ t, "/".intercalate (s :: below) = s ++ t ∧
      ((∀ n ∈ below, '/' ∉ n.toList) → pieces (s ++ t) = pieces s ++ below) := by
  by_cases hne : below = []
  · refine ⟨"", by rw [hne, String.intercalate_singleton, String.append_empty], fun _ => ?_⟩
    rw [hne, String.append_empty, List.append_nil]
  · refine ⟨"/" ++ "/".intercalate below, ?_, fun hslash => ?_⟩
    · rw [← List.singleton_append, String.intercalate_append_of_ne_nil (List.cons_ne_nil _ _) hne,
        String.intercalate_singleton, String.append_assoc]
    · rw [← String.append_assoc, pieces_append_slash, pieces_intercalate hne hslash]

/-- Below a name that does not lead out of a directory, normalising a text leaves such names
as they are. -/
theorem normalize_child_append (p : Path) {name : String} {below : List String} (hname : IsName name)
    (hdots : name ≠ "..") (hbelow : IsNormal ⟨.relative, below⟩) :
    normalize (toString ⟨p.root, (p.child name).names ++ below⟩) =
      "/".intercalate (normalize (p.child name).toString :: below) := by
  obtain ⟨front, hfront, htext⟩ := exists_toString_concat p.root p.names
  obtain ⟨before, hpieces⟩ := exists_pieces_append hfront hname.2.2
  have hne : (p.child name).names ≠ [] := by simp [child]
  have hchild : (p.child name).toString = front ++ name := htext name
  have hnames : toString ⟨p.root, (p.child name).names⟩ = front ++ name := htext name
  obtain ⟨t, ht, hpiecesBelow⟩ := exists_intercalate_cons (front ++ name) below
  obtain ⟨c, hc⟩ := List.exists_mem_of_ne_nil _ fun hnil => hname.1 (String.toList_eq_nil_iff.mp hnil)
  have hroot : rootOf (front ++ name ++ t) = rootOf (front ++ name) :=
    rootOf_append_of_mem (c := c) (by simp [hc]) (fun h => hname.2.2 (h ▸ hc)) t
  have hsingle : IsNormal ⟨.relative, [name]⟩ := by
    intro n hn
    rw [List.mem_singleton.mp hn]
    exact ⟨hname, hdots⟩
  rw [toString_append p.root hne, hnames, ht, hchild, normalize_eq_toString, normalize_eq_toString, hroot,
    hpiecesBelow fun n hn => (hbelow n hn).1.2.2, hpieces, List.foldl_append, List.foldl_append,
    foldl_normalStep_names _ hbelow, foldl_normalStep_names _ hsingle, List.reverse_append, List.reverse_reverse,
    toString_append _ (by simp)]

/-! ## Reading a text from a directory -/

section

variable {p : Path}

theorem endsWith_slash_iff {s : String} : s.endsWith "/" ↔ s.toList.getLast? = some '/' := by
  rw [String.endsWith, String.Slice.endsWith_string_iff, String.copy_toSlice]
  exact List.singleton_suffix_iff_getLast?_eq_some

/-- Only the text of a root ends with a slash. -/
theorem endsWith_slash_toString (habsolute : p.isAbsolute) (h : p.IsProper) :
    p.toString.endsWith "/" ↔ p.names = [] := by
  obtain ⟨root, names⟩ := p
  have hroot := ne_relative habsolute
  rw [endsWith_slash_iff]
  constructor
  · intro hslash
    by_contra hne
    obtain ⟨init, n, rfl⟩ := (List.eq_nil_or_concat' names).resolve_left hne
    obtain ⟨before, -, hbefore⟩ := exists_toString_concat root init
    obtain ⟨hempty, -, hnot⟩ := h n (by simp)
    have hlast : n.toList ≠ [] := fun hnil => hempty (String.toList_eq_nil_iff.mp hnil)
    rw [hbefore, String.toList_append, List.getLast?_append_of_ne_nil _ hlast] at hslash
    exact hnot (List.mem_of_getLast? hslash)
  · rintro rfl
    cases root with
    | relative => exact absurd rfl hroot
    | slash => rfl
    | doubleSlash => rfl

theorem joinText_toString (habsolute : p.isAbsolute) (h : p.IsProper) {s : String} (hs : StartsBelow s) :
    joinText p.toString s = if p.names = [] then p.toString ++ s else p.toString ++ "/" ++ s := by
  have hstart : ¬ s.startsWith "/" := by
    rw [String.startsWith_string_iff]
    rintro ⟨rest, hrest⟩
    exact hs (by rw [← hrest]; rfl)
  have hne : p.toString ≠ "" := by
    have hroot : p.root.text ≠ "" := by
      have := ne_relative habsolute
      cases hr : p.root <;> simp_all [PathRoot.text]
    rw [toString_eq habsolute]
    simp [hroot]
  rw [joinText, if_neg hstart]
  simp [hne, endsWith_slash_toString habsolute h]

/-- A name read from a directory. -/
theorem joinText_name (habsolute : p.isAbsolute) (h : p.IsProper) {name : String} (hempty : name ≠ "")
    (hslash : '/' ∉ name.toList) : joinText p.toString name = (p.child name).toString := by
  have hname : StartsBelow name := by simpa using startsBelow_of_name (s := "") hempty hslash
  have hchild : (p.child name).isAbsolute := habsolute
  rw [joinText_toString habsolute h hname, toString_eq habsolute, toString_eq hchild, child]
  split
  · rename_i hnames
    simp [hnames]
  · rename_i hnames
    rw [String.intercalate_append_of_ne_nil hnames (List.cons_ne_nil _ _), String.intercalate_singleton]
    simp only [String.append_assoc]

/-- A text that is read from a directory, normalised. -/
theorem normalize_joinText (habsolute : p.isAbsolute) (h : p.IsProper) {s : String} (hs : StartsBelow s) :
    normalize (joinText p.toString s) = (p.normal.follow s).toString := by
  have hroot := ne_relative habsolute
  rw [joinText_toString habsolute h hs, toString_eq habsolute]
  split
  · rename_i hnames
    have htext : p.root.text ++ "/".intercalate p.names ++ s = p.root.text ++ s := by simp [hnames]
    have hnormal : p.normal = ⟨p.root, []⟩ := by rw [normal, hnames]; rfl
    rw [htext, normalize_eq (by rwa [rootOf_append hroot hs]), rootOf_append hroot hs, follow_append_root, hnormal]
  · rename_i hnames
    have hdir : follow ⟨p.root, []⟩ (p.root.text ++ "/".intercalate p.names) = p.normal := by
      rw [follow_append_root, follow, pieces_intercalate hnames fun n hn => (h n hn).2.2, normal]
    have htext : rootOf (p.root.text ++ "/".intercalate p.names ++ "/" ++ s) = p.root := by
      rw [String.append_assoc, String.append_assoc]
      exact rootOf_append hroot (h.startsBelow_append hnames _)
    rw [normalize_eq (by rwa [htext]), htext, follow_append_slash, hdir]

end

end RepoOrbit.Path
