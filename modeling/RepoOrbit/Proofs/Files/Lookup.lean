import RepoOrbit.Proofs.Files.Places

/-!
# Looking things up through links

`find?` reads a place name by name and follows the links it meets. Whatever is
found at the end was reached through directories:

* `findFrom?_append`: before the last names are read, a directory has been found;
* `holdsDirectory_of_append`: a place above a directory is a directory;
* `findFrom?_below`: past a directory a lookup goes on from where the directory really is;
* `at?_of_findFrom?`, `findFrom?_of_at?`: what is found stands at the place found,
  and is found there again;
* `findFrom?_of_isDirectoryPlace`, `exists_findFrom?_of_append`: the names of a directory's place lead
  to it, and something is found at the beginning of every way to something;
* `resolve_of_find?`: `resolve` gives the place found;
* `holdsDirectory_resolve`: a directory is one still when its place is resolved;
* `resolve_resolve`: resolving twice is resolving once;
* `find?_of_holds_append`, `findFrom?_eq_of_find?`: above what is found there is a directory, and
  from its place the rest of the way leads to the same;
* `resolve_congr`: resolving depends only on the links of a tree.

Each is shown for the names up to the first link (`findWith`), and then by
induction on the number of links.
-/

namespace RepoOrbit.FileTree

theorem at?_concat (t : FileTree) (p : List String) (n : String) :
    t.at? (p ++ [n]) = (t.at? p).bind (·.child? n) := by
  rw [at?_append]
  congr 1
  funext e
  rw [at?_cons]
  cases e.child? n <;> rfl

/-! ## Above what is found -/

theorem findWith_append {t : FileTree} {follow : List String → List String → Option (List String × FileTree)}
    {q : List String} (hq : q ≠ []) (hdots : ".." ∉ q)
    (hfollow : ∀ {here p found}, follow here (p ++ q) = some found →
      ∃ place es, follow here p = some (place, .directory es))
    {here p : List String} {found : List String × FileTree} (h : t.findWith follow here (p ++ q) = some found) :
    ∃ place es, t.findWith follow here p = some (place, .directory es) := by
  induction p generalizing here with
  | nil =>
    obtain ⟨n, q, rfl⟩ := List.exists_cons_of_ne_nil hq
    have hn : n ≠ ".." := fun e => hdots (e ▸ List.mem_cons_self)
    rw [List.nil_append, findWith, if_neg hn] at h
    rw [findWith]
    cases he : t.at? here with
    | none => simp [he] at h
    | some e =>
      cases e with
      | directory es => exact ⟨here, es, rfl⟩
      | file | link => simp [he, child?, entries] at h
  | cons n p ih =>
    rw [List.cons_append, findWith] at h
    rw [findWith]
    by_cases hn : n = ".."
    · rw [if_pos hn] at h ⊢
      exact ih h
    · rw [if_neg hn] at h ⊢
      cases he : (t.at? here).bind (·.child? n) with
      | none => simp [he] at h
      | some e =>
        cases e with
        | directory es =>
          simp only [he] at h ⊢
          exact ih h
        | file bytes => simp [he, hq] at h
        | link target =>
          simp only [he, ← List.append_assoc] at h ⊢
          exact hfollow h

/-- Before the names `q` are read, a directory has been found at the names `p`. -/
theorem findFrom?_append (t : FileTree) (links : Nat) {here p q : List String} {found : List String × FileTree}
    (hq : q ≠ []) (hdots : ".." ∉ q) (h : t.findFrom? links here (p ++ q) = some found) :
    ∃ place es, t.findFrom? links here p = some (place, .directory es) := by
  induction links generalizing here p found with
  | zero => exact findWith_append hq hdots (fun hnone => by cases hnone) h
  | succ links ih => exact findWith_append hq hdots ih h

/-- A place above a directory is a directory. -/
theorem holdsDirectory_of_append (t : FileTree) (p : List String) {q : List String} (hdots : ".." ∉ q)
    (h : t.holdsDirectory (p ++ q)) : t.holdsDirectory p := by
  rcases eq_or_ne q [] with rfl | hq
  · rwa [List.append_nil] at h
  · unfold holdsDirectory find? at h ⊢
    obtain ⟨found, hf, -⟩ := (Option.any_eq_true _ _).mp h
    obtain ⟨place, es, hp⟩ := findFrom?_append t linkLimit hq hdots hf
    rw [hp]
    rfl

/-! ## What is found -/

theorem at?_of_findWith {t : FileTree} {follow : List String → List String → Option (List String × FileTree)}
    (hfollow : ∀ {here todo place e}, follow here todo = some (place, e) → ".." ∉ here →
      t.at? place = some e ∧ ".." ∉ place)
    {here todo place : List String} {e : FileTree} (h : t.findWith follow here todo = some (place, e))
    (hdots : ".." ∉ here) : t.at? place = some e ∧ ".." ∉ place := by
  induction todo generalizing here with
  | nil =>
    rw [findWith] at h
    obtain ⟨e', he, heq⟩ := Option.map_eq_some_iff.mp h
    obtain ⟨rfl, rfl⟩ := Prod.mk.inj heq
    exact ⟨he, hdots⟩
  | cons n rest ih =>
    rw [findWith] at h
    by_cases hn : n = ".."
    · rw [if_pos hn] at h
      exact ih h fun hm => hdots (List.dropLast_subset here hm)
    · rw [if_neg hn] at h
      have hdots' : ".." ∉ here ++ [n] := by simp [hdots, Ne.symm hn]
      cases he : (t.at? here).bind (·.child? n) with
      | none => simp [he] at h
      | some e' =>
        cases e' with
        | directory es =>
          simp only [he] at h
          exact ih h hdots'
        | file bytes =>
          simp only [he, Option.ite_none_right_eq_some, Option.some.injEq, Prod.mk.injEq] at h
          obtain ⟨-, rfl, rfl⟩ := h
          exact ⟨by rw [at?_concat, he], hdots'⟩
        | link target =>
          simp only [he] at h
          refine hfollow h ?_
          unfold linkOrigin
          split
          · exact List.not_mem_nil
          · exact hdots

/-- What is found stands at the place found, which has no `..` in it. -/
theorem at?_of_findFrom? {t : FileTree} {links : Nat} {here todo place : List String} {e : FileTree}
    (h : t.findFrom? links here todo = some (place, e)) (hdots : ".." ∉ here) :
    t.at? place = some e ∧ ".." ∉ place := by
  induction links generalizing here todo place e with
  | zero => exact at?_of_findWith (fun hnone _ => by cases hnone) h hdots
  | succ links ih => exact at?_of_findWith ih h hdots

theorem findWith_of_at? {t : FileTree} (follow : List String → List String → Option (List String × FileTree))
    {here todo : List String} {e : FileTree} (h : t.at? (here ++ todo) = some e) (hdots : ".." ∉ todo)
    (hlink : ∀ target, e ≠ .link target) : t.findWith follow here todo = some (here ++ todo, e) := by
  induction todo generalizing here with
  | nil =>
    rw [List.append_nil] at h
    rw [findWith, h, List.append_nil]
    rfl
  | cons n todo ih =>
    have hn : n ≠ ".." := fun heq => hdots (heq ▸ List.mem_cons_self)
    have hdots' : ".." ∉ todo := fun hm => hdots (List.mem_cons_of_mem _ hm)
    have happend : here ++ n :: todo = (here ++ [n]) ++ todo := by simp
    rw [happend] at h ⊢
    have hstep := at?_append t (here ++ [n]) todo
    rw [h, at?_concat] at hstep
    rw [findWith, if_neg hn]
    cases he : (t.at? here).bind (·.child? n) with
    | none => simp [he] at hstep
    | some e' =>
      rw [he, Option.bind_some] at hstep
      cases todo with
      | nil =>
        obtain rfl : e = e' := Option.some.inj hstep
        cases e with
        | link target => exact absurd rfl (hlink target)
        | file bytes => simp
        | directory es => exact ih h hdots'
      | cons m todo =>
        cases e' with
        | directory es => exact ih h hdots'
        | file | link => simp [at?_cons, child?, entries] at hstep

/-- What stands at a place without `..` is found there, unless it is a link. -/
theorem findFrom?_of_at? {t : FileTree} (links : Nat) {here todo : List String} {e : FileTree}
    (h : t.at? (here ++ todo) = some e) (hdots : ".." ∉ todo) (hlink : ∀ target, e ≠ .link target) :
    t.findFrom? links here todo = some (here ++ todo, e) := by
  cases links with
  | zero => exact findWith_of_at? _ h hdots hlink
  | succ links => exact findWith_of_at? _ h hdots hlink

/-! ## On from a directory that is found -/

theorem findWith_mono {t : FileTree} {follow follow' : List String → List String → Option (List String × FileTree)}
    (hfollow : ∀ {here todo found}, follow here todo = some found → follow' here todo = some found)
    {here todo : List String} {found : List String × FileTree} (h : t.findWith follow here todo = some found) :
    t.findWith follow' here todo = some found := by
  induction todo generalizing here with
  | nil => exact h
  | cons n rest ih =>
    rw [findWith] at h ⊢
    by_cases hn : n = ".."
    · rw [if_pos hn] at h ⊢
      exact ih h
    · rw [if_neg hn] at h ⊢
      cases he : (t.at? here).bind (·.child? n) with
      | none => simp [he] at h
      | some e =>
        cases e with
        | directory es =>
          simp only [he] at h ⊢
          exact ih h
        | file bytes => simpa only [he] using h
        | link target =>
          simp only [he] at h ⊢
          exact hfollow h

theorem findFrom?_succ {t : FileTree} {links : Nat} {here todo : List String} {found : List String × FileTree}
    (h : t.findFrom? links here todo = some found) : t.findFrom? (links + 1) here todo = some found := by
  induction links generalizing here todo found with
  | zero => exact findWith_mono (fun hnone => by cases hnone) h
  | succ links ih => exact findWith_mono ih h

/-- With more links to follow the same is found. -/
theorem findFrom?_mono {t : FileTree} {links links' : Nat} (hle : links ≤ links') {here todo : List String}
    {found : List String × FileTree} (h : t.findFrom? links here todo = some found) :
    t.findFrom? links' here todo = some found := by
  induction hle with
  | refl => exact h
  | step _ ih => exact findFrom?_succ ih

theorem findWith_below {t : FileTree} {follow : List String → List String → Option (List String × FileTree)}
    {limit : Nat} {q : List String}
    (hfollow : ∀ {here p place es found}, follow here p = some (place, .directory es) →
      follow here (p ++ q) = some found → t.findFrom? limit place q = some found)
    (hend : ∀ {here found}, t.findWith follow here q = some found → t.findFrom? limit here q = some found)
    {here p place : List String} {es : List (String × FileTree)} {found : List String × FileTree}
    (hp : t.findWith follow here p = some (place, .directory es))
    (h : t.findWith follow here (p ++ q) = some found) : t.findFrom? limit place q = some found := by
  induction p generalizing here with
  | nil =>
    rw [findWith] at hp
    obtain ⟨e, -, heq⟩ := Option.map_eq_some_iff.mp hp
    obtain ⟨rfl, -⟩ := Prod.mk.inj heq
    exact hend h
  | cons n p ih =>
    rw [List.cons_append, findWith] at h
    rw [findWith] at hp
    by_cases hn : n = ".."
    · rw [if_pos hn] at h hp
      exact ih hp h
    · rw [if_neg hn] at h hp
      cases he : (t.at? here).bind (·.child? n) with
      | none => simp [he] at h
      | some e =>
        cases e with
        | directory es' =>
          simp only [he] at h hp
          exact ih hp h
        | file bytes => simp [he] at hp
        | link target =>
          simp only [he, ← List.append_assoc] at h hp
          exact hfollow hp h

/-- What is found past a directory is found from where the directory really is. -/
theorem findFrom?_below {t : FileTree} {links limit : Nat} (hle : links ≤ limit) {here p q place : List String}
    {es : List (String × FileTree)} {found : List String × FileTree}
    (hp : t.findFrom? links here p = some (place, .directory es))
    (h : t.findFrom? links here (p ++ q) = some found) : t.findFrom? limit place q = some found := by
  induction links generalizing here p place es found with
  | zero => exact findWith_below (fun hnone => by cases hnone) (findFrom?_mono hle) hp h
  | succ links ih => exact findWith_below (ih (Nat.le_of_succ_le hle)) (findFrom?_mono hle) hp h

/-! ## From the place of a directory -/

/-- A directory stands at a place, which has no `..` in it. -/
structure IsDirectoryPlace (t : FileTree) (here : List String) : Prop where
  dots_not_mem : ".." ∉ here
  directory : ∃ es, t.at? here = some (.directory es)

section

variable {t : FileTree} {here p q : List String} {n : String}

theorem exists_directory_of_at?_append {e : FileTree} (hq : q ≠ []) (h : t.at? (p ++ q) = some e) :
    ∃ es, t.at? p = some (.directory es) := by
  obtain ⟨m, q, rfl⟩ := List.exists_cons_of_ne_nil hq
  rw [at?_append] at h
  obtain ⟨d, hd, hrest⟩ := Option.bind_eq_some_iff.mp h
  cases d with
  | directory es => exact ⟨es, hd⟩
  | file | link => simp [at?_cons, child?, entries] at hrest

theorem IsDirectoryPlace.of_append (h : t.IsDirectoryPlace (p ++ q)) : t.IsDirectoryPlace p where
  dots_not_mem hmem := h.dots_not_mem (List.mem_append_left q hmem)
  directory := by
    obtain ⟨es, hes⟩ := h.directory
    rcases eq_or_ne q [] with rfl | hq
    · exact ⟨es, by rwa [List.append_nil] at hes⟩
    · exact exists_directory_of_at?_append hq hes

theorem IsDirectoryPlace.dropLast (h : t.IsDirectoryPlace here) : t.IsDirectoryPlace here.dropLast := by
  obtain ⟨q, hq⟩ := here.dropLast_prefix
  exact of_append (hq ▸ h)

theorem IsDirectoryPlace.linkOrigin (h : t.IsDirectoryPlace here) (target : Path) :
    t.IsDirectoryPlace (linkOrigin target here) := by
  unfold FileTree.linkOrigin
  split
  · exact of_append (p := []) h
  · exact h

theorem IsDirectoryPlace.concat (h : t.IsDirectoryPlace here) (hn : n ≠ "..") {es : List (String × FileTree)}
    (he : (t.at? here).bind (·.child? n) = some (.directory es)) : t.IsDirectoryPlace (here ++ [n]) where
  dots_not_mem := by simp [h.dots_not_mem, hn.symm]
  directory := ⟨es, by rw [at?_concat, he]⟩

theorem IsDirectoryPlace.of_findFrom? {links : Nat} {todo place : List String} {es : List (String × FileTree)}
    (h : t.IsDirectoryPlace here) (hplace : t.findFrom? links here todo = some (place, .directory es)) :
    t.IsDirectoryPlace place := by
  obtain ⟨hes, hdots⟩ := at?_of_findFrom? hplace h.dots_not_mem
  exact ⟨hdots, es, hes⟩

theorem findWith_of_isDirectoryPlace {follow : List String → List String → Option (List String × FileTree)}
    (h : t.IsDirectoryPlace (here ++ p)) (q : List String) :
    t.findWith follow here (p ++ q) = t.findWith follow (here ++ p) q := by
  induction p generalizing here with
  | nil => rw [List.append_nil, List.nil_append]
  | cons n p ih =>
    have hn : n ≠ ".." := fun heq => h.dots_not_mem (by simp [heq])
    rw [List.append_cons] at h ⊢
    obtain ⟨es, hes⟩ := h.of_append.directory
    rw [at?_concat] at hes
    rw [List.cons_append, findWith, if_neg hn, hes]
    exact ih h

/-- The names of a directory's place lead to it. -/
theorem findFrom?_of_isDirectoryPlace (links : Nat) (h : t.IsDirectoryPlace (here ++ p)) (q : List String) :
    t.findFrom? links here (p ++ q) = t.findFrom? links (here ++ p) q := by
  cases links with
  | zero => exact findWith_of_isDirectoryPlace h q
  | succ links => exact findWith_of_isDirectoryPlace h q

theorem exists_findWith_of_append {follow : List String → List String → Option (List String × FileTree)}
    (hfollow : ∀ {here p found}, t.IsDirectoryPlace here → follow here (p ++ q) = some found →
      ∃ found', follow here p = some found')
    (hhere : t.IsDirectoryPlace here) {found : List String × FileTree}
    (h : t.findWith follow here (p ++ q) = some found) : ∃ found', t.findWith follow here p = some found' := by
  induction p generalizing here with
  | nil =>
    obtain ⟨es, hes⟩ := hhere.directory
    exact ⟨(here, .directory es), by rw [findWith, hes, Option.map_some]⟩
  | cons n p ih =>
    rw [List.cons_append, findWith] at h
    rw [findWith]
    by_cases hn : n = ".."
    · rw [if_pos hn] at h ⊢
      exact ih hhere.dropLast h
    · rw [if_neg hn] at h ⊢
      cases he : (t.at? here).bind (·.child? n) with
      | none => simp [he] at h
      | some e =>
        cases e with
        | directory es =>
          simp only [he] at h ⊢
          exact ih (hhere.concat hn he) h
        | file bytes =>
          simp only [he, Option.ite_none_right_eq_some, List.isEmpty_iff, List.append_eq_nil_iff] at h ⊢
          exact ⟨_, h.1.1, rfl⟩
        | link target =>
          simp only [he, ← List.append_assoc] at h ⊢
          exact hfollow (hhere.linkOrigin _) h

/-- Something is found at the beginning of every way to something. -/
theorem exists_findFrom?_of_append {links : Nat} {found : List String × FileTree} (hhere : t.IsDirectoryPlace here)
    (h : t.findFrom? links here (p ++ q) = some found) : ∃ found', t.findFrom? links here p = some found' := by
  induction links generalizing here p found with
  | zero => exact exists_findWith_of_append (fun _ hnone => by cases hnone) hhere h
  | succ links ih => exact exists_findWith_of_append ih hhere h

end

/-! ## Resolving -/

theorem resolveWith_of_findWith {t : FileTree}
    {follow : List String → List String → Option (List String × FileTree)}
    {follow' : List String → List String → Option (List String)}
    (hfollow : ∀ {here todo place e}, follow here todo = some (place, e) → follow' here todo = some place)
    {here todo place : List String} {e : FileTree} (h : t.findWith follow here todo = some (place, e)) :
    t.resolveWith follow' here todo = some place := by
  induction todo generalizing here with
  | nil =>
    rw [findWith] at h
    obtain ⟨e', -, heq⟩ := Option.map_eq_some_iff.mp h
    rw [resolveWith, (Prod.mk.inj heq).1]
  | cons n rest ih =>
    rw [findWith] at h
    rw [resolveWith]
    by_cases hn : n = ".."
    · rw [if_pos hn] at h ⊢
      exact ih h
    · rw [if_neg hn] at h ⊢
      cases he : (t.at? here).bind (·.child? n) with
      | none => simp [he] at h
      | some e' =>
        cases e' with
        | directory es =>
          simp only [he] at h ⊢
          exact ih h
        | file bytes =>
          simp only [he, Option.ite_none_right_eq_some, Option.some.injEq, Prod.mk.injEq] at h ⊢
          obtain ⟨hrest, rfl, -⟩ := h
          rw [List.isEmpty_iff.mp hrest, resolveWith]
        | link target =>
          simp only [he] at h ⊢
          exact hfollow h

theorem resolveFrom?_of_findFrom? {t : FileTree} {links : Nat} {here todo place : List String} {e : FileTree}
    (h : t.findFrom? links here todo = some (place, e)) : t.resolveFrom? links here todo = some place := by
  induction links generalizing here todo place e with
  | zero => exact resolveWith_of_findWith (fun hnone => by cases hnone) h
  | succ links ih => exact resolveWith_of_findWith ih h

/-- Resolving gives the place where something is found. -/
theorem resolve_of_find? {t : FileTree} {names place : List String} {e : FileTree}
    (h : t.find? names = some (place, e)) : t.resolve names = place := by
  rw [find?] at h
  rw [resolve, resolveFrom?_of_findFrom? h]
  rfl

theorem find?_of_holdsDirectory {t : FileTree} {names : List String} (h : t.holdsDirectory names) :
    ∃ place es, t.find? names = some (place, .directory es) := by
  obtain ⟨⟨place, e⟩, hfound, hdir⟩ := (Option.any_eq_true _ _).mp h
  cases e with
  | directory es => exact ⟨place, es, hfound⟩
  | file | link => cases hdir

theorem holds_of_holdsDirectory {t : FileTree} {names : List String} (h : t.holdsDirectory names) : t.holds names := by
  obtain ⟨place, es, hfound⟩ := find?_of_holdsDirectory h
  rw [holds, hfound]
  rfl

/-- A directory is found at the place that resolving gives. -/
theorem find?_resolve {t : FileTree} {names place : List String} {es : List (String × FileTree)}
    (h : t.find? names = some (place, .directory es)) :
    t.find? (t.resolve names) = some (place, .directory es) := by
  rw [resolve_of_find? h, find?]
  rw [find?] at h
  obtain ⟨hat, hdots⟩ := at?_of_findFrom? h List.not_mem_nil
  exact findFrom?_of_at? linkLimit hat hdots fun _ => nofun

theorem holdsDirectory_resolve {t : FileTree} {names : List String} (h : t.holdsDirectory names) :
    t.holdsDirectory (t.resolve names) := by
  obtain ⟨place, es, hfound⟩ := find?_of_holdsDirectory h
  rw [holdsDirectory, find?_resolve hfound]
  rfl

/-! ## Resolving twice -/

/-- A place with no `..` in it and no link on the way. -/
def IsSettled (t : FileTree) (names : List String) : Prop :=
  ∀ p n, p ++ [n] <+: names → n ≠ ".." ∧ ∀ target, (t.at? p).bind (·.child? n) ≠ some (.link target)

theorem isSettled_nil (t : FileTree) : t.IsSettled [] := fun p n h => by simp at h

theorem IsSettled.dots_not_mem {t : FileTree} {names : List String} (h : t.IsSettled names) : ".." ∉ names := by
  intro hmem
  obtain ⟨before, after, rfl⟩ := List.append_of_mem hmem
  rw [List.append_cons] at h
  exact (h before ".." (List.prefix_append _ _)).1 rfl

theorem IsSettled.before {t : FileTree} {p q : List String} (h : t.IsSettled q) (hp : p <+: q) :
    t.IsSettled p :=
  fun r n hr => h r n (hr.trans hp)

theorem IsSettled.concat {t : FileTree} {p : List String} {n : String} (h : t.IsSettled p) (hn : n ≠ "..")
    (hlink : ∀ target, (t.at? p).bind (·.child? n) ≠ some (.link target)) : t.IsSettled (p ++ [n]) := by
  intro q m hq
  rcases List.prefix_concat_iff.mp hq with heq | hbefore
  · obtain ⟨rfl, hm⟩ := List.append_inj' heq rfl
    obtain rfl : m = n := List.singleton_inj.mp hm
    exact ⟨hn, hlink⟩
  · exact h q m hbefore

theorem IsSettled.linkOrigin {t : FileTree} {here : List String} (h : t.IsSettled here) (target : Path) :
    t.IsSettled (linkOrigin target here) := by
  unfold FileTree.linkOrigin
  split
  · exact t.isSettled_nil
  · exact h

theorem isSettled_of_resolveWith {t : FileTree} {follow : List String → List String → Option (List String)}
    (hfollow : ∀ {here todo place}, follow here todo = some place → t.IsSettled here → t.IsSettled place)
    {here todo place : List String} (h : t.resolveWith follow here todo = some place)
    (hhere : t.IsSettled here) :
    t.IsSettled place := by
  induction todo generalizing here with
  | nil =>
    rw [resolveWith] at h
    exact Option.some.inj h ▸ hhere
  | cons n rest ih =>
    rw [resolveWith] at h
    by_cases hn : n = ".."
    · rw [if_pos hn] at h
      exact ih h (hhere.before (List.dropLast_prefix here))
    · rw [if_neg hn] at h
      split at h
      · exact hfollow h (hhere.linkOrigin _)
      · rename_i hlink
        exact ih h (hhere.concat hn hlink)

theorem isSettled_of_resolveFrom? {t : FileTree} {links : Nat} {here todo place : List String}
    (h : t.resolveFrom? links here todo = some place) (hhere : t.IsSettled here) : t.IsSettled place := by
  induction links generalizing here todo place with
  | zero => exact isSettled_of_resolveWith (fun hnone _ => by cases hnone) h hhere
  | succ links ih => exact isSettled_of_resolveWith ih h hhere

theorem resolveWith_of_isSettled {t : FileTree} (follow : List String → List String → Option (List String))
    {here todo : List String} (h : t.IsSettled (here ++ todo)) :
    t.resolveWith follow here todo = some (here ++ todo) := by
  induction todo generalizing here with
  | nil => rw [resolveWith, List.append_nil]
  | cons n rest ih =>
    have happend : here ++ n :: rest = (here ++ [n]) ++ rest := by simp
    rw [happend] at h ⊢
    obtain ⟨hn, hlink⟩ := h here n (List.prefix_append _ _)
    rw [resolveWith, if_neg hn]
    split
    · rename_i target htarget
      exact absurd htarget (hlink target)
    · exact ih h

theorem resolveFrom?_of_isSettled {t : FileTree} (links : Nat) {here todo : List String}
    (h : t.IsSettled (here ++ todo)) : t.resolveFrom? links here todo = some (here ++ todo) := by
  cases links with
  | zero => exact resolveWith_of_isSettled _ h
  | succ links => exact resolveWith_of_isSettled _ h

theorem findWith_of_isSettled {t : FileTree} (follow : List String → List String → Option (List String × FileTree))
    {here todo : List String} (h : t.IsSettled (here ++ todo)) :
    t.findWith follow here todo = (t.at? (here ++ todo)).map fun e => (here ++ todo, e) := by
  induction todo generalizing here with
  | nil => rw [findWith, List.append_nil]
  | cons n rest ih =>
    have happend : here ++ n :: rest = (here ++ [n]) ++ rest := by simp
    rw [happend] at h ⊢
    obtain ⟨hn, hlink⟩ := h here n (List.prefix_append _ _)
    rw [findWith, if_neg hn]
    cases he : (t.at? here).bind (·.child? n) with
    | none => rw [at?_append, at?_concat, he]; rfl
    | some e =>
      cases e with
      | link target => exact absurd he (hlink target)
      | directory es => exact ih h
      | file bytes =>
        rw [at?_append, at?_concat, he]
        cases rest with
        | nil => rw [List.append_nil]; rfl
        | cons m rest => rfl

/-- What is found at a settled place is what stands there. -/
theorem holds_of_isSettled {t : FileTree} {names : List String} (h : t.IsSettled names) :
    t.holds names = (t.at? names).isSome := by
  have hsettled : t.IsSettled ([] ++ names) := h
  have hfound : t.findFrom? linkLimit [] names = (t.at? names).map fun e => (names, e) :=
    findWith_of_isSettled _ hsettled
  rw [holds, find?, hfound, Option.isSome_map]

theorem resolve_of_isSettled {t : FileTree} {names : List String} (h : t.IsSettled names) :
    t.resolve names = names := by
  have hsettled : t.IsSettled ([] ++ names) := h
  rw [resolve, resolveFrom?_of_isSettled linkLimit hsettled]
  rfl

/-- Resolving a second time changes nothing. -/
theorem resolve_resolve (t : FileTree) (names : List String) :
    t.resolve (t.resolve names) = t.resolve names := by
  cases h : t.resolveFrom? linkLimit [] names with
  | none =>
    have hself : t.resolve names = names := by rw [resolve, h, Option.getD_none]
    rw [hself, hself]
  | some place =>
    have hplace : t.resolve names = place := by rw [resolve, h, Option.getD_some]
    rw [hplace, resolve_of_isSettled (isSettled_of_resolveFrom? h t.isSettled_nil)]

/-! ## Along a way -/

section

variable {t : FileTree} {names rest here : List String} {es : List (String × FileTree)}

theorem holds_of_find? {found : List String × FileTree} (h : t.find? names = some found) : t.holds names := by
  rw [holds, h]
  rfl

theorem not_holdsDirectory_iff : ¬ t.holdsDirectory names ↔ ∀ place es, t.find? names ≠ some (place, .directory es) := by
  constructor
  · intro hnot place es hfound
    refine hnot ?_
    rw [holdsDirectory, hfound]
    rfl
  · intro hnot hdirectory
    obtain ⟨place, es, hfound⟩ := find?_of_holdsDirectory hdirectory
    exact hnot place es hfound

/-- What stands above something is a directory. -/
theorem find?_of_holds_append (hrest : rest ≠ []) (hdots : ".." ∉ rest) (h : t.holds (names ++ rest)) :
    ∃ place es, t.find? names = some (place, .directory es) := by
  obtain ⟨found, hfound⟩ := Option.isSome_iff_exists.mp h
  rw [find?] at hfound ⊢
  exact findFrom?_append t linkLimit hrest hdots hfound

theorem holds_of_holds_append (hdots : ".." ∉ rest) (h : t.holds (names ++ rest)) : t.holds names := by
  rcases eq_or_ne rest [] with rfl | hrest
  · rwa [List.append_nil] at h
  · obtain ⟨place, es, hplace⟩ := find?_of_holds_append hrest hdots h
    exact holds_of_find? hplace

/-- From a directory the last name leads where the whole way does. -/
theorem findFrom?_eq_of_find? (hhere : t.find? names = some (here, .directory es)) {found : List String × FileTree}
    (h : t.find? (names ++ rest) = some found) : t.findFrom? linkLimit here rest = some found := by
  rw [find?] at hhere h
  exact findFrom?_below (Nat.le_refl _) hhere h

theorem at?_of_find? {e : FileTree} (h : t.find? names = some (here, e)) : t.at? here = some e ∧ ".." ∉ here := by
  rw [find?] at h
  exact at?_of_findFrom? h List.not_mem_nil

end

/-! ## Resolving in two trees -/

theorem resolveWith_congr {t t' : FileTree}
    (hlinks : ∀ p target, t.at? p = some (.link target) ↔ t'.at? p = some (.link target))
    (follow : List String → List String → Option (List String)) (here todo : List String) :
    t.resolveWith follow here todo = t'.resolveWith follow here todo := by
  induction todo generalizing here with
  | nil => rfl
  | cons n rest ih =>
    rw [resolveWith, resolveWith]
    by_cases hn : n = ".."
    · rw [if_pos hn, if_pos hn, ih]
    · rw [if_neg hn, if_neg hn, ← at?_concat, ← at?_concat]
      split
      · rename_i target htarget
        rw [(hlinks _ target).mp htarget]
      · rename_i hlink
        split
        · rename_i target htarget
          exact absurd ((hlinks _ target).mpr htarget) (hlink target)
        · exact ih _

theorem resolveFrom?_congr {t t' : FileTree}
    (hlinks : ∀ p target, t.at? p = some (.link target) ↔ t'.at? p = some (.link target)) (links : Nat) :
    t.resolveFrom? links = t'.resolveFrom? links := by
  induction links with
  | zero => exact funext₂ (resolveWith_congr hlinks _)
  | succ links ih =>
    rw [resolveFrom?, resolveFrom?, ih]
    exact funext₂ (resolveWith_congr hlinks _)

/-- Trees with the same links resolve places alike. -/
theorem resolve_congr {t t' : FileTree}
    (hlinks : ∀ p target, t.at? p = some (.link target) ↔ t'.at? p = some (.link target)) (names : List String) :
    t.resolve names = t'.resolve names := by
  rw [resolve, resolve, resolveFrom?_congr hlinks]

end RepoOrbit.FileTree
