import Mathlib.Data.List.Find
import RepoOrbit.Imports.Specifier
import RepoOrbit.Proofs.Lists
import RepoOrbit.Proofs.Rounds

/-!
# What a syntax tree names

A node names a string (`SyntaxTree.Names`): an import or export statement its source, a call of
`import` its first argument. The specifiers of a tree are the names of all its nodes, however deep
(`mem_specifiers_iff`).

The worklist is gone through one tree a round (`Walk.next`). What has been found, together with the
specifiers of the trees on the worklist, are always the specifiers of the whole tree, each as often
(`Walk.Accounts`), and every node is on the worklist once, so that there are as many rounds as nodes
(`loopEnds_collectFrom`). In which order the children of a node stand is of no account, except for
which argument is the first (`Rearranged`).

* `collectSpecifiers_exact`: the worklist gives the specifiers of the tree.
-/

namespace RepoOrbit

namespace SyntaxTree

/-! ## Nodes and what they name -/

/-- A node of a tree: the tree itself, or a node of one of its children. -/
inductive IsNodeOf (u : SyntaxTree) : SyntaxTree → Prop
  | root : IsNodeOf u u
  | under {t c : SyntaxTree} : c ∈ t.children → IsNodeOf u c → IsNodeOf u t

/-- A string that a node names: the source of an import or export statement, or the first named child
of the arguments of a call of `import`. -/
inductive Names (u s : SyntaxTree) : Prop
  | source : u.kind = "import_statement" ∨ u.kind = "export_statement" → u.childLabelled? "source" = some s →
      s.kind = "string" → Names u s
  | argument {f args : SyntaxTree} : u.kind = "call_expression" → u.childLabelled? "function" = some f →
      f.kind = "import" → u.childLabelled? "arguments" = some args → args.firstNamed? = some s →
      s.kind = "string" → Names u s

theorem label_of_childLabelled? {t c : SyntaxTree} {part : String} (h : t.childLabelled? part = some c) :
    c.label = some part := by
  have hpart := List.find?_some h
  exact eq_of_beq hpart

theorem ownSpecifier?_eq_some_iff {source : Array Char} {t : SyntaxTree} {name : String} :
    t.ownSpecifier? source = some name ↔ ∃ s, t.Names s ∧ s.quotedText source = name := by
  constructor
  · intro h
    unfold ownSpecifier? at h
    split at h
    · rename_i hkind
      split at h
      · rename_i s hs
        obtain ⟨hstring, htext⟩ := Option.ite_none_right_eq_some.mp h
        exact ⟨s, .source hkind hs hstring, Option.some.inj htext⟩
      · cases h
    · obtain ⟨hkind, h⟩ := Option.ite_none_right_eq_some.mp h
      split at h
      · rename_i f args hf hargs
        obtain ⟨himport, h⟩ := Option.ite_none_right_eq_some.mp h
        split at h
        · rename_i s hs
          obtain ⟨hstring, htext⟩ := Option.ite_none_right_eq_some.mp h
          exact ⟨s, .argument hkind hf himport hargs hs hstring, Option.some.inj htext⟩
        · cases h
      · cases h
  · rintro ⟨s, hnames, rfl⟩
    cases hnames with
    | source hkind hs hstring =>
      rw [ownSpecifier?, if_pos hkind, hs]
      exact if_pos hstring
    | argument hkind hf himport hargs hs hstring =>
      have hother : ¬ (t.kind = "import_statement" ∨ t.kind = "export_statement") := by
        rw [hkind]
        decide
      rw [ownSpecifier?, if_neg hother, if_pos hkind, hf, hargs]
      dsimp only
      rw [if_pos himport, hs]
      exact if_pos hstring

/-! ## The specifiers of a tree, by its nodes -/

theorem induction_on_children {motive : SyntaxTree → Prop} (node : ∀ t, (∀ c ∈ t.children, motive c) → motive t) :
    ∀ t, motive t
  | .node l k n s e cs => node _ fun c (_ : c ∈ cs) => induction_on_children node c

theorem specifiersOfAll_eq (source : Array Char) (ts : List SyntaxTree) :
    specifiersOfAll source ts = ts.flatMap (specifiers source) := by
  induction ts with
  | nil => rfl
  | cons t ts ih => rw [specifiersOfAll, ih, List.flatMap_cons]

theorem specifiers_eq (source : Array Char) (t : SyntaxTree) :
    t.specifiers source = (t.ownSpecifier? source).toList ++ t.children.flatMap (specifiers source) := by
  cases t with
  | node l k n s e cs => rw [specifiers, specifiersOfAll_eq, children]

/-- The specifiers of a tree are what its nodes name. -/
theorem mem_specifiers_iff {source : Array Char} {t : SyntaxTree} {name : String} :
    name ∈ t.specifiers source ↔ ∃ u, IsNodeOf u t ∧ u.ownSpecifier? source = some name := by
  induction t using induction_on_children with
  | node t ih =>
    rw [specifiers_eq, List.mem_append, Option.mem_toList, List.mem_flatMap]
    constructor
    · rintro (hown | ⟨c, hc, hname⟩)
      · exact ⟨t, .root, hown⟩
      · obtain ⟨u, hu, hown⟩ := (ih c hc).mp hname
        exact ⟨u, .under hc hu, hown⟩
    · rintro ⟨u, hu, hown⟩
      cases hu with
      | root => exact .inl hown
      | under hc hu => exact .inr ⟨_, hc, (ih _ hc).mpr ⟨u, hu, hown⟩⟩

/-! ## Going through a tree -/

/-- A walk through a tree: the trees still to be visited, the next one first, and what has been found. -/
structure Walk where
  work : List SyntaxTree
  found : List String

namespace Walk

/-- There is a tree to visit. -/
def HasWork (w : Walk) : Prop := w.work ≠ []

/-- One round: the next tree is visited, and its children are put before the trees behind it, the
last child first. -/
def next (source : Array Char) (w : Walk) : Walk :=
  match w.work with
  | [] => w
  | t :: rest => ⟨t.children.reverse ++ rest, (t.ownSpecifier? source).toList ++ w.found⟩

/-- What has been found, and what the trees still to be visited name, are the specifiers of a tree. -/
def Accounts (source : Array Char) (t : SyntaxTree) (w : Walk) : Prop :=
  (w.found ++ specifiersOfAll source w.work).Perm (t.specifiers source)

theorem Accounts.next {source : Array Char} {t : SyntaxTree} {w : Walk} (hwork : w.HasWork)
    (h : w.Accounts source t) : (w.next source).Accounts source t := by
  obtain ⟨work, found⟩ := w
  obtain ⟨u, rest, rfl⟩ := List.exists_cons_of_ne_nil hwork
  refine List.Perm.trans ?_ h
  have hchildren := u.children.reverse_perm.flatMap_right (specifiers source)
  simp only [Walk.next, specifiersOfAll_eq, List.flatMap_append, List.flatMap_cons, specifiers_eq source u]
  -- Both sides are made of the same pieces, the children taken the other way round.
  refine List.perm_iff_count.mpr fun name => ?_
  simp only [List.count_append, hchildren.count_eq]
  omega

end Walk

/-- Every tree on the worklist takes as many rounds as it has nodes. -/
theorem loopEnds_collectFrom (source : Array Char) (work : List SyntaxTree) (found : List String) :
    LoopEnds Walk.HasWork (Walk.next source) (sizeOfAll work) ⟨work, found⟩ ⟨[], collectFrom source work found⟩ := by
  induction work, found using collectFrom.induct source with
  | case1 found =>
    rw [collectFrom]
    exact .stop fun hwork => hwork rfl
  | case2 found t rest ih =>
    have hsize : sizeOfAll (t :: rest) = sizeOfAll (t.children.reverse ++ rest) + 1 := by
      cases t with
      | node l k n s e cs =>
        rw [sizeOfAll, size, sizeOfAll_append, sizeOfAll_reverse, children]
        omega
    rw [collectFrom, hsize]
    exact .round (List.cons_ne_nil t rest) ih

theorem loopEnds_collectSpecifiers (source : Array Char) (t : SyntaxTree) :
    LoopEnds Walk.HasWork (Walk.next source) t.size ⟨[t], []⟩ ⟨[], t.collectSpecifiers source⟩ :=
  loopEnds_collectFrom source [t] []

theorem collectSpecifiers_perm (source : Array Char) (t : SyntaxTree) :
    (t.collectSpecifiers source).Perm (t.specifiers source) := by
  have hstart : Walk.Accounts source t ⟨[t], []⟩ := by
    rw [Walk.Accounts, specifiersOfAll, specifiersOfAll, List.append_nil, List.nil_append]
  have hend := (loopEnds_collectSpecifiers source t).keeps (Walk.Accounts source t) (fun _ => .next) hstart
  rwa [Walk.Accounts, specifiersOfAll, List.append_nil] at hend

/-! ## The order of children -/

/-- The parts that are looked for among the children of a node. -/
def partsRead (kind : String) : List String :=
  if kind = "import_statement" ∨ kind = "export_statement" then ["source"]
  else if kind = "call_expression" then ["function", "arguments"]
  else []

/-- Each part that is looked for is played by one child at most. -/
def PlayedOnce (kind : String) (children : List SyntaxTree) : Prop :=
  ∀ part ∈ partsRead kind, ∀ c ∈ children, ∀ c' ∈ children, c.label = some part → c'.label = some part → c = c'

/-- The same tree, the children of its nodes in other orders. Of arguments the first one stays the
first. A statement is to have one source, and a call one function and one list of arguments. -/
inductive Rearranged : SyntaxTree → SyntaxTree → Prop
  | refl (t : SyntaxTree) : Rearranged t t
  | trans {t u v : SyntaxTree} : Rearranged t u → Rearranged u v → Rearranged t v
  | order {l : Option String} {k : String} {n : Bool} {s e : Nat} {cs cs' : List SyntaxTree} : cs.Perm cs' →
      PlayedOnce k cs → (l = some "arguments" → cs.find? (·.named) = cs'.find? (·.named)) →
      Rearranged (.node l k n s e cs) (.node l k n s e cs')
  | child {l : Option String} {k : String} {n : Bool} {s e : Nat} {before after : List SyntaxTree}
      {c c' : SyntaxTree} : Rearranged c c' →
      Rearranged (.node l k n s e (before ++ c :: after)) (.node l k n s e (before ++ c' :: after))

/-- What a node is without its children. -/
def face (t : SyntaxTree) : Option String × String × Bool × Nat × Nat :=
  (t.label, t.kind, t.named, t.start, t.stop)

/-- How a child of a node is looked for. -/
inductive Reads (t : SyntaxTree) : (SyntaxTree → Bool) → Prop
  | part {part : String} : part ∈ partsRead t.kind → Reads t (·.label == some part)
  | argument : t.label = some "arguments" → Reads t (·.named)

namespace Rearranged

variable {t t' : SyntaxTree}

theorem symm (h : t.Rearranged t') : t'.Rearranged t := by
  induction h with
  | refl t => exact .refl t
  | trans _ _ ih ih' => exact ih'.trans ih
  | order hperm honce hfirst =>
    have honce' : PlayedOnce _ _ := fun part hpart c hc c' hc' =>
      honce part hpart c (hperm.mem_iff.mpr hc) c' (hperm.mem_iff.mpr hc')
    exact .order hperm.symm honce' fun hl => (hfirst hl).symm
  | child _ ih => exact .child ih

theorem face_eq (h : t.Rearranged t') : t.face = t'.face := by
  induction h with
  | refl => rfl
  | trans _ _ ih ih' => exact ih.trans ih'
  | order => rfl
  | child => rfl

theorem label_eq (h : t.Rearranged t') : t.label = t'.label := congrArg (·.1) h.face_eq

theorem kind_eq (h : t.Rearranged t') : t.kind = t'.kind := congrArg (·.2.1) h.face_eq

theorem named_eq (h : t.Rearranged t') : t.named = t'.named := congrArg (·.2.2.1) h.face_eq

theorem quotedText_eq (h : t.Rearranged t') (source : Array Char) : t.quotedText source = t'.quotedText source := by
  have hstart : t.start = t'.start := congrArg (·.2.2.2.1) h.face_eq
  have hstop : t.stop = t'.stop := congrArg (·.2.2.2.2) h.face_eq
  rw [quotedText, quotedText, hstart, hstop]

variable {p : SyntaxTree → Bool}

theorem reads (h : t.Rearranged t') (hp : t.Reads p) : t'.Reads p := by
  cases hp with
  | part hpart => exact .part (h.kind_eq ▸ hpart)
  | argument hlabel => exact .argument (h.label_eq ▸ hlabel)

theorem apply_eq {u : SyntaxTree} (h : t.Rearranged t') (hp : u.Reads p) : p t = p t' := by
  cases hp with
  | part => exact congrArg (· == _) h.label_eq
  | argument => exact h.named_eq

/-- What is looked for is found again, and is the same up to the order of its own children. -/
theorem exists_find? (h : t.Rearranged t') (hp : t.Reads p) {s : SyntaxTree} (hs : t.children.find? p = some s) :
    ∃ s', t'.children.find? p = some s' ∧ s.Rearranged s' := by
  induction h generalizing s with
  | refl => exact ⟨s, hs, .refl s⟩
  | trans h _ ih ih' =>
    obtain ⟨s₁, hs₁, hrel⟩ := ih hp hs
    obtain ⟨s₂, hs₂, hrel'⟩ := ih' (h.reads hp) hs₁
    exact ⟨s₂, hs₂, hrel.trans hrel'⟩
  | order hperm honce hfirst =>
    refine ⟨s, hs ▸ ?_, .refl s⟩
    cases hp with
    | part hpart =>
      refine (List.find?_eq_find?_of_perm hperm fun c hc c' hc' => ?_).symm
      exact honce _ hpart c hc.1 c' hc'.1 (eq_of_beq hc.2) (eq_of_beq hc'.2)
    | argument hlabel => exact (hfirst hlabel).symm
  | child h _ =>
    rcases find?_append_cons_of_eq (h.apply_eq hp) hs with hs' | ⟨rfl, hs'⟩
    · exact ⟨s, hs', .refl s⟩
    · exact ⟨_, hs', h⟩

theorem exists_names (h : t.Rearranged t') {s : SyntaxTree} (hs : t.Names s) : ∃ s', t'.Names s' ∧ s.Rearranged s' := by
  cases hs with
  | source hkind hsource hstring =>
    have hread : "source" ∈ partsRead t.kind := by
      rw [partsRead, if_pos hkind]
      exact List.mem_singleton_self _
    obtain ⟨s', hs', hrel⟩ := h.exists_find? (.part hread) hsource
    exact ⟨s', .source (h.kind_eq ▸ hkind) hs' (hrel.kind_eq ▸ hstring), hrel⟩
  | argument hkind hf himport hargs hfirst hstring =>
    have hread : ∀ part ∈ ["function", "arguments"], part ∈ partsRead t.kind := by
      rw [hkind]
      exact fun _ hpart => hpart
    obtain ⟨f', hf', hrelf⟩ := h.exists_find? (.part (hread "function" (by simp))) hf
    obtain ⟨args', hargs', hrelargs⟩ := h.exists_find? (.part (hread "arguments" (by simp))) hargs
    obtain ⟨s', hs', hrel⟩ := hrelargs.exists_find? (.argument (label_of_childLabelled? hargs)) hfirst
    exact ⟨s', .argument (h.kind_eq ▸ hkind) hf' (hrelf.kind_eq ▸ himport) hargs' hs' (hrel.kind_eq ▸ hstring), hrel⟩

theorem ownSpecifier?_eq_some (h : t.Rearranged t') {source : Array Char} {name : String}
    (hname : t.ownSpecifier? source = some name) : t'.ownSpecifier? source = some name := by
  obtain ⟨s, hs, rfl⟩ := ownSpecifier?_eq_some_iff.mp hname
  obtain ⟨s', hs', hrel⟩ := h.exists_names hs
  exact ownSpecifier?_eq_some_iff.mpr ⟨s', hs', (hrel.quotedText_eq source).symm⟩

theorem ownSpecifier?_eq (h : t.Rearranged t') (source : Array Char) :
    t.ownSpecifier? source = t'.ownSpecifier? source :=
  Option.ext fun _ => ⟨h.ownSpecifier?_eq_some, h.symm.ownSpecifier?_eq_some⟩

theorem specifiers_perm (h : t.Rearranged t') (source : Array Char) :
    (t.specifiers source).Perm (t'.specifiers source) := by
  induction h with
  | refl => exact .refl _
  | trans _ _ ih ih' => exact ih.trans ih'
  | order hperm honce hfirst =>
    rw [specifiers_eq, specifiers_eq, (order hperm honce hfirst).ownSpecifier?_eq source]
    exact (hperm.flatMap_right _).append_left _
  | child h ih =>
    -- What the node itself names may lie in the child that is rearranged.
    rw [specifiers_eq, specifiers_eq, (child h).ownSpecifier?_eq source]
    simp only [children, List.flatMap_append, List.flatMap_cons]
    exact ((ih.append_right _).append_left _).append_left _

end Rearranged

/-- The worklist is empty after as many rounds as the tree has nodes. What has been found then are
the specifiers of the tree, as the recursion on the tree gives them: what each of its nodes names,
in whichever order the children of its nodes stand. -/
theorem collectSpecifiers_exact (source : Array Char) (t : SyntaxTree) :
    LoopEnds Walk.HasWork (Walk.next source) t.size ⟨[t], []⟩ ⟨[], t.collectSpecifiers source⟩ ∧
      (t.collectSpecifiers source).Perm (t.specifiers source) ∧
      (∀ name, name ∈ t.collectSpecifiers source ↔
        ∃ u s : SyntaxTree, u.IsNodeOf t ∧ u.Names s ∧ s.quotedText source = name) ∧
      (∀ t', t.Rearranged t' → (t'.collectSpecifiers source).Perm (t.collectSpecifiers source)) ∧
      ∀ (g : ScriptGrammar) (text : String), g.language.tree? text.toList = some t → text.toList.toArray = source →
        (SpecifierStrategy.tree g).extract text = .ok (t.collectSpecifiers source) := by
  have hperm := collectSpecifiers_perm source
  refine ⟨loopEnds_collectSpecifiers source t, hperm t, fun name => ?_, fun t' h => ?_, fun g text htree hsource => ?_⟩
  · rw [(hperm t).mem_iff, mem_specifiers_iff]
    simp only [ownSpecifier?_eq_some_iff]
    constructor
    · rintro ⟨u, hu, s, hs, hname⟩
      exact ⟨u, s, hu, hs, hname⟩
    · rintro ⟨u, s, hu, hs, hname⟩
      exact ⟨u, hu, s, hs, hname⟩
  · exact (hperm t').trans ((h.specifiers_perm source).symm.trans (hperm t).symm)
  · rw [SpecifierStrategy.extract, htree, ← hsource]

/-! ## A call among the arguments of another one -/

def plainString (start stop : Nat) : SyntaxTree := .node none "string" true start stop []

def argumentList (start stop : Nat) (arguments : List SyntaxTree) : SyntaxTree :=
  .node (some "arguments") "arguments" true start stop arguments

def importWord (start : Nat) : SyntaxTree := .node (some "function") "import" true start (start + 6) []

def importCall (start stop : Nat) (parts : List SyntaxTree) : SyntaxTree :=
  .node none "call_expression" true start stop parts

def nestedText : Array Char := "import('./a',import('./b'))".toList.toArray

def nestedArguments : SyntaxTree :=
  argumentList 6 27 [plainString 7 12, importCall 13 26 [importWord 13, argumentList 19 26 [plainString 20 25]]]

def nestedCall : SyntaxTree := importCall 0 27 [importWord 0, nestedArguments]

def turnedCall : SyntaxTree := importCall 0 27 [nestedArguments, importWord 0]

/-- With its arguments before its function the call still names both files. -/
theorem collectSpecifiers_exact_nestedCall :
    nestedCall.Rearranged turnedCall ∧ (turnedCall.collectSpecifiers nestedText).Perm ["./a", "./b"] := by
  have hturned : nestedCall.Rearranged turnedCall := by
    refine .order (List.Perm.swap _ _ _) ?_ nofun
    simp [PlayedOnce, partsRead, importWord, nestedArguments, argumentList, label]
  obtain ⟨-, hperm, -, hrearranged, -⟩ := collectSpecifiers_exact nestedText nestedCall
  have hspecifiers : nestedCall.specifiers nestedText = ["./a", "./b"] := by decide
  exact ⟨hturned, hspecifiers ▸ (hrearranged turnedCall hturned).trans hperm⟩

/-- With the inner call as its first argument the outer one names nothing. -/
example :
    (importCall 0 27 [importWord 0, argumentList 6 27 nestedArguments.children.reverse]).specifiers nestedText =
      ["./b"] := by
  decide

end SyntaxTree

end RepoOrbit
