/-!
# Similar texts

Two texts are compared by the characters that they share in order: the longest
run that stands in both, then what stands on its left in both, and on its right
(`sharedCount`). Texts of which three in five characters are shared are similar,
and `closest` lists those most similar to a text.
-/

namespace RepoOrbit.Text

/-- The length of the beginning that two texts share. -/
def sharedBeginning : List Char → List Char → Nat
  | a :: as, b :: bs => if a = b then sharedBeginning as bs + 1 else 0
  | _, _ => 0

/-- A run that stands in two texts: where it begins in each, and its length. -/
structure SharedRun where
  left : Nat
  right : Nat
  length : Nat
  deriving DecidableEq, Repr

/-- The longest run in two texts; the first of them in the first text, and then in
the second. -/
def longestShared (a b : List Char) : SharedRun :=
  let starts := (List.range a.length).flatMap fun i => (List.range b.length).map fun j => (i, j)
  starts.foldl (fun best (i, j) =>
    let length := sharedBeginning (a.drop i) (b.drop j)
    if best.length < length then ⟨i, j, length⟩ else best) ⟨0, 0, 0⟩

/-- The number of characters that two texts share in order, in runs of which at
most `runs` stand one inside the other. -/
def sharedCountFrom : Nat → List Char → List Char → Nat
  | 0, _, _ => 0
  | runs + 1, a, b =>
    let run := longestShared a b
    if run.length = 0 then 0
    else
      run.length + sharedCountFrom runs (a.take run.left) (b.take run.right) +
        sharedCountFrom runs (a.drop (run.left + run.length)) (b.drop (run.right + run.length))

/-- The number of characters that two texts share in order. -/
def sharedCount (a b : List Char) : Nat := sharedCountFrom a.length a b

/-- How similar a text is to another: the shared characters, and the length of
both. -/
structure Likeness where
  text : String
  shared : Nat
  total : Nat
  deriving Repr

/-- How similar two texts are. -/
def likeness (word text : String) : Likeness :=
  ⟨text, sharedCount text.toList word.toList, text.length + word.length⟩

/-- Whether three in five characters are shared. -/
def Likeness.isClose (l : Likeness) : Bool := 3 * l.total ≤ 10 * l.shared

/-- Whether one text is at least as similar as another; of two that are equally
similar the later in the order of texts comes first. -/
def Likeness.before (a b : Likeness) : Bool :=
  b.shared * a.total < a.shared * b.total ||
    (b.shared * a.total == a.shared * b.total && decide (b.text ≤ a.text))

/-- How many similar texts are listed. -/
def listedCount : Nat := 3

/-- The texts most similar to a word, in their own order. -/
def closest (word : String) (texts : List String) : List String :=
  let close := (texts.map (likeness word)).filter Likeness.isClose
  let best := (close.mergeSort Likeness.before).take listedCount
  (best.map (·.text)).mergeSort fun a b => decide (a ≤ b)

end RepoOrbit.Text
