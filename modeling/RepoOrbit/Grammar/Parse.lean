import RepoOrbit.Grammar.Stack
import RepoOrbit.Grammar.Token

/-!
# Parsing side by side

`Language.derive?` reads a whole text and gives its derivation, or nothing when
no reading of the text ends without an error.

Where the automaton leaves several actions open, each is followed in a parse of
its own (`Branch`). The branches move through the text together. Two that come
to one state at one place are joined, one that is stuck is dropped, and of too
many the last are dropped. When a production can be taken in two ways from the
same stack, the way with the higher score is kept.
-/

namespace RepoOrbit.Grammar

/-- A parse in progress and the text before it. -/
structure Branch where
  stack : Stack
  rest : List Char

/-- The branches at work, with what they share. -/
structure Parsing where
  automaton : Automaton
  /-- The next number for a stack. -/
  fresh : Nat
  /-- The branches; a place is empty once its branch is stuck or done. -/
  branches : Array (Option Branch)
  /-- The best whole derivation so far: its phrases, extras included. -/
  finished : Option (List Derivation × Int)

namespace Language

variable (l : Language)

/-- The most branches followed at once. -/
def maxBranches : Nat := 6

/-- Split off the extras at the end of a list of phrases. -/
def splitExtras (es : List Entry) : List Entry × List Entry :=
  let back := es.reverse
  ((back.dropWhile (·.extra)).reverse, (back.takeWhile (·.extra)).reverse)

/-- The phrase that production `p` makes of the phrases. -/
def makePhrase (production : Nat) (score : Int) (es : List Entry) (position : Nat) : Entry where
  phrase := .node production
    ((es.head?.map (·.phrase.start)).getD position)
    ((es.getLast?.map (·.phrase.stop)).getD position)
    (es.map (·.phrase))
  extra := false
  score := es.foldl (fun n e => n + e.score) score

/-- Of the ways to take a production off, keep for each remaining stack the one
with the highest score. -/
def bestWays (ways : List (Entry × List Entry × Stack)) : List (Entry × List Entry × Stack) :=
  ways.foldl
    (fun kept w =>
      if kept.any (fun k => k.2.2.id == w.2.2.id) then
        kept.map fun k => if k.2.2.id == w.2.2.id && w.1.score > k.1.score then w else k
      else kept ++ [w])
    []

/-- Join a stack to a branch other than `self` that stands where it stands, or
make it a branch of its own. -/
def settleBranch (s : Parsing) (self : Nat) (b : Branch) : Parsing × Bool :=
  let twin := s.branches.toList.zipIdx.find? fun (o, i) => i != self && (match o with
    | none => false
    | some o => o.stack.state == b.stack.state && o.stack.position == b.stack.position)
  match twin with
  | some (_, i) =>
    ({ s with branches := s.branches.modify i fun o => o.map fun o => { o with stack := o.stack.merge b.stack } },
      false)
  | none => ({ s with branches := s.branches.push (some b) }, true)

/-- Put the phrase a production makes on each stack left below it. Gives the
number of the first branch this made. -/
def reduceBranch (s : Parsing) (self : Nat) (b : Branch) (production : Nat) : Parsing × Option Nat :=
  match l.productions[production]? with
  | none => (s, none)
  | some p =>
    let ways := (b.stack.pops p.places.size).map fun (es, below) =>
      let (own, extras) := splitExtras es
      (makePhrase production p.score own b.stack.position, extras, below)
    let before := s.branches.size
    let s := (bestWays ways).foldl
      (fun (s : Parsing) (e, extras, below) =>
        let ⟨automaton, fresh, branches, finished⟩ := s
        let (target, automaton) := automaton.move l below.state p.made
        let s : Parsing := ⟨automaton, fresh, branches, finished⟩
        match target with
        | none => s
        | some target =>
          let top := below.push s.fresh target e.phrase.stop e
          let (top, fresh) := extras.foldl
            (fun (st, n) x => (Stack.push st n target x.phrase.stop x, n + 1)) (top, s.fresh + 1)
          (settleBranch { s with fresh := fresh } self { b with stack := top }).1)
      s
    (s, if s.branches.size > before then some before else none)

/-- Take the token on the branch. -/
def shiftBranch (s : Parsing) (self : Nat) (b : Branch) (t : Token) (target : Nat) (extra : Bool) : Parsing :=
  let e : Entry := ⟨.leaf t.symbol t.start t.stop, extra, 0⟩
  { s with
    branches := s.branches.setIfInBounds self (some ⟨b.stack.push s.fresh target t.stop e, t.rest⟩)
    fresh := s.fresh + 1 }

/-- The phrases of a whole stack, along its first way down. -/
def phrasesOf : Nat → Stack → List Derivation → List Derivation
  | 0, _, out => out
  | fuel + 1, s, out =>
    match s.links with
    | [] => out
    | (e, below) :: _ => phrasesOf fuel below (e.phrase :: out)

/-- Keep a whole derivation if it is the best so far, and end the branch. -/
def acceptBranch (s : Parsing) (self : Nat) (b : Branch) : Parsing :=
  let whole := phrasesOf (b.stack.height + 1) b.stack []
  let better := match s.finished with
    | none => true
    | some (_, score) => b.stack.score > score
  { s with
    branches := s.branches.setIfInBounds self none
    finished := if better then some (whole, b.stack.score) else s.finished }

/-- Act on a token until the branch has taken it or is gone. Reductions that
end in branches of their own read their token anew. -/
def act (self : Nat) : Nat → Parsing → Branch → Token → Parsing
  | 0, s, _, _ => { s with branches := s.branches.setIfInBounds self none }
  | fuel + 1, s, b, t =>
    let ⟨automaton, fresh, branches, finished⟩ := s
    let (acts, automaton) := automaton.actionsOn l b.stack.state t.symbol
    let s : Parsing := ⟨automaton, fresh, branches, finished⟩
    let reductions := acts.filterMap fun | .reduce p => some p | _ => none
    let (s, last) := reductions.foldl
      (fun (acc : Parsing × Option Nat) p =>
        let (s, made) := reduceBranch l acc.1 self b p
        (s, made <|> acc.2))
      (s, none)
    match acts.getLast? with
    | some (.shift target) => shiftBranch s self b t target false
    | some .skip => shiftBranch s self b t b.stack.state true
    | some .accept => acceptBranch s self b
    | some (.reduce _) =>
      match last with
      | none => { s with branches := s.branches.setIfInBounds self none }
      | some i =>
        match s.branches.getD i none with
        | none => { s with branches := s.branches.setIfInBounds self none }
        | some b' =>
          act self fuel
            { s with branches := (s.branches.setIfInBounds self (some b')).eraseIdxIfInBounds i } b' t
    | none =>
      let reserved := ((s.automaton.states[b.stack.state]?).map (·.reserved)).getD .empty
      if t.keyword && !(reserved.contains t.symbol) then
        act self fuel s b { t with symbol := l.word, keyword := false }
      else { s with branches := s.branches.setIfInBounds self none }

/-- Move one branch on until it passes `reached`; the first branch has to get
beyond it, the others only as far. -/
def advance (self : Nat) : Nat → Nat → Parsing → Parsing × Nat
  | 0, reached, s => ({ s with branches := s.branches.setIfInBounds self none }, reached)
  | fuel + 1, reached, s =>
    match s.branches.getD self none with
    | none => (s, reached)
    | some b =>
      let state := (s.automaton.states[b.stack.state]?).getD ⟨#[], .empty, .empty⟩
      match l.nextToken state b.stack.position b.rest with
      | none => ({ s with branches := s.branches.setIfInBounds self none }, reached)
      | some t =>
        let s := act l self fuel s b t
        match s.branches.getD self none with
        | none => (s, reached)
        | some b =>
          if b.stack.position > reached || (self > 0 && b.stack.position == reached) then
            (s, b.stack.position)
          else advance self fuel reached s

/-- Move all branches on, those made on the way included. -/
def advanceAll : Nat → Nat → Nat → Parsing → Parsing × Nat
  | 0, _, reached, s => (s, reached)
  | fuel + 1, i, reached, s =>
    if i < s.branches.size then
      let (s, reached) := advance l i fuel reached s
      advanceAll fuel (i + 1) reached s
    else (s, reached)

/-- Add a branch to those kept: join it to one that stands where it stands, or
place it before those of lower score. -/
def keepBranch (kept : List Branch) (b : Branch) : List Branch :=
  if kept.any (fun k => k.stack.state == b.stack.state && k.stack.position == b.stack.position) then
    kept.map fun k =>
      if k.stack.state == b.stack.state && k.stack.position == b.stack.position then
        { k with stack := k.stack.merge b.stack }
      else k
  else
    kept.takeWhile (fun k => k.stack.score ≥ b.stack.score) ++
      b :: kept.dropWhile (fun k => k.stack.score ≥ b.stack.score)

/-- Drop what is stuck, join what stands together, and keep the best few. -/
def condense (s : Parsing) : Parsing :=
  let live := s.branches.toList.filterMap (fun b => b)
  let kept := (live.foldl keepBranch []).take maxBranches
  { s with branches := (kept.map some).toArray }

/-- Go through the text until no branch is left. -/
def run : Nat → Nat → Parsing → Option (List Derivation)
  | 0, _, _ => none
  | fuel + 1, reached, s =>
    let (s, reached) := advanceAll l fuel 0 reached s
    let s := condense s
    if s.branches.isEmpty then s.finished.map (·.1)
    else run fuel reached s

/-- The derivation of a text: the phrase of the start symbol and the extras
around it, or nothing if the text has an error. -/
def derive? (text : List Char) : Option (List Derivation) :=
  let fuel := 1000 * (text.length + 16)
  let first : Branch := ⟨.node 1 0 0 0 0 [], text⟩
  l.run fuel 0 ⟨l.automaton, 2, #[some first], none⟩

end Language

end RepoOrbit.Grammar
