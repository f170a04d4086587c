import RepoOrbit.Grammar.Rule

/-!
# Productions

A rule with its choices taken is a list of steps (`Step`), each a mention of a
token or of another rule together with the rank it carries. `flatten` lists all
the ways to take the choices, `hoistRepeats` names the repetitions first, and
`Inliner.steps` puts the body of an inlined rule where it is mentioned.

The rank of a step is that of the innermost ranked rule around it, except that
the last step of a ranked rule that does not end the whole carries the rank
around that rule: what follows it is then judged from outside.
-/

namespace RepoOrbit.Grammar

/-- What a step takes: a text, or whatever the name stands for. -/
inductive Mention where
  | text (literal : String)
  | ref (name : String)
  deriving DecidableEq, Repr, Hashable

/-- One place of a production. -/
structure Step where
  mention : Mention
  rank : Rank
  assoc : Option Assoc
  field : Option String
  renamed : Option (String × Bool)
  reserving : Option String
  deriving DecidableEq, Repr, Hashable

/-- A rule with its choices taken. `score` decides between whole readings. -/
structure Expansion where
  steps : List Step
  score : Int
  deriving DecidableEq, Repr, Hashable

/-- Of two scores the one further from zero, the first if they tie. -/
def strongerScore (a b : Int) : Int := if b.natAbs > a.natAbs then b else a

/-- What holds around the part of a rule being flattened. -/
structure Surround where
  rank : Rank := .unranked
  assoc : Option Assoc := none
  field : Option String := none
  renamed : Option (String × Bool) := none
  reserving : Option String := none

/-- Change the last step of a list, if there is one. -/
def adjustLast (f : Step → Step) : List Step → List Step
  | [] => []
  | [s] => [f s]
  | s :: rest => s :: adjustLast f rest

/-- The expansions of a rule in its surround; `atEnd` tells whether the rule
ends the whole. -/
def flatten (c : Surround) (atEnd : Bool) : Rule → List Expansion
  | .empty => [⟨[], 0⟩]
  | .text s => [⟨[⟨.text s, c.rank, c.assoc, c.field, c.renamed, c.reserving⟩], 0⟩]
  | .ref n => [⟨[⟨.ref n, c.rank, c.assoc, c.field, c.renamed, c.reserving⟩], 0⟩]
  | .seq a b =>
    let heads := flatten c false a
    let tails := flatten c atEnd b
    heads.flatMap fun x => tails.map fun y => ⟨x.steps ++ y.steps, strongerScore x.score y.score⟩
  | .choice a b => flatten c atEnd a ++ flatten c atEnd b
  | .repeat1 r => flatten c atEnd r
  | .ranked rank assoc r =>
    (flatten { c with rank := rank, assoc := assoc <|> c.assoc } atEnd r).map fun x =>
      if atEnd then x
      else
        { x with
          steps := adjustLast
            (fun s => { s with rank := c.rank, assoc := if assoc.isSome then c.assoc else s.assoc })
            x.steps }
  | .dynamic score r =>
    (flatten c atEnd r).map fun x => { x with score := strongerScore score x.score }
  | .field n r => flatten { c with field := some n } atEnd r
  | .renamed n named r => flatten { c with renamed := some (n, named) } atEnd r
  | .reserving set r => flatten { c with reserving := some set } atEnd r

/-- The repetitions named so far, and the rules that define them. -/
structure Repeats where
  known : List (Rule × String) := []
  rules : List (String × Rule) := []

/-- Replace each repetition by the name of a rule for it, so that `x` repeated
is `r` with `r → x` and `r → r r`. Equal repetitions share their rule. -/
def hoistRepeats (owner : String) : Rule → StateM Repeats Rule
  | .seq a b => do return .seq (← hoistRepeats owner a) (← hoistRepeats owner b)
  | .choice a b => do return .choice (← hoistRepeats owner a) (← hoistRepeats owner b)
  | .repeat1 r => do
    let body ← hoistRepeats owner r
    let s ← get
    match s.known.lookup body with
    | some name => return .ref name
    | none =>
      let name := s!"_{owner}_repeat{s.known.length}"
      set { s with
        known := (body, name) :: s.known
        rules := (name, .choice (.seq (.ref name) (.ref name)) body) :: s.rules : Repeats }
      return .ref name
  | .ranked p a r => do return .ranked p a (← hoistRepeats owner r)
  | .dynamic n r => do return .dynamic n (← hoistRepeats owner r)
  | .field n r => do return .field n (← hoistRepeats owner r)
  | .renamed n b r => do return .renamed n b (← hoistRepeats owner r)
  | .reserving n r => do return .reserving n (← hoistRepeats owner r)
  | r => return r

/-- The step `outer` names an inlined rule; a step of its body in that place
keeps its own field and name unless the place gives one. -/
def placeStep (outer s : Step) : Step :=
  { s with renamed := outer.renamed <|> s.renamed, field := outer.field <|> s.field }

/-- The last step of an inlined body takes over the rank of the place it fills
when it has none. -/
def placeLast (outer s : Step) : Step :=
  { s with
    rank := if s.rank = .unranked then outer.rank else s.rank
    assoc := s.assoc <|> outer.assoc }

/-- Put one expansion of an inlined rule in the place of `outer`. -/
def placeBody (outer : Step) (body : Expansion) : List Step :=
  adjustLast (placeLast outer) (body.steps.map (placeStep outer))

/-- The expansions of a list of steps once every inlined rule is replaced by its
body; `depth` bounds how deep inlined rules name each other. -/
def inlineSteps (bodies : String → Option (List Expansion)) : Nat → List Step → List Expansion
  | 0, steps => [⟨steps, 0⟩]
  | depth + 1, steps =>
    steps.foldr
      (fun s tails =>
        let heads : List Expansion :=
          match s.mention with
          | .text _ => [⟨[s], 0⟩]
          | .ref n =>
            match bodies n with
            | none => [⟨[s], 0⟩]
            | some options => options.flatMap fun body =>
                (inlineSteps bodies depth (placeBody s body)).map fun e =>
                  { e with score := strongerScore body.score e.score }
        heads.flatMap fun h => tails.map fun t => ⟨h.steps ++ t.steps, strongerScore h.score t.score⟩)
      [⟨[], 0⟩]

end RepoOrbit.Grammar
