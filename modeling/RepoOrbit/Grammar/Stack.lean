/-!
# Parse stacks that share

A stack holds states, with the phrase read between two of them. Two parses that
have come to the same state at the same place go on as one, so that a stack may
have several ways down (`Stack.links`). `Stack.pops` takes phrases off along
every way; `Stack.merge` joins two stacks.
-/

namespace RepoOrbit.Grammar

/-- A phrase as it was derived: a token, or a production with its parts. -/
inductive Derivation where
  | leaf (symbol start stop : Nat)
  | node (production start stop : Nat) (parts : List Derivation)

/-- Where a phrase begins. -/
def Derivation.start : Derivation → Nat
  | .leaf _ s _ | .node _ s _ _ => s

/-- Where a phrase ends. -/
def Derivation.stop : Derivation → Nat
  | .leaf _ _ e | .node _ _ e _ => e

/-- What a phrase looks like from outside: its symbol or production, its extent
and how many parts it has. -/
def Derivation.outline : Derivation → Bool × Nat × Nat × Nat × Nat
  | .leaf t s e => (true, t, s, e, 0)
  | .node p s e parts => (false, p, s, e, parts.length)

/-- A phrase on the stack. -/
structure Entry where
  phrase : Derivation
  extra : Bool
  /-- The scores of the productions inside, added up. -/
  score : Int

/-- A stack; `id` tells apart stacks that look alike. -/
inductive Stack where
  | bottom
  | node (id state position height : Nat) (score : Int) (links : List (Entry × Stack))

namespace Stack

def id : Stack → Nat
  | bottom => 0
  | node i .. => i

def state : Stack → Nat
  | bottom => 0
  | node _ s .. => s

def position : Stack → Nat
  | bottom => 0
  | node _ _ p .. => p

def height : Stack → Nat
  | bottom => 0
  | node _ _ _ h .. => h

def score : Stack → Int
  | bottom => 0
  | node _ _ _ _ d _ => d

def links : Stack → List (Entry × Stack)
  | bottom => []
  | node _ _ _ _ _ ls => ls

/-- Put a phrase on top. -/
def push (below : Stack) (id state position : Nat) (e : Entry) : Stack :=
  node id state position (below.height + 1) (below.score + e.score) [(e, below)]

/-- The most ways down a stack keeps. -/
def maxLinks : Nat := 8

/-- The most ways followed when phrases are taken off. -/
def maxPops : Nat := 64

/-- Add a way down to a list of ways; `join` merges two stacks that look alike. -/
def addLink (join : Stack → Stack → Stack) (new : Entry × Stack) :
    List (Entry × Stack) → List (Entry × Stack)
  | [] => [new]
  | old :: rest =>
    if old.1.phrase.outline == new.1.phrase.outline && old.1.extra == new.1.extra then
      if old.2.id == new.2.id then
        (if new.1.score > old.1.score then new else old) :: rest
      else if old.2.state == new.2.state && old.2.position == new.2.position then
        (old.1, join old.2 new.2) :: rest
      else old :: addLink join new rest
    else old :: addLink join new rest

/-- Join two stacks of one state and place; `depth` bounds how far down they
are compared. -/
def mergeDown : Nat → Stack → Stack → Stack
  | 0, a, _ => a
  | depth + 1, a, b =>
    match a with
    | bottom => a
    | node i s p h d ls =>
      if i == b.id then a
      else
        let ls := b.links.foldl (fun ls new => (addLink (mergeDown depth) new ls).take maxLinks) ls
        node i s p (max h b.height) (max d b.score) ls

/-- Join two stacks of one state and place. -/
def merge (a b : Stack) : Stack := mergeDown 32 a b

/-- Take phrases off along one way at a time until `count` of them, extras not
counted, are off; the phrases come in reading order. -/
def popsFrom : Nat → Nat → List Entry → Stack → List (List Entry × Stack)
  | _, 0, taken, s => [(taken, s)]
  | 0, _ + 1, _, _ => []
  | fuel + 1, count + 1, taken, s =>
    (s.links.flatMap fun (e, below) =>
      popsFrom fuel (if e.extra then count + 1 else count) (e :: taken) below).take maxPops

/-- All ways of taking `count` phrases off. -/
def pops (s : Stack) (count : Nat) : List (List Entry × Stack) := popsFrom (s.height + 1) count [] s

end Stack

end RepoOrbit.Grammar
