import RepoOrbit.Grammar.Language

/-!
# The parsing automaton

A state is what the parse may be in the middle of: productions with a dot and
the tokens that may follow them (`Item`). States are made when first reached
and kept (`Automaton`); `Automaton.move` goes over a symbol and
`Automaton.actions` says what may be done on a token.

Where a token could both extend the current phrase and end it, ranks decide
(`settle`): the stronger side wins, equal ranks go by grouping, and what
remains is kept as several actions, to be followed side by side.
-/

namespace RepoOrbit.Grammar

open Std (HashMap)

/-- A production with a dot. -/
structure Item where
  production : Nat
  dot : Nat
  /-- Tokens that may follow the whole production. -/
  look : TokenSet
  /-- The reserved words in force after it, if a word may follow. -/
  reserved : Option Nat
  deriving DecidableEq, Hashable

/-- What may be done on a token. -/
inductive Action where
  | shift (target : Nat)
  | reduce (production : Nat)
  | accept
  /-- Take the token as an extra, which leaves the state as it is. -/
  | skip
  deriving DecidableEq, Repr

/-- A state of the automaton. -/
structure ParseState where
  items : Array Item
  /-- The tokens on which something may be done. -/
  valid : TokenSet
  reserved : TokenSet

/-- The states made so far. -/
structure Automaton where
  states : Array ParseState
  index : HashMap (Array Item) Nat
  moves : HashMap Nat Nat
  actions : HashMap Nat (List Action)

namespace Language

variable (l : Language)

/-- The production of an item; the one beyond the last takes the whole text. -/
def place? (it : Item) : Option Place := (l.productions[it.production]?).bind fun p => p.places[it.dot]?

/-- What may follow the symbol after the dot. -/
def followOf (it : Item) : TokenSet × Option Nat :=
  match l.place? { it with dot := it.dot + 1 } with
  | none => (it.look, it.reserved)
  | some pl => (l.first.getD pl.symbol .empty, l.reservedAt pl)

/-- Add an item to a table of items, uniting what may follow. -/
def addItem (table : HashMap Nat Item) (it : Item) : HashMap Nat Item :=
  table.alter (it.production * 64 + it.dot) fun
    | none => some it
    | some old => some { old with
        look := old.look.union it.look
        reserved := Language.maxReserved old.reserved it.reserved }

/-- The items after going over `symbol` from `items`. -/
def successor (items : Array Item) (symbol : Nat) : Array Item :=
  let table := items.foldl
    (fun table it =>
      match l.place? it with
      | none => table
      | some pl =>
        let table :=
          if pl.symbol = symbol then addItem table { it with dot := it.dot + 1 } else table
        if pl.symbol < l.tokenCount then table
        else
          match l.corners[pl.symbol]? with
          | none => table
          | some corner =>
            match corner.get[symbol]? with
            | none => table
            | some cs =>
              let (look, reserved) := l.followOf it
              cs.foldl
                (fun table c =>
                  addItem table
                    ⟨c.production, 1,
                      if c.inherits then c.follow.union look else c.follow,
                      if c.inherits then Language.maxReserved c.reserved reserved else c.reserved⟩)
                table)
    (∅ : HashMap Nat Item)
  (table.toArray.qsort (fun a b => a.1 < b.1)).map (·.2)

/-- The state with the given items. -/
def stateOf (items : Array Item) : ParseState where
  items := items
  valid := items.foldl
    (fun s it => match l.place? it with
      | none => s.union it.look
      | some pl => s.union (l.first.getD pl.symbol .empty))
    l.extras
  reserved :=
    let set := items.foldl
      (fun best it => match l.place? it with
        | none => if it.look.contains l.word then Language.maxReserved best it.reserved else best
        | some pl => Language.maxReserved best (l.reservedAt pl))
      none
    match set with
    | none => .empty
    | some i => l.reservedSets.getD i .empty

/-- The state before anything is read. The empty text is accepted as well. -/
def initialState : ParseState :=
  let s := l.stateOf #[⟨l.productions.size - 1, 0, .single 0, none⟩]
  { s with valid := s.valid.union (.single 0) }

/-- The automaton with its first state only. -/
def automaton : Automaton where
  states := #[l.initialState]
  index := ∅
  moves := ∅
  actions := ∅

/-- Whether an ordering entry speaks of a step of rank `rank` in one of `rules`. -/
def entryMatches (rank : Rank) (rules : List Nat) : OrderEntry → Bool
  | .rank n => rank == .named n
  | .rule n => rules.any fun r => l.rulesNamed.getD r "" == n

/-- How the first step stands to the second in one ordering table. -/
def compareInTable (left : Rank × List Nat) (right : Rank × List Nat) :
    List OrderEntry → (sawLeft sawRight : Bool) → Option Ordering
  | [], _, _ => none
  | e :: rest, sawLeft, sawRight =>
    if l.entryMatches left.1 left.2 e then
      if sawRight then some .lt else compareInTable left right rest true sawRight
    else if l.entryMatches right.1 right.2 e then
      if sawLeft then some .gt else compareInTable left right rest sawLeft true
    else compareInTable left right rest sawLeft sawRight

/-- How strongly the first step binds against the second. -/
def compareRanks (left right : Rank × List Nat) : Ordering :=
  let byTables : Ordering :=
    (l.spec.orderings.findSome? fun t => l.compareInTable left right t false false).getD .eq
  match left.1, right.1 with
  | .number a, .number b => if a = 0 ∧ b = 0 then byTables else compare a b
  | .number a, .unranked => if a = 0 then byTables else compare a 0
  | .unranked, .number b => if b = 0 then byTables else compare 0 b
  | _, _ => byTables

/-- The place before the dot. -/
def before? (it : Item) : Option Place :=
  match it.dot with
  | 0 => none
  | d + 1 => (l.productions[it.production]?).bind fun p => p.places[d]?

/-- The symbol an item makes. -/
def made (it : Item) : Nat := ((l.productions[it.production]?).map (·.made)).getD 0

/-- The ways a phrase may end on a token, the weaker ones already dropped. -/
structure Endings where
  productions : List Nat := []
  rank : Rank := .unranked
  rules : List Nat := []
  left : Bool := false
  right : Bool := false
  neither : Bool := false

/-- Take one more finished item into account. -/
def addEnding (e : Endings) (it : Item) : Endings :=
  let rank := ((l.before? it).map (·.rank)).getD .unranked
  let assoc := (l.before? it).bind (·.assoc)
  let rule := l.made it
  let note (e : Endings) : Endings :=
    { e with
      rank := rank
      rules := if e.rules.contains rule then e.rules else rule :: e.rules
      left := e.left || assoc == some .left
      right := e.right || assoc == some .right
      neither := e.neither || assoc == none }
  if e.productions.isEmpty then note { e with productions := [it.production] }
  else
    match l.compareRanks (rank, [rule]) (e.rank, e.rules) with
    | .gt => note { productions := [it.production] }
    | .eq => note { e with productions := e.productions ++ [it.production] }
    | .lt => e

/-- Whether to go on, to end, or to do both. -/
inductive Verdict where
  | goOn
  | finish
  | both
  deriving DecidableEq, Repr

/-- Settle between ending the phrase and going on with token `t`. -/
def settle (items : Array Item) (e : Endings) (t : Nat) : Verdict :=
  let ongoing := items.filter fun it =>
    it.dot > 0 && (match l.place? it with
      | none => false
      | some pl => (l.first.getD pl.symbol .empty).contains t)
  let ending := items.filter fun it => (l.place? it).isNone && it.look.contains t
  let owners := (ongoing ++ ending).map l.made
  match owners[0]? with
  | none => .finish
  | some owner =>
    if l.repeating.getD owner false && owners.all (· == owner) then .finish
    else
      let ranks := ongoing.map fun it =>
        l.compareRanks (((l.before? it).map (·.rank)).getD .unranked, [l.made it]) (e.rank, e.rules)
      let more := ranks.any (· == .gt)
      let less := ranks.any (· == .lt)
      if more && !less then .goOn
      else if less && !more then .finish
      else if more && less then .both
      else
        match e.left, e.neither, e.right with
        | true, false, false => .finish
        | false, false, true => .goOn
        | _, _, _ => .both

end Language

namespace Automaton

/-- The number of the state with these items, made if new. -/
def intern (l : Language) (a : Automaton) (items : Array Item) : Nat × Automaton :=
  match a.index[items]? with
  | some i => (i, a)
  | none =>
    let ⟨states, index, moves, actions⟩ := a
    let i := states.size
    (i, ⟨states.push (l.stateOf items), index.insert items i, moves, actions⟩)

/-- The items of a state. -/
def itemsOf (a : Automaton) (state : Nat) : Array Item := ((a.states[state]?).map (·.items)).getD #[]

/-- Where the automaton goes from a state over a symbol. -/
def move (l : Language) (a : Automaton) (state symbol : Nat) : Option Nat × Automaton :=
  let key := state * 2048 + symbol
  match a.moves[key]? with
  | some 0 => (none, a)
  | some (i + 1) => (some i, a)
  | none =>
    let items := l.successor (a.itemsOf state) symbol
    if items.isEmpty then
      let ⟨states, index, moves, actions⟩ := a
      (none, ⟨states, index, moves.insert key 0, actions⟩)
    else
      let (i, a) := a.intern l items
      let ⟨states, index, moves, actions⟩ := a
      (some i, ⟨states, index, moves.insert key (i + 1), actions⟩)

/-- What may be done in a state on a token, endings first. -/
def actionsOn (l : Language) (a : Automaton) (state token : Nat) : List Action × Automaton :=
  let key := state * 2048 + token
  match a.actions[key]? with
  | some acts => (acts, a)
  | none =>
    let items := a.itemsOf state
    let endings := items.foldl
      (fun e it => if (l.place? it).isNone && it.look.contains token then l.addEnding e it else e) {}
    let whole := l.productions.size - 1
    let (target, a) := a.move l state token
    let reduces := endings.productions.map fun p =>
      if p = whole then Action.accept else Action.reduce p
    let acts :=
      if state = 0 && token = 0 then [Action.accept]
      else
        match target with
        | none => reduces
        | some i =>
          if reduces.isEmpty then [.shift i]
          else
            match l.settle items endings token with
            | .goOn => [.shift i]
            | .finish => reduces
            | .both => reduces ++ [.shift i]
    let acts := if acts.isEmpty && l.extras.contains token then [.skip] else acts
    let ⟨states, index, moves, actions⟩ := a
    (acts, ⟨states, index, moves, actions.insert key acts⟩)

end Automaton

end RepoOrbit.Grammar
