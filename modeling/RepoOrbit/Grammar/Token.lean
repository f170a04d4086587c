import RepoOrbit.Grammar.Automaton

/-!
# Tokens in context

`Language.nextToken` reads the token at a place of the text, given what the
parse could take there. The context-dependent reader comes first. Otherwise the
longest token among those wanted wins, with a higher rank beating any length
and, for one length, a literal beating a pattern.

A word is read as a word first; it counts as a keyword only where that keyword
can be taken or is reserved.
-/

namespace RepoOrbit.Grammar

/-- A token in the text. -/
structure Token where
  symbol : Nat
  start : Nat
  stop : Nat
  /-- The text after the token. -/
  rest : List Char
  /-- Whether it is a word that was taken for a keyword. -/
  keyword : Bool

/-- A reading of a token, with what decides between readings. -/
structure Reading where
  symbol : Nat
  rank : Int
  stop : Nat
  precision : Nat

/-- Whether a reading beats the best one so far. -/
def Reading.beats (r best : Reading) : Bool :=
  r.rank > best.rank || (r.rank == best.rank &&
    (r.stop > best.stop || (r.stop == best.stop && r.precision > best.precision)))

/-- The better of the readings. -/
def Reading.best (best : Option Reading) (r : Reading) : Option Reading :=
  match best with
  | none => some r
  | some b => if r.beats b then some r else best

/-- The number of leading characters with property `p`. -/
def countWhile (p : Char → Bool) : List Char → Nat
  | [] => 0
  | c :: rest => if p c then countWhile p rest + 1 else 0

/-- Drop the leading characters with property `p`. -/
def dropSpace (p : Char → Bool) : List Char → List Char
  | [] => []
  | c :: rest => if p c then dropSpace p rest else c :: rest

namespace Language

variable (l : Language)

/-- The token the context-dependent reader finds. An empty one that would leave
the state as it is does not count. -/
def scanToken? (valid : TokenSet) (position : Nat) (text : List Char) : Option Token :=
  let number (n : String) : Option Nat := (l.externals.find? (·.1 == n)).map (·.2)
  match l.spec.scan (fun n => (number n).any valid.contains) text with
  | none => none
  | some t =>
    match number t.name with
    | none => none
    | some symbol =>
      if t.length = 0 && l.extras.contains symbol then none
      else
        some { symbol
               start := position + t.skipped
               stop := position + t.skipped + t.length
               rest := text.drop (t.skipped + t.length)
               keyword := false }

/-- The best reading of the wanted literals and patterns. `text` starts at
`position`, `after` is the text with leading space dropped, at `skipped`. -/
def bestReading? (valid : TokenSet) (position : Nat) (text : List Char) (skipped : Nat)
    (after : List Char) : Option Reading :=
  let wantsWord := valid.contains l.word || valid.meets l.keywordSet
  let readings := l.readers.foldl
    (fun best (symbol, t) =>
      if !(valid.contains symbol || (symbol == l.word && wantsWord)) then best
      else
        match t.read (if t.immediate then text else after) with
        | none => best
        | some n =>
          Reading.best best ⟨symbol, t.rank, (if t.immediate then position else skipped) + n,
            if t.immediate then 1 else 0⟩)
    none
  match after with
  | [] => readings
  | c :: _ =>
    ((l.literals[c.toNat]?).getD #[]).foldl
      (fun best (chars, symbol) =>
        if valid.contains symbol && chars.isPrefixOf after then
          Reading.best best ⟨symbol, 0, skipped + chars.length, 2⟩
        else best)
      readings

/-- The token at `position`, where the text from there on is `text`. -/
def nextToken (state : ParseState) (position : Nat) (text : List Char) : Option Token :=
  match l.scanToken? state.valid position text with
  | some t => some t
  | none =>
    let skipped := position + countWhile l.spec.isSpace text
    let after := dropSpace l.spec.isSpace text
    match l.bestReading? state.valid position text skipped after with
    | none => if after.isEmpty then some ⟨0, skipped, skipped, [], false⟩ else none
    | some r =>
      let start := if (l.readers.any fun (s, t) => s == r.symbol && t.immediate) then position else skipped
      let rest := text.drop (r.stop - position)
      if r.symbol = l.word then
        match l.keywords[String.ofList (after.take (r.stop - skipped))]? with
        | some k =>
          if state.valid.contains k || state.reserved.contains k then some ⟨k, start, r.stop, rest, true⟩
          else some ⟨r.symbol, start, r.stop, rest, false⟩
        | none => some ⟨r.symbol, start, r.stop, rest, false⟩
      else some ⟨r.symbol, start, r.stop, rest, false⟩

end Language

end RepoOrbit.Grammar
