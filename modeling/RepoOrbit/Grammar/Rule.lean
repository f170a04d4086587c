/-!
# Grammar rules

A rule describes a set of phrases (`Rule`). Besides the shape of the phrase it
says how strongly its parts bind (`Rule.ranked`), which names the parts get in
the syntax tree (`Rule.field`, `Rule.renamed`) and which words are kept from
being identifiers inside it (`Rule.reserving`).

`Spec` is a whole grammar: named rules, the tokens they are made of, and the
tables that settle ambiguities (`Spec.orderings`, `Spec.reserved`).
-/

namespace RepoOrbit.Grammar

/-- Which of two equally strong readings of `a ∘ b ∘ c` is meant. -/
inductive Assoc where
  | left
  | right
  deriving DecidableEq, Repr, Hashable

/-- How strongly a step of a rule binds. Numbers compare with numbers; names
compare through the orderings of the grammar. -/
inductive Rank where
  | unranked
  | number (value : Int)
  | named (name : String)
  deriving DecidableEq, Repr, Hashable

/-- The shape of a phrase. -/
inductive Rule where
  | empty
  | text (literal : String)
  | ref (name : String)
  | seq (first second : Rule)
  | choice (first second : Rule)
  | repeat1 (body : Rule)
  | ranked (rank : Rank) (assoc : Option Assoc) (body : Rule)
  | dynamic (score : Int) (body : Rule)
  | field (name : String) (body : Rule)
  | renamed (name : String) (named : Bool) (body : Rule)
  | reserving (set : String) (body : Rule)
  deriving DecidableEq, Repr, Hashable

namespace Rule

/-- A string stands for the rule that is this text. -/
instance : Coe String Rule := ⟨.text⟩

/-- The rules one after the other. -/
def all : List Rule → Rule
  | [] => .empty
  | [r] => r
  | r :: rest => .seq r (all rest)

/-- One of the rules. -/
def any : List Rule → Rule
  | [] => .empty
  | [r] => r
  | r :: rest => .choice r (any rest)

/-- The rule or nothing. -/
def optional (r : Rule) : Rule := .choice r .empty

/-- Any number of times, none included. -/
def many (r : Rule) : Rule := .choice (.repeat1 r) .empty

/-- One or more, with `separator` between two. -/
def separated1 (separator r : Rule) : Rule := .seq r (many (.seq separator r))

/-- One or more, with commas between. -/
def commas1 (r : Rule) : Rule := separated1 "," r

/-- Any number, with commas between. -/
def commas (r : Rule) : Rule := optional (commas1 r)

/-- Strengthen without a side. -/
def strong (name : String) (r : Rule) : Rule := .ranked (.named name) none r

/-- Strengthen, grouping to the left. -/
def strongLeft (name : String) (r : Rule) : Rule := .ranked (.named name) (some .left) r

/-- Strengthen, grouping to the right. -/
def strongRight (name : String) (r : Rule) : Rule := .ranked (.named name) (some .right) r

/-- Group to the left, with no strength of its own. -/
def leftward (r : Rule) : Rule := .ranked (.number 0) (some .left) r

/-- Group to the right, with no strength of its own. -/
def rightward (r : Rule) : Rule := .ranked (.number 0) (some .right) r

/-- Show the phrase as a named node of another kind. -/
def as (name : String) (r : Rule) : Rule := .renamed name true r

/-- The literals written in a rule, once per place. -/
def literals : Rule → List String
  | .empty | .ref _ => []
  | .text s => [s]
  | .seq a b | .choice a b => a.literals ++ b.literals
  | .repeat1 r | .ranked _ _ r | .dynamic _ r | .field _ r | .renamed _ _ r | .reserving _ r => r.literals

end Rule

/-- A token that is described by how to read it. `read` gives the length of the
longest reading at the start of the text. -/
structure TokenRule where
  name : String
  /-- Whether the token must follow the previous one with no space between. -/
  immediate : Bool := false
  /-- A token of higher rank wins whatever the lengths. -/
  rank : Int := 0
  read : List Char → Option Nat

/-- What a context-dependent reader found: a token, how many characters it
skipped before it and how many it takes. -/
structure ScannedToken where
  name : String
  skipped : Nat
  length : Nat
  deriving Repr, DecidableEq

/-- An entry of an ordering table: a named rank, or a rule as a whole. -/
inductive OrderEntry where
  | rank (name : String)
  | rule (name : String)
  deriving DecidableEq, Repr

/-- A grammar. -/
structure Spec where
  /-- The rules; the first is the start. -/
  rules : List (String × Rule)
  tokens : List TokenRule
  /-- Tokens only the context-dependent reader delivers, or is told about. -/
  externals : List String
  /-- Tokens allowed between any two others. -/
  extras : List String
  /-- Rules that stand for their body wherever they are named. -/
  inlined : List String
  /-- Rules that only gather others and leave no node of their own. -/
  gathering : List String
  /-- The token that keywords look like. -/
  word : String
  /-- Each table runs from the strongest entry to the weakest. -/
  orderings : List (List OrderEntry)
  /-- Sets of words that are no identifiers; the first holds by default. -/
  reserved : List (String × List String)
  /-- Characters that may stand between tokens. -/
  isSpace : Char → Bool
  /-- The reader consulted before all others; it is told which of the external
  tokens the parse could take. -/
  scan : (String → Bool) → List Char → Option ScannedToken

end RepoOrbit.Grammar
