import Std.Data.HashMap
import RepoOrbit.Grammar.Production
import RepoOrbit.Grammar.TokenSet

/-!
# Numbered grammars

`Language` is a grammar ready for parsing: symbols are numbers, tokens first
(the end of the input is token 0), rules are flattened to productions, and for
every rule the tokens that may begin it (`Language.first`) and the productions
at its left edge (`Language.corners`) are tabled. No production is empty, so
what may begin a rule is what may begin its first step.
-/

namespace RepoOrbit.Grammar

open Std (HashMap)

/-- One place of a numbered production. -/
structure Place where
  symbol : Nat
  rank : Rank
  assoc : Option Assoc
  field : Option String
  renamed : Option (String × Bool)
  /-- The set of reserved words that holds in this place, by number. -/
  reserved : Nat
  deriving DecidableEq, Repr, Hashable

/-- A numbered production: the symbol it makes and the symbols it takes. -/
structure Production where
  made : Nat
  places : Array Place
  score : Int
  deriving DecidableEq, Repr, Hashable

/-- A production at the left edge of a rule: tokens that may follow it inside
the rule, and whether what follows the rule may follow it as well. -/
structure CornerItem where
  production : Nat
  follow : TokenSet
  inherits : Bool
  /-- The reserved words of the place after it, for an item that is not open. -/
  reserved : Option Nat

/-- The left-edge productions of a rule by their first symbol. -/
abbrev Corner := HashMap Nat (Array CornerItem)

/-- A grammar ready for parsing. -/
structure Language where
  spec : Spec
  /-- The name of each symbol, as it shows in the tree. -/
  names : Array String
  /-- Whether a symbol makes a node that has a name. -/
  named : Array Bool
  /-- Whether a symbol makes no node. -/
  hidden : Array Bool
  /-- How many of the symbols are tokens. -/
  tokenCount : Nat
  /-- Symbols that only repeat, for which shifting is never better. -/
  repeating : Array Bool
  /-- The productions; the last one takes the start symbol and is the whole text. -/
  productions : Array Production
  start : Nat
  first : Array TokenSet
  corners : Array (Thunk Corner)
  /-- The name of a rule or token as the orderings know it. -/
  rulesNamed : Array String
  word : Nat
  /-- Words that look like the word token. -/
  keywords : HashMap String Nat
  keywordSet : TokenSet
  /-- The reserved words in force where a place begins, if a word may stand there. -/
  reservedAt : Place → Option Nat
  /-- Literals that do not look like words, by their first character. -/
  literals : HashMap Nat (Array (List Char × Nat))
  /-- The tokens read by a reader. -/
  readers : Array (Nat × TokenRule)
  externals : Array (String × Nat)
  extras : TokenSet
  reservedSets : Array TokenSet

namespace Language

/-- The productions with the symbols numbered by `number`. -/
def numberExpansion (number : Mention → Nat) (reservedNumber : Option String → Nat) (made : Nat)
    (e : Expansion) : Production where
  made := made
  places := (e.steps.map fun s =>
    ⟨number s.mention, s.rank, s.assoc, s.field, s.renamed, reservedNumber s.reserving⟩).toArray
  score := e.score

/-- The tokens that may begin each symbol: a fixed point reached by at most as
many rounds as there are symbols. -/
def firstSets (tokenCount symbolCount : Nat) (productions : Array Production) : Array TokenSet :=
  let init := (Array.range symbolCount).map fun s =>
    if s < tokenCount then TokenSet.single s else TokenSet.empty
  let pairs := productions.filterMap fun p => p.places[0]?.map fun pl => (p.made, pl.symbol)
  let round (sets : Array TokenSet) : Array TokenSet × Bool :=
    pairs.foldl
      (fun (acc : Array TokenSet × Bool) (made, head) =>
        let old := acc.1.getD made .empty
        let new := old.union (acc.1.getD head .empty)
        if new = old then acc else (acc.1.setIfInBounds made new, true))
      (sets, false)
  let rec rounds : Nat → Array TokenSet → Array TokenSet
    | 0, sets => sets
    | n + 1, sets =>
      let (next, changed) := round sets
      if changed then rounds n next else next
  rounds symbolCount init

/-- What may follow a symbol at the left edge of a rule. -/
structure EdgeInfo where
  follow : TokenSet := .empty
  inherits : Bool := false
  reserved : Option Nat := none

/-- The larger of two set numbers. -/
def maxReserved : Option Nat → Option Nat → Option Nat
  | none, b => b
  | a, none => a
  | some a, some b => some (max a b)

/-- Whether the word token may begin the symbol, and under which reserved words. -/
def firstReserved (tokenCount word symbolCount : Nat) (productions : Array Production) :
    Array (Option Nat) :=
  let init : Array (Option Nat) := Array.replicate symbolCount none
  let round (sets : Array (Option Nat)) : Array (Option Nat) × Bool :=
    productions.foldl
      (fun (acc : Array (Option Nat) × Bool) p =>
        match p.places[0]? with
        | none => acc
        | some pl =>
          let head :=
            if pl.symbol = word then some pl.reserved
            else if pl.symbol < tokenCount then none
            else acc.1.getD pl.symbol none
          let old := acc.1.getD p.made none
          let new := maxReserved old head
          if new = old then acc else (acc.1.setIfInBounds p.made new, true))
      (sets, false)
  let rec rounds : Nat → Array (Option Nat) → Array (Option Nat)
    | 0, sets => sets
    | n + 1, sets =>
      let (next, changed) := round sets
      if changed then rounds n next else next
  rounds symbolCount init

/-- The reserved words in force where the place begins, if a word may stand there. -/
def placeReserved (tokenCount word : Nat) (firstRes : Array (Option Nat)) (pl : Place) : Option Nat :=
  if pl.symbol = word then some pl.reserved
  else if pl.symbol < tokenCount then none
  else firstRes.getD pl.symbol none

/-- The left-edge productions of symbol `s`: walk down first steps until nothing
new appears. -/
def cornerOf (tokenCount : Nat) (productions : Array Production) (byMade : Array (Array Nat))
    (first : Array TokenSet) (reservedAt : Place → Option Nat) (s : Nat) : Corner :=
  let visit (work : List Nat × HashMap Nat EdgeInfo) (info : EdgeInfo) (p : Production) :
      List Nat × HashMap Nat EdgeInfo :=
    match p.places[0]? with
    | none => work
    | some head =>
      if head.symbol < tokenCount then work
      else
        let inner : EdgeInfo :=
          match p.places[1]? with
          | none => info
          | some next => ⟨first.getD next.symbol .empty, false, reservedAt next⟩
        let old? := work.2[head.symbol]?
        let old := old?.getD {}
        let new : EdgeInfo :=
          ⟨old.follow.union inner.follow, old.inherits || inner.inherits, maxReserved old.reserved inner.reserved⟩
        if old?.isSome && new.follow = old.follow && new.inherits = old.inherits && new.reserved = old.reserved then
          work
        else (head.symbol :: work.1, work.2.insert head.symbol new)
  let rec walk : Nat → List Nat → HashMap Nat EdgeInfo → HashMap Nat EdgeInfo
    | 0, _, infos => infos
    | _, [], infos => infos
    | n + 1, t :: rest, infos =>
      let info := infos.getD t {}
      let (todo, infos) := (byMade.getD t #[]).foldl
        (fun work i => match productions[i]? with
          | none => work
          | some p => visit work info p)
        (rest, infos)
      walk n todo infos
  let infos := walk (64 * productions.size + 64) [s] ((∅ : HashMap Nat EdgeInfo).insert s ⟨.empty, true, none⟩)
  infos.fold
    (fun corner t info => (byMade.getD t #[]).foldl
      (fun corner i => match productions[i]?.bind (·.places[0]?) with
        | none => corner
        | some head =>
          corner.alter head.symbol fun old =>
            some ((old.getD #[]).push ⟨i, info.follow, info.inherits, info.reserved⟩))
      corner)
    ∅

end Language

/-- Whether a literal reads as a word: letters, digits and underscores, and no
digit first. -/
def looksLikeWord (s : String) : Bool :=
  match s.toList with
  | [] => false
  | c :: rest => (c.isAlpha || c == '_') && rest.all fun d => d.isAlphanum || d == '_'

/-- Number the symbols of a grammar and table what parsing needs. -/
def Spec.language (g : Spec) : Language :=
  -- A rule that is one literal written nowhere else is that token.
  let allLiterals := g.rules.flatMap fun r => r.2.literals
  let counts := allLiterals.foldl (fun (m : HashMap String Nat) s => m.alter s fun n => some (n.getD 0 + 1)) ∅
  let tokenRules : List (String × String) := g.rules.filterMap fun (n, r) =>
    match r with
    | .text s => if counts.getD s 0 = 1 then some (n, s) else none
    | _ => none
  let textNames : HashMap String String := HashMap.ofList (tokenRules.map fun (n, s) => (s, n))
  let refTexts : HashMap String String := HashMap.ofList tokenRules
  let literals := (counts.toList.map (·.1)).mergeSort (fun a b => a ≤ b)
  -- Tokens: the end, the literals, the read tokens, the remaining externals.
  let tokenNames := g.tokens.map (·.name)
  let extra := g.externals.filter fun n => !(literals.contains n) && !(tokenNames.contains n)
  let tokenKeys : List String := "" :: literals ++ tokenNames ++ extra
  let tokenCount := tokenKeys.length
  let literalNumber : HashMap String Nat := HashMap.ofList (literals.zipIdx 1)
  let readNumber : HashMap String Nat := HashMap.ofList ((tokenNames ++ extra).zipIdx (1 + literals.length))
  -- Rules, with repetitions named.
  let syntaxRules := g.rules.filter fun (n, _) => !(refTexts.contains n)
  let (hoisted, repeats) := (syntaxRules.mapM fun (n, r) => do
    return (n, ← hoistRepeats n r)).run {}
  let rules := hoisted ++ repeats.rules.reverse
  let expansions : List (String × List Expansion) := rules.map fun (n, r) =>
    (n, (flatten {} true r).filter fun e => !e.steps.isEmpty)
  let bodies : HashMap String (List Expansion) :=
    HashMap.ofList (expansions.filter fun (n, _) => g.inlined.contains n)
  let kept := expansions.filter fun (n, _) => !(g.inlined.contains n)
  let ruleNumber : HashMap String Nat := HashMap.ofList ((kept.map (·.1)).zipIdx tokenCount)
  let number : Mention → Nat
    | .text s => literalNumber.getD s 0
    | .ref n =>
      match ruleNumber[n]? with
      | some i => i
      | none =>
        match refTexts[n]? with
        | some s => literalNumber.getD s 0
        | none => (readNumber[n]?).getD (literalNumber.getD n 0)
  let reservedNames := g.reserved.map (·.1)
  let reservedNumber : Option String → Nat
    | none => 0
    | some n => (reservedNames.idxOf? n).getD 0
  let productions : Array Production :=
    kept.foldl
      (fun acc (n, es) =>
        let made := number (.ref n)
        let own := es.flatMap fun e =>
          (inlineSteps (fun m => bodies[m]?) 8 e.steps).map fun x =>
            Language.numberExpansion number reservedNumber made
              { x with score := strongerScore e.score x.score }
        (own.foldl
          (fun (acc : Array Production × HashMap Production Unit) p =>
            if acc.2.contains p then acc else (acc.1.push p, acc.2.insert p ()))
          (acc, ∅)).1)
      #[]
  let keptNames := kept.map (·.1)
  let symbolCount := tokenCount + keptNames.length
  let repeatNames := repeats.rules.map (·.1)
  let names : Array String :=
    (("end" :: literals.map (fun s => textNames.getD s s)) ++ tokenNames ++ extra ++ keptNames).toArray
  let named : Array Bool :=
    ((false :: literals.map (fun s => textNames.contains s)) ++ tokenNames.map (fun n => readNumber.contains n)
      ++ extra.map (fun _ => true) ++ keptNames.map (fun _ => true)).toArray
  let isHiddenName (n : String) : Bool := n.startsWith "_" || g.gathering.contains n
  let hidden : Array Bool :=
    ((true :: literals.map (fun _ => false)) ++ tokenNames.map isHiddenName ++ extra.map isHiddenName
      ++ keptNames.map isHiddenName).toArray
  let first := Language.firstSets tokenCount symbolCount productions
  let byMade : Array (Array Nat) :=
    productions.zipIdx.foldl
      (fun acc (p, i) => acc.modify p.made (·.push i))
      (Array.replicate symbolCount #[])
  let word := number (.ref g.word)
  let firstRes := Language.firstReserved tokenCount word symbolCount productions
  let reservedAt := Language.placeReserved tokenCount word firstRes
  let corners := (Array.range symbolCount).map fun s =>
    Thunk.mk fun _ =>
      if s < tokenCount then ∅
      else Language.cornerOf tokenCount productions byMade first reservedAt s
  let wordLike := literals.filter looksLikeWord
  let symbols := literals.filter fun s => !looksLikeWord s
  let augmented : Production := ⟨symbolCount, #[⟨number (.ref ((g.rules.map (·.1)).headD "")), .unranked, none, none, none, 0⟩], 0⟩
  { spec := g
    names := names
    named := named
    hidden := hidden
    tokenCount := tokenCount
    repeating := ((List.replicate tokenCount false) ++ keptNames.map fun n => repeatNames.contains n).toArray
    productions := productions.push augmented
    start := number (.ref ((g.rules.map (·.1)).headD ""))
    first := first
    corners := corners
    rulesNamed := (List.replicate tokenCount "" ++ keptNames).toArray
    word := word
    keywords := HashMap.ofList (wordLike.map fun s => (s, literalNumber.getD s 0))
    keywordSet := .ofList (wordLike.map fun s => literalNumber.getD s 0)
    reservedAt := reservedAt
    literals := symbols.foldl
      (fun m s => match s.toList with
        | [] => m
        | c :: rest => m.alter c.toNat fun old => some ((old.getD #[]).push (c :: rest, literalNumber.getD s 0)))
      ∅
    readers := (g.tokens.map fun t => (readNumber.getD t.name 0, t)).toArray
    externals := (g.externals.map fun n => (n, (literalNumber[n]?).getD (readNumber.getD n 0))).toArray
    extras := .ofList (g.extras.map fun n => number (.ref n))
    reservedSets := (g.reserved.map fun (_, ws) => TokenSet.ofList (ws.map fun w => literalNumber.getD w 0)).toArray }

end RepoOrbit.Grammar
