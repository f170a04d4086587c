import RepoOrbit.Grammar.Parse
import RepoOrbit.Syntax.Tree

/-!
# Reading a text as a tree

`Language.tree?` parses a text and shows its derivation as a tree: phrases that
make no node of their own hand their children up, and phrases that are given
another name in their place get it.
-/

namespace RepoOrbit.Grammar

namespace Language

variable (l : Language)

/-- Give the first of the trees a part, if a part is to be given. -/
def labelFirst (label : Option String) (ts : List SyntaxTree) : List SyntaxTree :=
  match label, ts with
  | some part, .node _ k n s e cs :: rest => .node (some part) k n s e cs :: rest
  | _, ts => ts

/-- What a phrase shows as: its children if it makes no node. -/
def dress (label : Option String) (renamed : Option (String × Bool)) (symbol start stop : Nat)
    (children : List SyntaxTree) : List SyntaxTree :=
  match renamed with
  | some (kind, named) => [.node label kind named start stop children]
  | none =>
    if l.hidden.getD symbol false then labelFirst label children
    else [.node label (l.names.getD symbol "") (l.named.getD symbol false) start stop children]

mutual

/-- The trees of a phrase in a place. -/
def treesOf (place : Option Place) : Derivation → List SyntaxTree
  | .leaf symbol start stop =>
    l.dress (place.bind (·.field)) (place.bind (·.renamed)) symbol start stop []
  | .node production start stop parts =>
    match l.productions[production]? with
    | none => []
    | some p =>
      l.dress (place.bind (·.field)) (place.bind (·.renamed)) p.made start stop
        (treesOfParts p.places.toList parts)

/-- The trees of the parts of a production; extras take no place. -/
def treesOfParts (places : List Place) : List Derivation → List SyntaxTree
  | [] => []
  | d :: rest =>
    let isExtra := match d with
      | .leaf symbol _ _ => l.extras.contains symbol
      | .node .. => false
    if isExtra then treesOf none d ++ treesOfParts places rest
    else treesOf places.head? d ++ treesOfParts places.tail rest

end

/-- The tree of a text, or nothing if the text has an error. -/
def tree? (text : List Char) : Option SyntaxTree :=
  (l.derive? text).map fun phrases =>
    let children := phrases.flatMap fun d =>
      match d with
      | .node production _ _ parts =>
        match l.productions[production]? with
        | none => []
        | some p => l.treesOfParts p.places.toList parts
      | .leaf .. => l.treesOf none d
    .node none (l.names.getD l.start "") true 0 text.length children

end Language

end RepoOrbit.Grammar
