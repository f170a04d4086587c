/-!
# Syntax trees

A node has a kind, says whether the kind is a named one, knows the part it plays
in its parent (`label`) and the stretch of the text it covers
(`SyntaxTree`). `SyntaxTree.childLabelled?` finds a child by its part.
-/

namespace RepoOrbit

/-- A syntax tree without errors. -/
inductive SyntaxTree where
  | node (label : Option String) (kind : String) (named : Bool) (start stop : Nat)
      (children : List SyntaxTree)

namespace SyntaxTree

/-- The part the node plays in its parent. -/
def label : SyntaxTree → Option String
  | node l .. => l

def kind : SyntaxTree → String
  | node _ k .. => k

def named : SyntaxTree → Bool
  | node _ _ n .. => n

def start : SyntaxTree → Nat
  | node _ _ _ s .. => s

def stop : SyntaxTree → Nat
  | node _ _ _ _ e _ => e

def children : SyntaxTree → List SyntaxTree
  | node _ _ _ _ _ cs => cs

/-- The first child that plays the part. -/
def childLabelled? (t : SyntaxTree) (part : String) : Option SyntaxTree :=
  t.children.find? fun c => c.label == some part

/-- The first child of a named kind. -/
def firstNamed? (t : SyntaxTree) : Option SyntaxTree := t.children.find? (·.named)

end SyntaxTree

end RepoOrbit
