/-!
# Sets of tokens

Tokens are numbered, and a set of them is the number whose bits they are
(`TokenSet`). Union and membership are bit operations.
-/

namespace RepoOrbit.Grammar

/-- A set of token numbers. -/
structure TokenSet where
  bits : Nat
  deriving DecidableEq

namespace TokenSet

/-- No token. -/
def empty : TokenSet := ⟨0⟩

instance : Inhabited TokenSet := ⟨empty⟩

/-- One token. -/
def single (t : Nat) : TokenSet := ⟨1 <<< t⟩

/-- The tokens of either set. -/
def union (a b : TokenSet) : TokenSet := ⟨a.bits ||| b.bits⟩

/-- Whether the token is in the set. -/
def contains (s : TokenSet) (t : Nat) : Bool := s.bits.testBit t

/-- The set of the listed tokens. -/
def ofList (ts : List Nat) : TokenSet := ts.foldl (fun s t => s.union (single t)) empty

/-- Whether the two sets share a token. -/
def meets (a b : TokenSet) : Bool := a.bits &&& b.bits != 0

/-- The members below `bound`, ascending. -/
def toList (s : TokenSet) (bound : Nat) : List Nat := (List.range bound).filter s.contains

instance : Hashable TokenSet where
  hash s := mixHash (hash (s.bits % 18446744073709551557)) (hash (s.bits >>> 64 % 18446744073709551533))

@[simp] theorem contains_empty (t : Nat) : empty.contains t = false := by simp [contains, empty]

@[simp] theorem contains_union (a b : TokenSet) (t : Nat) :
    (a.union b).contains t = (a.contains t || b.contains t) := by simp [contains, union]

@[simp] theorem contains_single (a t : Nat) : (single a).contains t = decide (a = t) := by
  simp [contains, single, Nat.shiftLeft_eq, Nat.testBit_two_pow]

end TokenSet

end RepoOrbit.Grammar
