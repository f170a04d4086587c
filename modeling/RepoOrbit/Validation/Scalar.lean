import RepoOrbit.Graph.Document
import RepoOrbit.Path
import RepoOrbit.Validation.Checked
import RepoOrbit.Validation.Numeral

/-!
# Checks of plain values

Texts are taken as they are; integers and numbers are also read from texts, and
true and false count as one and zero.
-/

namespace RepoOrbit.Check

/-- Read a text. -/
def text : Check String
  | .text s => .ok s
  | _ => .fault .notText

/-- Read a text that may be absent. -/
def optionalText : Check (Option String)
  | .null => .ok none
  | .text s => .ok (some s)
  | _ => .fault .notText

/-- The bound on the integers that floats are turned into. -/
def wordBound : Float := Float.ofNat (Nat.pow 2 63)

/-- Turn a float into an integer, if it is one. -/
def integerOfFloat (x : Float) : Checked Int :=
  if x.isNaN || x.isInf then .fault .notFinite
  else if x.floor != x then .fault .fraction
  else if -wordBound < x && x < wordBound then
    .ok (if x < 0 then -((-x).toUInt64.toNat : Int) else x.toUInt64.toNat)
  else .fault .integerSize

/-- Read an integer. -/
def integer : Check Int
  | .int n => .ok n
  | .bool b => .ok (if b then 1 else 0)
  | .number x => integerOfFloat x
  | .text s =>
    match Numeral.integer? s with
    | .ok n => .ok n
    | .error .malformed => .fault .integerText
    | .error .tooLong => .fault .integerSize
  | _ => .fault .notInteger

/-- Read an integer from one on. -/
def count (v : Value) : Checked Nat :=
  (integer v).andThen fun n => if 1 ≤ n then .ok n.toNat else .fault (.belowLeast 1)

/-- Read a number. -/
def number : Check Float
  | .number x => .ok x
  | .int n => .ok (Float.ofInt n)
  | .bool b => .ok (if b then 1 else 0)
  | .text s =>
    match Numeral.number? s with
    | some x => .ok x
    | none => .fault .numberText
  | _ => .fault .notNumber

/-- Read a number above zero. -/
def positive (v : Value) : Checked Float :=
  (number v).andThen fun x => if 0 < x then .ok x else .fault .notPositive

/-- Read a path. -/
def path : Check Path
  | .text s => .ok (Path.ofString s)
  | _ => .fault .notPath

/-- Read the name of a view. -/
def view : Check ViewKind
  | .text s =>
    match ViewKind.ofName? s with
    | some k => .ok k
    | none => .fault .notView
  | _ => .fault .notView

end RepoOrbit.Check
