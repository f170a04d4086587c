import RepoOrbit.Validation.Issue
import RepoOrbit.Validation.Value

/-!
# Checking values

The outcome of a check is what was read or all issues in the order of the fields
(`Checked`); checks of several parts are joined with `<*>`. A `Check` reads a
value; `Field` reads one field of a record, which may be given under a second
name.
-/

namespace RepoOrbit

/-- What was read, or every issue found. -/
inductive Checked (α : Type) where
  | ok (a : α)
  | refused (issues : List Issue)
  deriving DecidableEq, Repr

namespace Checked

variable {α β : Type}

/-- Go on with what was read. -/
def map (f : α → β) : Checked α → Checked β
  | ok a => ok (f a)
  | refused is => refused is

/-- Join two checks; the issues of both are kept. -/
def seq : Checked (α → β) → Checked α → Checked β
  | ok f, ok a => ok (f a)
  | ok _, refused is => refused is
  | refused is, ok _ => refused is
  | refused is, refused js => refused (is ++ js)

instance : Applicative Checked where
  pure := ok
  map := map
  seq f x := seq f (x ())

/-- One fault, at the value itself. -/
def fault (f : Fault) : Checked α := refused [⟨[], f⟩]

/-- See every issue from one step further out. -/
def within (step : Step) : Checked α → Checked α
  | ok a => ok a
  | refused is => refused (is.map (·.within step))

/-- Check what was read once more. -/
def andThen (x : Checked α) (f : α → Checked β) : Checked β :=
  match x with
  | ok a => f a
  | refused is => refused is

/-- Check the members of a list, the first of them at the step `start`. -/
def listFrom (check : Value → Checked α) (start : Nat) : List Value → Checked (List α)
  | [] => ok []
  | v :: rest => seq (map List.cons ((check v).within (.index start))) (listFrom check (start + 1) rest)

/-- Check the values of the entries of a map. -/
def entries (check : Value → Checked α) : List (String × Value) → Checked (List (String × α))
  | [] => ok []
  | (k, v) :: rest =>
    seq (map (fun a r => (k, a) :: r) ((check v).within (.key k))) (entries check rest)

/-- Try to change a field of a record: no field can be changed, but a name that
begins with an underscore is not a field. -/
def assignment (name : String) : Checked Unit :=
  if name.startsWith "_" then ok () else refused [⟨[.key name], .frozen⟩]

end Checked

/-- A way to read a value. -/
abbrev Check (α : Type) := Value → Checked α

/-- A field of a record: its names, the first one given counting. -/
structure FieldName where
  names : List String
  deriving Repr

namespace FieldName

/-- The name under which a missing field is reported. -/
def main (f : FieldName) : String := f.names.headD ""

/-- The first of the names that is given, with its value. -/
def find? (f : FieldName) (entries : List (String × Value)) : Option (String × Value) :=
  f.names.findSome? fun n => (entries.lookup n).map fun v => (n, v)

variable {α : Type}

/-- Read a field that must be given. -/
def required (f : FieldName) (check : Check α) (entries : List (String × Value)) : Checked α :=
  match f.find? entries with
  | some (n, v) => (check v).within (.key n)
  | none => (Checked.fault .missing).within (.key f.main)

/-- Read a field that may be left out. -/
def optional (f : FieldName) (default : α) (check : Check α) (entries : List (String × Value)) :
    Checked α :=
  match f.find? entries with
  | some (n, v) => (check v).within (.key n)
  | none => .ok default

end FieldName

/-- Read the fields of a record. -/
def Check.record {α : Type} (name : String) (fields : List (String × Value) → Checked α) : Check α
  | .map entries => fields entries
  | _ => .fault (.notRecord name)

/-- Read a list. -/
def Check.list {α : Type} (check : Check α) : Check (List α)
  | .list items => Checked.listFrom check 0 items
  | _ => .fault .notList

/-- Read a map. -/
def Check.map {α : Type} (check : Check α) : Check (List (String × α))
  | .map entries => Checked.entries check entries
  | _ => .fault .notMap

end RepoOrbit
