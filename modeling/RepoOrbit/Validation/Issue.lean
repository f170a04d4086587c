/-!
# What can be wrong with a value

A value is refused for a `Fault`; an `Issue` says at which place of the value
the fault is. Every fault has a short name (`Fault.kind`) and a sentence
(`Fault.message`).
-/

namespace RepoOrbit

/-- Why a value is refused. -/
inductive Fault where
  /-- A field that must be given is not. -/
  | missing
  /-- No map where the fields of the named record were expected. -/
  | notRecord (name : String)
  | notText
  | notInteger
  /-- A text that does not read as an integer. -/
  | integerText
  /-- An integer with too many digits. -/
  | integerSize
  /-- A number between two integers. -/
  | fraction
  /-- An infinite number, or none. -/
  | notFinite
  | belowLeast (least : Int)
  | notPositive
  /-- Neither of the two views. -/
  | notView
  | notList
  | notMap
  | notNumber
  /-- A text that does not read as a number. -/
  | numberText
  | notPath
  /-- A record that cannot be changed. -/
  | frozen
  deriving DecidableEq, Repr

/-- The short name of a fault. -/
def Fault.kind : Fault → String
  | .missing => "missing"
  | .notRecord _ => "model_type"
  | .notText => "string_type"
  | .notInteger => "int_type"
  | .integerText => "int_parsing"
  | .integerSize => "int_parsing_size"
  | .fraction => "int_from_float"
  | .notFinite => "finite_number"
  | .belowLeast _ => "greater_than_equal"
  | .notPositive => "greater_than"
  | .notView => "literal_error"
  | .notList => "list_type"
  | .notMap => "dict_type"
  | .notNumber => "float_type"
  | .numberText => "float_parsing"
  | .notPath => "path_type"
  | .frozen => "frozen_instance"

/-- What is said of a fault. -/
def Fault.message : Fault → String
  | .missing => "Field required"
  | .notRecord name => s!"Input should be a valid dictionary or instance of {name}"
  | .notText => "Input should be a valid string"
  | .notInteger => "Input should be a valid integer"
  | .integerText => "Input should be a valid integer, unable to parse string as an integer"
  | .integerSize => "Unable to parse input string as an integer, exceeded maximum size"
  | .fraction => "Input should be a valid integer, got a number with a fractional part"
  | .notFinite => "Input should be a finite number"
  | .belowLeast least => s!"Input should be greater than or equal to {least}"
  | .notPositive => "Input should be greater than 0"
  | .notView => "Input should be 'directory' or 'file'"
  | .notList => "Input should be a valid list"
  | .notMap => "Input should be a valid dictionary"
  | .notNumber => "Input should be a valid number"
  | .numberText => "Input should be a valid number, unable to parse string as a number"
  | .notPath => "Input is not a valid path for <class 'pathlib.Path'>"
  | .frozen => "Instance is frozen"

/-- One step from a value to a part of it. -/
inductive Step where
  | key (name : String)
  | index (n : Nat)
  deriving DecidableEq, Repr

/-- A fault and the place where it is. -/
structure Issue where
  place : List Step
  fault : Fault
  deriving DecidableEq, Repr

/-- The issue seen from one step further out. -/
def Issue.within (step : Step) (i : Issue) : Issue := { i with place := step :: i.place }

end RepoOrbit
