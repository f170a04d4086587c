import RepoOrbit.Fetch.Fault
import RepoOrbit.Graph.Build

/-!
# Outcomes of scans

A scan ends with a document or with an error (`ScanOutcome`). Whatever goes wrong
(`ScanFailure`), the error that callers see has its message masked; fetch errors
keep their kind, and everything else becomes a build error.
-/

namespace RepoOrbit

/-- What goes wrong inside a scan: a fetch error, or something else with the name
of its kind and what it says. -/
inductive ScanFailure where
  | fetch (error : FetchError)
  | other (kind text : String)
  deriving DecidableEq, Repr

/-- The error of a scan as callers see it. -/
inductive ScanError where
  | fetch (error : FetchError)
  | build (message : String)
  deriving DecidableEq, Repr

/-- What is said of an error. -/
def ScanError.message : ScanError → String
  | .fetch error => error.message
  | .build message => message

/-- The error that a failure is reported as. -/
def ScanFailure.toError (token : Option String) : ScanFailure → ScanError
  | .fetch error => .fetch { error with message := Text.redact error.message token.toList }
  | .other kind text => .build (Text.redact (if text = "" then kind else text) token.toList)

/-- How a scan ends. -/
abbrev ScanOutcome := Except ScanError GraphDocument

/-- What a fetch hands to a scan: the files and the place of the sources. -/
structure Checkout where
  files : FileTree
  root : List String

/-- The outcome of a scan whose fetch has ended. -/
def scanOutcome (options : BuildOptions) : Except ScanFailure Checkout → ScanOutcome
  | .error failure => .error (failure.toError options.token)
  | .ok checkout =>
    match checkout.files.graphDocument checkout.root options with
    | .ok document => .ok document
    | .error fault => .error (ScanFailure.toError options.token (.other "failure" fault.message))

end RepoOrbit
