import RepoOrbit.Decimal.Places
import RepoOrbit.Fetch.Url
import RepoOrbit.Text.Lossy
import RepoOrbit.Text.Redact

/-!
# What can go wrong while fetching

A `FetchFault` is a cause; `FetchFault.toError` words it, and masks the token and
everything that looks like a credential in what a program has said. A
`CallFailure` is any way in which a call can end without an answer.
-/

namespace RepoOrbit

/-- The kinds of fetch errors that callers tell apart. -/
inductive FetchErrorKind where
  | failed
  | sourceMissing
  | timedOut
  deriving DecidableEq, Repr

/-- A fetch error as it is reported. -/
structure FetchError where
  kind : FetchErrorKind
  message : String
  deriving DecidableEq, Repr

/-- Why a fetch fails. -/
inductive FetchFault where
  | notRepository (repo : String)
  | notSourceDirectory (dir : String)
  | sourceMissing (dir repo : String)
  /-- A program that could not be started, for the reason given. -/
  | notStarted (step reason : String)
  | timedOut (step : String) (seconds : Float)
  /-- A program that ended with a code other than zero, and what it said. -/
  | stepFailed (step : String) (code : Int) (said : String)
  deriving Repr

/-- The text without the white space around it. -/
def stripped (s : String) : String :=
  String.ofList (((s.toList.dropWhile Text.isWhite).reverse.dropWhile Text.isWhite).reverse)

namespace FetchFault

/-- The kind of error a fault is. -/
def kind : FetchFault → FetchErrorKind
  | .sourceMissing _ _ => .sourceMissing
  | .timedOut _ _ => .timedOut
  | _ => .failed

/-- What a program said, masked; its exit code if it said nothing. -/
def detail (token : Option String) (code : Int) (said : String) : String :=
  let masked := Text.redact (stripped said) token.toList
  if masked = "" then s!"exit status {code}" else masked

/-- What is said of a fault. -/
def message (token : Option String) : FetchFault → String
  | .notRepository repo => s!"Invalid repository identifier: {Text.quoted repo} (expected owner/name)"
  | .notSourceDirectory dir => s!"Invalid source directory: {Text.quoted dir}"
  | .sourceMissing dir repo => s!"Source directory not found: {dir} in {repo}"
  | .notStarted step reason => Text.redact s!"{step} could not start: {reason}" token.toList
  | .timedOut step seconds => s!"{step} timed out after {Decimal.general seconds}s"
  | .stepFailed step code said => s!"{step} failed: {detail token code said}"

/-- The error that a fault is reported as. -/
def toError (token : Option String) (f : FetchFault) : FetchError := ⟨f.kind, f.message token⟩

end FetchFault

/-- A place where the cache directory cannot be made. -/
inductive CacheFault where
  | fileInPlace (path : Path)
  | fileAbove (path : Path)
  deriving DecidableEq, Repr

/-- What is said of such a place. -/
def CacheFault.message : CacheFault → String
  | .fileInPlace path => s!"[Errno 17] File exists: {Text.quoted path.toString}"
  | .fileAbove path => s!"[Errno 20] Not a directory: {Text.quoted path.toString}"

/-- Why a call ends without an answer. -/
inductive CallFailure where
  | fetch (error : FetchError)
  | address (fault : UrlFault)
  | cache (fault : CacheFault)
  | cancelled
  deriving DecidableEq, Repr

end RepoOrbit
