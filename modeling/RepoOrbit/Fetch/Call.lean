import RepoOrbit.Fetch.Git
import RepoOrbit.Fetch.Repository
import RepoOrbit.Files.Tree

/-!
# One call of the fetcher

A call asks for a source directory of a repository or for its top-level
directories (`FetchCall`). It goes through runs of git, one after the other:
`begin` says what a call does first, `advance` what it does when a run has ended.
Both may change files.

A clone is made under a name of its own beside the place it is meant for, and is
moved there once it is complete. When any step before that fails, it is taken
away again.
-/

namespace RepoOrbit

/-- Where repositories come from and go to, and how long a run of git may take.
Relative paths are read from `home`. -/
structure FetchConfig where
  baseUrl : String
  cache : Path
  home : List String
  cloneTimeout : Float
  checkoutTimeout : Float

/-- The place a path stands for. -/
def FetchConfig.locate (c : FetchConfig) (p : Path) : List String :=
  if p.isAbsolute then p.names else c.home ++ p.names

/-- What a call asks for. -/
inductive FetchTask where
  | source (dir : String)
  | topDirectories
  deriving DecidableEq, Repr

/-- A call: `tag` makes the name of its unfinished clone its own. -/
structure FetchCall where
  repo : String
  token : Option String
  task : FetchTask
  tag : String
  deriving DecidableEq, Repr

/-- What a call is answered. -/
inductive FetchAnswer where
  | source (root : Path)
  | directories (names : List String)
  deriving DecidableEq, Repr

/-- The run that a call waits for. -/
inductive FetchStage where
  /-- The clone of a repository that is not in the cache. -/
  | cloning
  /-- The first checkout in the unfinished clone. -/
  | checkingOut
  /-- The checkout of a further directory in a clone that someone else has put in
  place meanwhile. -/
  | wideningOther
  /-- The checkout of a further directory in a cached clone. -/
  | widening
  | listing
  deriving DecidableEq, Repr

/-- What a call does next. -/
inductive FetchNext where
  | run (stage : FetchStage) (command : GitCommand)
  | finish (answer : Except CallFailure FetchAnswer)

namespace FetchCall

variable (c : FetchConfig) (call : FetchCall)

/-- The place of the clone. -/
def target : Path := cloneDirectory c.cache call.repo

/-- The place of the clone until it is complete. -/
def unfinished : Path :=
  let target := call.target c
  target.parent.child (target.name ++ ".partial-" ++ call.tag)

/-- Whether there is a clone in the cache. -/
def isCached (t : FileTree) : Bool := t.holds (c.locate ((call.target c).child ".git"))

/-- The place of a directory in the clone. -/
def sourcePath (dir : String) : Path := (call.target c).join (Path.ofString dir)

/-- Whether the clone has the directory. -/
def hasSource (t : FileTree) (dir : String) : Bool := t.holdsDirectory (c.locate (call.sourcePath c dir))

/-- The time a command may take. -/
def timeout : GitCommand → Float
  | .clone _ _ => c.cloneTimeout
  | _ => c.checkoutTimeout

/-- Why a call is turned down at once, if it is. -/
def refusal? : Option CallFailure :=
  if !isRepository call.repo then some (.fetch ((FetchFault.notRepository call.repo).toError call.token))
  else
    match call.task with
    | .source dir =>
      if isSourceDirectory dir then none
      else some (.fetch ((FetchFault.notSourceDirectory dir).toError call.token))
    | .topDirectories => none

/-- End a call whose clone is in order. -/
def conclude (t : FileTree) (dir : String) : FetchNext :=
  let root := t.resolve (c.locate (call.sourcePath c dir))
  if t.holdsDirectory root then .finish (.ok (.source ⟨.slash, root⟩))
  else .finish (.error (.fetch ((FetchFault.sourceMissing dir call.repo).toError call.token)))

/-- Look up the top-level directories of a clone that is in order. -/
def listNext : FetchNext := .run .listing (.listDirectories (call.target c))

/-- What stands in the way of the cache directory, if anything. -/
def cacheFault? (t : FileTree) : Option CacheFault :=
  let place := c.locate c.cache
  if t.holds place then
    if t.holdsDirectory place then none else some (.fileInPlace c.cache)
  else
    let above := (List.range place.length).map fun n => place.take n
    if above.any fun p => t.holds p && !t.holdsDirectory p then some (.fileAbove c.cache) else none

/-- Begin a clone. -/
def beginClone (t : FileTree) : FileTree × FetchNext :=
  match cacheFault? c t with
  | some fault => (t, .finish (.error (.cache fault)))
  | none =>
    let t := t.makeDirectory (c.locate c.cache)
    match cloneUrl c.baseUrl call.repo call.token with
    | .error fault => (t, .finish (.error (.address fault)))
    | .ok address => (t, .run .cloning (.clone address (call.unfinished c)))

/-- What a call does once it is its turn. -/
def begin (t : FileTree) : FileTree × FetchNext :=
  if call.isCached c t then
    match call.task with
    | .source dir =>
      if call.hasSource c t dir then (t, call.conclude c t dir)
      else (t, .run .widening (.checkOut .add dir (call.target c)))
    | .topDirectories => (t, call.listNext c)
  else call.beginClone c t

/-- What a call does once its clone is in place. -/
def afterClone (t : FileTree) : FetchNext :=
  match call.task with
  | .source dir => call.conclude c t dir
  | .topDirectories => call.listNext c

/-- Put a complete clone in place, unless there is one by now. -/
def settle (t : FileTree) : FileTree × FetchNext :=
  let unfinished := c.locate (call.unfinished c)
  if t.holds (c.locate (call.target c)) then
    let t := t.remove unfinished
    match call.task with
    | .source dir =>
      if call.hasSource c t dir then (t, call.conclude c t dir)
      else (t, .run .wideningOther (.checkOut .add dir (call.target c)))
    | .topDirectories => (t, call.listNext c)
  else
    let t := t.move unfinished (c.locate (call.target c))
    (t, call.afterClone c t)

/-- What a call does when the run of a stage has succeeded with this output. -/
def succeed (t : FileTree) (stage : FetchStage) (out : List UInt8) : FileTree × FetchNext :=
  match stage, call.task with
  | .cloning, .source dir => (t, .run .checkingOut (.checkOut .set dir (call.unfinished c)))
  | .cloning, .topDirectories => call.settle c t
  | .checkingOut, _ => call.settle c t
  | .wideningOther, _ => (t, call.afterClone c t)
  | .widening, _ => (t, call.afterClone c t)
  | .listing, _ => (t, .finish (.ok (.directories (nonBlankLines (outputText out)))))

/-- The files once a run of a stage has failed. -/
def cleanUp (t : FileTree) : FetchStage → FileTree
  | .cloning | .checkingOut | .wideningOther => t.remove (c.locate (call.unfinished c))
  | .widening | .listing => t

/-- What a call does when the run of a stage has ended. -/
def advance (t : FileTree) (stage : FetchStage) (command : GitCommand) (ending : GitEnd) :
    FileTree × FetchNext :=
  match ending.failure? command (timeout c command) call.token with
  | some failure => (call.cleanUp c t stage, .finish (.error failure))
  | none =>
    let out := match ending with
      | .exited _ out _ => out
      | _ => []
    call.succeed c t stage out

end FetchCall

end RepoOrbit
