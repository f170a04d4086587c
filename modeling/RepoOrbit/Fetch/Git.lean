import RepoOrbit.Fetch.Fault

/-!
# Runs of git

The commands that a fetch needs (`GitCommand`), with their arguments, and the
ways in which a run of one ends (`GitEnd`).
-/

namespace RepoOrbit

/-- Whether the directories to check out are set anew or added to. -/
inductive SparseMode where
  | set
  | add
  deriving DecidableEq, Repr

/-- The word for it on the command line. -/
def SparseMode.word : SparseMode → String
  | .set => "set"
  | .add => "add"

/-- A command of git. -/
inductive GitCommand where
  | clone (address : String) (target : Path)
  | checkOut (mode : SparseMode) (dir : String) (clone : Path)
  | listDirectories (clone : Path)
  deriving DecidableEq, Repr

namespace GitCommand

/-- The arguments of a command. -/
def arguments : GitCommand → List String
  | .clone address target =>
    ["clone", "--depth", "1", "--filter=blob:none", "--sparse", address, target.toString]
  | .checkOut mode dir _ => ["sparse-checkout", mode.word, dir]
  | .listDirectories _ => ["ls-tree", "-d", "--name-only", "HEAD"]

/-- The directory a command runs in, if it is not the current one. -/
def directory? : GitCommand → Option Path
  | .clone _ _ => none
  | .checkOut _ _ place => some place
  | .listDirectories place => some place

/-- What a command is called in messages. -/
def step (c : GitCommand) : String := "git " ++ c.arguments.headD ""

end GitCommand

/-- How a run ends. -/
inductive GitEnd where
  | exited (code : Int) (out err : List UInt8)
  /-- It could not be started. -/
  | notStarted (reason : String)
  /-- It took too long and was killed. -/
  | timedOut
  /-- Its caller gave up and it was killed. -/
  | cancelled
  deriving Repr

/-- What a program wrote, as text. -/
def outputText (bytes : List UInt8) : String := String.ofList (Text.decode bytes)

/-- Why a run failed, if it did; `timeout` is the time it was given. -/
def GitEnd.failure? (command : GitCommand) (timeout : Float) (token : Option String) :
    GitEnd → Option CallFailure
  | .exited code _ err =>
    if code = 0 then none
    else some (.fetch ((FetchFault.stepFailed command.step code (outputText err)).toError token))
  | .notStarted reason => some (.fetch ((FetchFault.notStarted command.step reason).toError token))
  | .timedOut => some (.fetch ((FetchFault.timedOut command.step timeout).toError token))
  | .cancelled => some .cancelled

/-- Whether a character ends a line; a line end of two characters ends one line
and begins an empty one. -/
def isLineEnd (c : Char) : Bool :=
  let n := c.toNat
  (0x0A ≤ n && n ≤ 0x0D) || (0x1C ≤ n && n ≤ 0x1E) || n == 0x85 || n == 0x2028 || n == 0x2029

/-- The lines of a text that are not blank. -/
def nonBlankLines (s : String) : List String :=
  (s.splitToList isLineEnd).filter fun line => line.toList.any fun c => !Text.isWhite c

end RepoOrbit
