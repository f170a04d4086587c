import RepoOrbit.Camera.Writing
import RepoOrbit.CommandLine.Values
import RepoOrbit.Control.Rehearsal
import RepoOrbit.Control.Tracker
import RepoOrbit.Fetch.Rehearsal
import RepoOrbit.Files.Write
import RepoOrbit.Scan.Outcome
import RepoOrbit.Settings.Settings

/-!
# What a command needs and what it leaves

`Surroundings` is everything a command depends on, and `Outcome` everything that
can be seen of it afterwards. A command that does not succeed ends for a reason
(`Ending`): it reports an error, or something goes wrong that it does not expect
(`Crash`).
-/

namespace RepoOrbit.CommandLine

/-- Hands that are written down: what comes of opening their tracker, and what it
reads. -/
structure HandsScript where
  opening : TrackerOpening
  reads : List ReadScript

/-- Everything a command depends on: where it is run, what git does, what stands
ready to track hands, and a script to be taken in place of that. Unfinished clones
are marked with `tag`. -/
structure Surroundings extends Whereabouts where
  git : List GitScript
  tag : String
  vision : VisionStack
  hands : Option HandsScript

/-- Something that a command does not expect. -/
inductive Crash where
  | unreadableSettings
  | badSettings
  | call (failure : CallFailure)
  | outside
  | write (fault : WriteFault)
  | session (mishap : Mishap)

/-- Why a command does not succeed. -/
inductive Ending where
  | reported (message : String)
  | crashed (crash : Crash)

/-- A session that a command has held: the camera and the model that its tracker
was made for, and all that it did. -/
structure HeldSession where
  cameraIndex : Int
  model : String
  acts : List (SessionAct Float)

/-- All that can be seen of a command: its code, what it did not expect, its
output and messages, the output as values if it is made of lines, the files, the
runs of git, the file it wrote, and the session it held. -/
structure Outcome where
  code : Nat := 0
  crash : Option Crash := none
  out : String := ""
  err : String := ""
  lines : List Value := []
  files : FileTree
  runs : List GitRun := []
  written : Option (Path × String) := none
  session : Option HeldSession := none

/-- The outcome of a command that has not done anything. -/
def Surroundings.nothing (s : Surroundings) : Outcome := { files := s.files }

/-- End a command with a message and the code of failure. -/
def Outcome.end (o : Outcome) : Ending → Outcome
  | .reported message => { o with code := 1, err := o.err ++ "Error: " ++ message ++ "\n" }
  | .crashed crash => { o with code := 1, crash := some crash }

/-- The settings for a command. -/
def Surroundings.settings (s : Surroundings) : Except Ending Settings :=
  let load (file : Option String) : Except Ending Settings :=
    match Settings.load [] s.environment file with
    | .ok settings => .ok settings
    | .refused _ => .error (.crashed .badSettings)
  match s.files.find? (s.home ++ [".env"]) with
  | some (_, .file bytes) =>
    match String.fromUTF8? (ByteArray.mk bytes.toArray) with
    | some text => load (some text)
    | none => .error (.crashed .unreadableSettings)
  | _ => load none

/-- How repositories are fetched by a command. -/
def Surroundings.fetchConfig (s : Surroundings) (settings : Settings) : FetchConfig where
  baseUrl := settings.gitBaseUrl
  cache := settings.cacheDir
  home := s.home
  cloneTimeout := settings.cloneTimeout
  checkoutTimeout := settings.checkoutTimeout

/-- A failed fetch as it is seen from outside of a scan. -/
def reportFetch (token : Option String) : CallFailure → Ending
  | .fetch error => .reported (Text.redact error.message token.toList)
  | failure => .crashed (.call failure)

/-- A failed fetch as a scan sees it. -/
def scanFailure : CallFailure → ScanFailure
  | .fetch error => .fetch error
  | .address fault => .other "failure" fault.message
  | .cache fault => .other "failure" fault.message
  | .cancelled => .other "cancelled" ""

end RepoOrbit.CommandLine
