import RepoOrbit.Fetch.Fetcher

/-!
# Fetching with a scripted git

A rehearsal runs a fetcher against a git whose runs are written down beforehand
(`GitScript`), in a time of its own. What happens first is done first; of two
things due at one time, the one that was set up earlier. A run that takes as long
as it may has taken too long.
-/

namespace RepoOrbit

/-- A run of git as it is written down. -/
structure GitScript where
  code : Int
  out : List UInt8
  err : List UInt8
  delay : Float
  /-- The run never ends. -/
  hangs : Bool
  /-- The run cannot be started, for the reason given. -/
  notStarted : Option String
  /-- Directories made in the clone. -/
  directories : List String
  /-- Directories made in the cache. -/
  cacheDirectories : List String
  deriving Inhabited

/-- A run of git as it took place. -/
structure GitRun where
  call : Nat
  command : GitCommand
  script : GitScript
  isOpen : Bool
  killed : Bool

/-- What is due at a later time. -/
inductive Due where
  | runEnds (run : Nat)
  | runTimesOut (run : Nat)
  | callerGivesUp (call : Nat)

/-- Something due, and when; `order` counts what was set up before. -/
structure Timer where
  time : Float
  order : Nat
  due : Due

/-- A rehearsal under way. -/
structure Rehearsal where
  fetcher : Fetcher
  clock : Float
  timers : List Timer
  timerCount : Nat
  script : List GitScript
  runs : List GitRun
  answers : List (Nat × Except CallFailure FetchAnswer)

namespace Rehearsal

variable (c : FetchConfig)

/-- A rehearsal at the beginning. -/
def start (files : FileTree) (script : List GitScript) : Rehearsal :=
  ⟨.start files, 0, [], 0, script, [], []⟩

/-- Set something up for later. -/
def schedule (r : Rehearsal) (delay : Float) (due : Due) : Rehearsal :=
  { r with
    timers := r.timers ++ [⟨r.clock + delay, r.timerCount, due⟩]
    timerCount := r.timerCount + 1 }

/-- The directories a run makes when it ends by itself. -/
def madeBy (run : GitRun) : List (List String) :=
  let base := c.locate (match run.command with
    | .clone _ target => target
    | .checkOut _ _ clone => clone
    | .listDirectories clone => clone)
  let own := match run.command with
    | .clone _ _ => if run.script.code = 0 then [base ++ [".git"]] else []
    | _ => []
  let below (base : List String) (dir : String) := base ++ (Path.ofString dir).names
  own ++ run.script.directories.map (below base) ++
    run.script.cacheDirectories.map (below (c.locate c.cache))

/-- The runs with that of this number no longer open. -/
def closeRun (runs : List GitRun) (number : Nat) (killed : Bool) : List GitRun :=
  runs.modify number fun run => { run with isOpen := false, killed := killed }

/-- The number of the open run of a call. -/
def openRun? (r : Rehearsal) (call : Nat) : Option Nat :=
  r.runs.findIdx? fun run => run.isOpen && run.call == call

/-- Start a run; one that cannot be started is open until it has been said so. -/
def startRun (r : Rehearsal) (call : Nat) (command : GitCommand) : Rehearsal :=
  let script := r.script.headD default
  let number := r.runs.length
  let run := GitRun.mk call command script true false
  let r := { r with script := r.script.drop 1, runs := r.runs ++ [run] }
  if script.notStarted.isSome then r.schedule 0 (.runEnds number)
  else
    let r := r.schedule (FetchCall.timeout c command) (.runTimesOut number)
    if script.hangs then r else r.schedule script.delay (.runEnds number)

/-- Do what a fetcher wants done. -/
def act (r : Rehearsal) : FetchAction → Rehearsal
  | .start call command => r.startRun c call command
  | .kill call =>
    match r.openRun? call with
    | some number => { r with runs := closeRun r.runs number true }
    | none => r
  | .answer call answer => { r with answers := r.answers ++ [(call, answer)] }

/-- Let the fetcher take one event. -/
def takeOne (r : Rehearsal) (event : FetchEvent) : Rehearsal :=
  let (fetcher, actions) := r.fetcher.step c event
  actions.foldl (act c) { r with fetcher }

/-- Begin the calls whose turn it is, `limit` of them at most. -/
def takeTurns : Nat → Rehearsal → Rehearsal
  | 0, r => r
  | limit + 1, r =>
    match r.fetcher.nextInTurn? c with
    | some a => takeTurns limit (r.takeOne c (.turn a.id))
    | none => r

/-- Let the fetcher take an event, and begin the calls whose turn it is then. -/
def take (r : Rehearsal) (event : FetchEvent) : Rehearsal :=
  let r := r.takeOne c event
  takeTurns c r.fetcher.calls.length r

/-- Make a directory that is not there yet. -/
def make (r : Rehearsal) (place : List String) : Rehearsal :=
  match r.fetcher.files.at? place with
  | some _ => r
  | none => r.takeOne c (.changed place (some (.directory [])))

/-- How a run ends by itself. -/
def endingOf (script : GitScript) : GitEnd :=
  match script.notStarted with
  | some reason => .notStarted reason
  | none => .exited script.code script.out script.err

/-- Let something happen that is due. -/
def fire (r : Rehearsal) : Due → Rehearsal
  | .runEnds number =>
    match r.runs[number]? with
    | some run =>
      if run.isOpen then
        let r := { r with runs := closeRun r.runs number false }
        let r := if run.script.notStarted.isSome then r else (madeBy c run).foldl (make c) r
        r.take c (.ended run.call (endingOf run.script))
      else r
    | none => r
  | .runTimesOut number =>
    match r.runs[number]? with
    | some run => if run.isOpen then r.take c (.ended run.call .timedOut) else r
    | none => r
  | .callerGivesUp call => r.take c (.cancel call)

/-- Whether a timer comes before another. -/
def Timer.before (a b : Timer) : Bool :=
  decide (a.time < b.time) || (a.time == b.time && decide (a.order < b.order))

/-- The timer that comes first. -/
def first? : List Timer → Option Timer
  | [] => none
  | t :: rest =>
    match first? rest with
    | some u => if Timer.before u t then some u else some t
    | none => some t

/-- Let happen what is due, in order, `limit` times at most. -/
def run : Nat → Rehearsal → Rehearsal
  | 0, r => r
  | limit + 1, r =>
    match first? r.timers with
    | none => r
    | some t =>
      let rest := r.timers.filter (·.order != t.order)
      let clock := if r.clock < t.time then t.time else r.clock
      run limit (fire c { r with clock, timers := rest } t.due)

/-- A call with the time after which its caller gives up. -/
structure Request where
  call : FetchCall
  givesUpAfter : Option Float

/-- The number of things that become due for one call: three runs with their time
limits, and giving up. -/
def duePerCall : Nat := 8

/-- Make calls together and go on until all are answered; `firstId` calls have been
made before. -/
def perform (r : Rehearsal) (firstId : Nat) (requests : List Request) : Rehearsal :=
  let numbered := requests.mapIdx fun i q => (firstId + i, q)
  let r := numbered.foldl (fun r (id, q) =>
    match q.givesUpAfter with
    | some delay => r.schedule delay (.callerGivesUp id)
    | none => r) r
  let r := requests.foldl (fun r q => r.take c (.request q.call)) r
  let r := run c (duePerCall * (requests.length + 1)) r
  { r with timers := [] }

/-- The answer to a call. -/
def answer? (r : Rehearsal) (id : Nat) : Option (Except CallFailure FetchAnswer) := r.answers.lookup id

end Rehearsal

end RepoOrbit
