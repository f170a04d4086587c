import RepoOrbit.Control.Session

/-!
# Sessions with scripted hands

A rehearsal runs a session in a time of its own. What each read gives, and after
how long, is written down beforehand (`ReadScript`), as is when the session is
stopped or cancelled. Of what is due at one moment, a stop or a cancellation
comes first, then a frame, then a read.
-/

namespace RepoOrbit

/-- A read as it is written down. -/
structure ReadScript where
  delay : Float
  result : ReadResult Float

/-- A rehearsal as it is written down. The camera's clock runs ahead of time by
`ahead`. -/
structure ControlScript where
  reads : List ReadScript
  framesPerSecond : Float
  opening : TrackerOpening
  runs : Nat
  stopAt : Option Float
  cancelAt : Option Float
  ahead : Float

/-- A run that has ended: how, when, and how it left the camera. -/
structure RunRecord where
  how : RunEnd
  time : Float
  mode : CameraMode

/-- A rehearsal under way: its session and its time, what is still to be read and
what is due, all that has been done and when, and the runs that have ended. -/
structure ControlRehearsal where
  session : ControlSession Float
  clock : Float
  script : List ReadScript
  reads : List (Float × Nat × ReadResult Float)
  frames : List (Float × Nat)
  stopAt : Option Float
  cancelAt : Option Float
  acts : Array (Float × SessionAct Float)
  records : List RunRecord

/-- What can be due. -/
inductive ControlDue where
  | stop
  | cancel
  | frame (run : Nat)
  | read (run : Nat) (result : ReadResult Float)

/-- The read that follows all those written down: no more pictures come. -/
def lastRead : ReadScript := ⟨0.015625, .ok none⟩

namespace ControlRehearsal

/-- A rehearsal at the beginning. -/
def start (c : ControlScript) : ControlRehearsal :=
  { session := .initial, clock := 0, script := c.reads, reads := [], frames := [], stopAt := c.stopAt
    cancelAt := c.cancelAt, acts := #[], records := [] }

/-- Note what the session has done, and what becomes due by it. -/
def note (c : ControlScript) (r : ControlRehearsal) (act : SessionAct Float) : ControlRehearsal :=
  let r := { r with acts := r.acts.push (r.clock, act) }
  match act with
  | .readBegun run =>
    let read := r.script.headD lastRead
    { r with script := r.script.drop 1, reads := r.reads ++ [(r.clock + read.delay, run, read.result)] }
  | .displayed run _ => { r with frames := r.frames ++ [(r.clock + 1.0 / c.framesPerSecond, run)] }
  | _ => r

/-- Let an event happen. -/
def take (c : ControlScript) (r : ControlRehearsal) (event : SessionEvent Float) : ControlRehearsal :=
  let (session, acts) := r.session.step event
  acts.foldl (note c) { r with session }

/-- The time of the camera. -/
def now (c : ControlScript) (r : ControlRehearsal) : Float := r.clock + c.ahead

/-- The earlier of two things that are due, the first if they are due together. -/
def earlier {β : Type} (a b : Option (Float × β)) : Option (Float × β) :=
  match a, b with
  | some x, some y => if y.1 < x.1 then some y else some x
  | some x, none => some x
  | none, b => b

/-- What is due next, and when. -/
def due? (r : ControlRehearsal) : Option (Float × ControlDue) :=
  let stop := r.stopAt.map fun t => (t, ControlDue.stop)
  let cancel := r.cancelAt.map fun t => (t, ControlDue.cancel)
  let frames := r.frames.map fun f => some (f.1, ControlDue.frame f.2)
  let reads := r.reads.map fun f => some (f.1, ControlDue.read f.2.1 f.2.2)
  (stop :: cancel :: frames ++ reads).foldl earlier none

/-- Stop all runs so far. -/
def stopAll (c : ControlScript) (r : ControlRehearsal) : ControlRehearsal :=
  (List.range r.session.runs.length).foldl (fun r i => r.take c (.stop i)) r

/-- Let what is due happen. -/
def perform (c : ControlScript) (r : ControlRehearsal) : ControlDue → ControlRehearsal
  | .stop => stopAll c { r with stopAt := none }
  | .cancel => take c { r with cancelAt := none } (.cancel (r.session.runs.length - 1))
  | .frame run =>
    let r := { r with frames := r.frames.filter (·.2 != run) }
    r.take c (.frame run (r.now c))
  | .read run result =>
    let r := { r with reads := r.reads.filter (·.2.1 != run) }
    r.take c (.readEnded run result (r.now c))

/-- How the last run has ended, if it has. -/
def lastEnd? (r : ControlRehearsal) : Option RunEnd := (r.session.runs.getLast?).bind (·.end?)

/-- Let time pass until the last run has ended, `limit` steps at most. -/
def await (c : ControlScript) : Nat → ControlRehearsal → ControlRehearsal
  | 0, r => r
  | limit + 1, r =>
    match r.lastEnd? with
    | some _ => r
    | none =>
      match r.due? with
      | none => r
      | some (time, due) =>
        let clock := if r.clock < time then time else r.clock
        await c limit (perform c { r with clock } due)

/-- Let a stop or a cancellation that is due now happen. -/
def interrupt (c : ControlScript) (r : ControlRehearsal) : ControlRehearsal :=
  let isDue (t : Option Float) : Bool := t.any fun t => t ≤ r.clock
  let r := if isDue r.stopAt then r.perform c .stop else r
  if isDue r.cancelAt then r.perform c .cancel else r

/-- Whether the signal that stops the runs has been given, when one signal serves
all of them. -/
def isSignalled (c : ControlScript) (r : ControlRehearsal) : Bool :=
  c.stopAt.isSome && r.session.runs.any (·.isStopped)

/-- The first turns of both loops of a run. -/
def firstTurns (c : ControlScript) (r : ControlRehearsal) (run : Nat) : ControlRehearsal :=
  let r := r.take c (.look run)
  if c.framesPerSecond == 0.0 then r.take c (.breakDown run .noRate)
  else r.take c (.frame run (r.now c))

/-- No fewer than the steps of a whole rehearsal. -/
def limit (c : ControlScript) : Nat :=
  let seconds := c.reads.foldl (fun sum r => sum + r.delay) (lastRead.delay * Float.ofNat c.runs)
  let frames := (seconds * c.framesPerSecond).toUInt64.toNat + 8
  2 * (c.runs * frames + c.reads.length + c.runs + 8)

/-- Run the session once. -/
def runOnce (c : ControlScript) (r : ControlRehearsal) : ControlRehearsal :=
  let run := r.session.runs.length
  let wasSignalled := r.isSignalled c
  let r := r.take c (.start c.opening (r.now c))
  let r := if wasSignalled then r.take c (.stop run) else r
  let r := firstTurns c (r.interrupt c) run
  let r := r.await c (limit c)
  let record := RunRecord.mk (r.lastEnd?.getD .cancelled) r.clock r.session.camera.mode
  { r with records := r.records ++ [record] }

/-- Do a whole rehearsal. -/
def complete (c : ControlScript) : ControlRehearsal :=
  (List.range c.runs).foldl (fun r _ => runOnce c r) (start c)

end ControlRehearsal

end RepoOrbit
