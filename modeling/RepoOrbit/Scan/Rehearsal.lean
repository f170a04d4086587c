import RepoOrbit.Scan.Service

/-!
# Scanning with a scripted fetcher

A rehearsal runs a scan service against a fetcher whose answers are written down
beforehand (`FetchScript`), in a time of its own. At every moment all that can
happen happens before the next step is taken.
-/

namespace RepoOrbit

/-- The answer to a fetch as it is written down: after how long, and what. -/
structure FetchScript where
  delay : Float
  answer : Except ScanFailure Checkout

/-- A repository that is on its way to a build. -/
structure Arrival where
  time : Float
  build : Nat
  answer : Except ScanFailure Checkout

/-- A rehearsal under way; the fetches beyond those written down are answered by
`usual`. -/
structure ScanRehearsal where
  service : ScanService
  clock : Float
  arrivals : List Arrival
  script : List FetchScript
  usual : FetchScript

namespace ScanRehearsal

/-- A rehearsal at the beginning. -/
def start (script : List FetchScript) (usual : FetchScript) : ScanRehearsal :=
  ⟨.empty, 0, [], script, usual⟩

/-- Let everything in the queue happen, and answer the fetches that are new. -/
def settle (r : ScanRehearsal) : ScanRehearsal :=
  let before := r.service.fetched.length
  let service := r.service.settle
  (service.fetched.drop before).foldl (fun r build =>
    let s := r.script.headD r.usual
    let arrival := Arrival.mk (r.clock + s.delay) build s.answer
    { r with script := r.script.drop 1, arrivals := r.arrivals ++ [arrival] }) { r with service }

/-- The first of the arrivals due up to a time, the earlier one of two at one
moment. -/
def due? (time : Float) : List Arrival → Option Arrival
  | [] => none
  | a :: rest =>
    match due? time rest with
    | some b => if a.time ≤ b.time then some a else some b
    | none => if a.time ≤ time then some a else none

/-- Let the arrivals up to a time happen, `limit` of them at most. -/
def arrive (time : Float) : Nat → ScanRehearsal → ScanRehearsal
  | 0, r => r
  | limit + 1, r =>
    match due? time r.arrivals with
    | none => r
    | some a =>
      let clock := if r.clock < a.time then a.time else r.clock
      let r := { r with
        clock, arrivals := r.arrivals.filter (·.build != a.build)
        service := r.service.step (.arrived a.build a.answer) }
      arrive time limit r.settle

/-- Let everything happen that can happen up to a time. -/
def advanceTo (r : ScanRehearsal) (time : Float) : ScanRehearsal :=
  let r := r.settle
  let r := arrive time r.service.builds.length r
  { r with clock := if r.clock < time then time else r.clock }

/-- Let time pass. -/
def sleep (r : ScanRehearsal) (seconds : Float) : ScanRehearsal := r.advanceTo (r.clock + seconds)

/-- Take an event, and let everything happen that can happen now. -/
def take (r : ScanRehearsal) (event : ScanEvent) : ScanRehearsal :=
  advanceTo { r with service := r.service.step event } r.clock

/-- Wait until every build has ended. -/
def await (r : ScanRehearsal) : ScanRehearsal :=
  arrive (1 / 0) r.service.builds.length r

end ScanRehearsal

end RepoOrbit
