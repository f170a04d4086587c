import RepoOrbit.Scan.Outcome

/-!
# Scans that share their work

Scans of one repository and directory that are under way at one time share one
build (`ScanService`): the first of them starts it, and all get its outcome. A
build is forgotten as soon as it has ended, before anyone hears of it; a scan
that gives up does not stop the build it waits for.

What has become possible but has not happened yet stands in a queue
(`ScanService.queue`), and each event `next` lets one thing happen.
-/

namespace RepoOrbit

/-- A build, and how it ended if it has. -/
structure ScanBuild where
  options : BuildOptions
  outcome : Option ScanOutcome

/-- How far a scan is. -/
inductive ScanState where
  | waiting
  | received
  | cancelled
  deriving DecidableEq, Repr

/-- A scan: the number of its build, and how far it is. -/
structure Scan where
  build : Nat
  state : ScanState
  deriving DecidableEq, Repr

/-- Something that is about to happen. -/
inductive ScanStep where
  /-- A build calls for its repository. -/
  | begin (build : Nat)
  /-- A build that has ended is forgotten. -/
  | forget (build : Nat)
  /-- A scan gets the outcome of its build. -/
  | deliver (scan : Nat)
  deriving DecidableEq, Repr

/-- All builds and scans so far, in the order in which they came; the builds under
way by their keys; what is about to happen; and the builds that have called for
their repository. -/
structure ScanService where
  builds : List ScanBuild
  scans : List Scan
  jobs : List (String × Nat)
  queue : List ScanStep
  fetched : List Nat

/-- What happens to a service. -/
inductive ScanEvent where
  | request (options : BuildOptions)
  /-- The first thing in the queue happens. -/
  | next
  /-- The repository of a build has come, or something has gone wrong in the build. -/
  | arrived (build : Nat) (checkout : Except ScanFailure Checkout)
  | cancel (scan : Nat)

namespace ScanService

/-- A service before its first scan. -/
def empty : ScanService := ⟨[], [], [], [], []⟩

/-- The keys of the builds under way. -/
def inFlight (s : ScanService) : List String := s.jobs.map (·.1)

/-- Add a scan to a build. -/
def join (s : ScanService) (build : Nat) : ScanService :=
  let hasEnded := (s.builds[build]?).any (·.outcome.isSome)
  { s with scans := s.scans ++ [⟨build, if hasEnded then .received else .waiting⟩] }

/-- Begin a scan. -/
def request (s : ScanService) (options : BuildOptions) : ScanService :=
  match s.jobs.lookup options.jobKey with
  | some build => s.join build
  | none =>
    let build := s.builds.length
    let started := ScanBuild.mk options none
    let s := { s with
      builds := s.builds ++ [started]
      jobs := s.jobs ++ [(options.jobKey, build)]
      queue := s.queue ++ [ScanStep.begin build] }
    s.join build

/-- Let something happen. -/
def perform (s : ScanService) : ScanStep → ScanService
  | .begin build => { s with fetched := s.fetched ++ [build] }
  | .forget build => { s with jobs := s.jobs.filter (·.2 != build) }
  | .deliver scan =>
    { s with scans := s.scans.modify scan fun w =>
        if w.state = .waiting then { w with state := .received } else w }

/-- End a build; its scans will hear of it in the order in which they came. -/
def finish (s : ScanService) (build : Nat) (checkout : Except ScanFailure Checkout) : ScanService :=
  match s.builds[build]? with
  | some b =>
    if b.outcome.isSome then s
    else
      let waiting := (List.range s.scans.length).filter fun i =>
        (s.scans[i]?).any fun w => w.build == build && w.state == .waiting
      { s with
        builds := s.builds.set build { b with outcome := some (scanOutcome b.options checkout) }
        queue := s.queue ++ ScanStep.forget build :: waiting.map ScanStep.deliver }
  | none => s

/-- Take an event. -/
def step (s : ScanService) : ScanEvent → ScanService
  | .request options => s.request options
  | .next =>
    match s.queue with
    | [] => s
    | q :: rest => perform { s with queue := rest } q
  | .arrived build checkout => s.finish build checkout
  | .cancel scan =>
    { s with scans := s.scans.modify scan fun w =>
        if w.state = .waiting then { w with state := .cancelled } else w }

/-- The outcome that a scan has received. -/
def outcome? (s : ScanService) (scan : Nat) : Option ScanOutcome :=
  match s.scans[scan]? with
  | some w => if w.state = .received then (s.builds[w.build]?).bind (·.outcome) else none
  | none => none

/-- Let everything in the queue happen. -/
def settle (s : ScanService) : ScanService :=
  let all := s.queue
  all.foldl perform { s with queue := [] }

end ScanService

end RepoOrbit
