import RepoOrbit.Fetch.Call

/-!
# Calls side by side

Many calls may be under way at once (`Fetcher`). Calls for one clone take turns in
the order in which they came, so that at most one run of git is at work in it: the
clone belongs to the first of its calls (`Fetcher.isInTurn`) until that is answered.
`Fetcher.step` takes an event and says what is to be done: start a run, kill one,
or answer a call.
-/

namespace RepoOrbit

/-- A call under way with its number: the run it waits for, or nothing if it has
not begun. -/
structure ActiveCall where
  id : Nat
  call : FetchCall
  waitsFor : Option (FetchStage × GitCommand)

/-- The files, the calls under way in the order in which they came, and how many
calls have been asked for so far, which numbers the next one. -/
structure Fetcher where
  files : FileTree
  calls : List ActiveCall
  requests : Nat

/-- What happens to a fetcher. -/
inductive FetchEvent where
  | request (call : FetchCall)
  /-- A call begins if its turn has come. -/
  | turn (id : Nat)
  /-- The run that a call waits for has ended. -/
  | ended (id : Nat) (ending : GitEnd)
  /-- The caller gives up. -/
  | cancel (id : Nat)
  /-- Something else stands at a place, or nothing any more; git or another program
  has seen to it. -/
  | changed (place : List String) (content : Option FileTree)

/-- What a fetcher has done in answer to an event. -/
inductive FetchAction where
  | start (id : Nat) (command : GitCommand)
  | kill (id : Nat)
  | answer (id : Nat) (answer : Except CallFailure FetchAnswer)

namespace Fetcher

variable (c : FetchConfig)

/-- The fetcher before its first call. -/
def start (files : FileTree) : Fetcher := ⟨files, [], 0⟩

/-- The call of a number, if it is under way. -/
def call? (f : Fetcher) (id : Nat) : Option ActiveCall := f.calls.find? (·.id == id)

/-- Let a call do what comes next. -/
def proceed (f : Fetcher) (id : Nat) (next : FetchNext) : Fetcher × List FetchAction :=
  match next with
  | .run stage command =>
    ({ f with calls := f.calls.map fun a =>
        if a.id = id then { a with waitsFor := some (stage, command) } else a },
      [.start id command])
  | .finish answer => ({ f with calls := f.calls.filter (·.id != id) }, [.answer id answer])

/-- Whether a call is the first of those for its clone. -/
def isInTurn (f : Fetcher) (a : ActiveCall) : Bool :=
  (f.calls.find? fun b => b.call.target c == a.call.target c).any (·.id == a.id)

/-- The first call that has not begun and whose turn it is. -/
def nextInTurn? (f : Fetcher) : Option ActiveCall :=
  f.calls.find? fun a => a.waitsFor.isNone && f.isInTurn c a

/-- Begin a call if its turn has come. -/
def takeTurn (f : Fetcher) (id : Nat) : Fetcher × List FetchAction :=
  match f.call? id with
  | some ⟨_, call, none⟩ =>
    if f.isInTurn c ⟨id, call, none⟩ then
      let (files, next) := call.begin c f.files
      proceed { f with files } id next
    else (f, [])
  | _ => (f, [])

/-- End the run that a call waits for. -/
def endRun (f : Fetcher) (id : Nat) (ending : GitEnd) : Fetcher × List FetchAction :=
  match f.call? id with
  | some ⟨_, call, some (stage, command)⟩ =>
    let (files, next) := call.advance c f.files stage command ending
    proceed { f with files } id next
  | _ => (f, [])

/-- Take an event. -/
def step (f : Fetcher) : FetchEvent → Fetcher × List FetchAction
  | .request call =>
    let id := f.requests
    let f := { f with requests := id + 1 }
    match call.refusal? with
    | some failure => (f, [.answer id (.error failure)])
    | none => ({ f with calls := f.calls ++ [⟨id, call, none⟩] }, [])
  | .turn id => f.takeTurn c id
  | .ended id .timedOut =>
    let (f, actions) := f.endRun c id .timedOut
    (f, .kill id :: actions)
  | .ended id ending => f.endRun c id ending
  | .cancel id =>
    match f.call? id with
    | some ⟨_, _, some _⟩ =>
      let (f, actions) := f.endRun c id .cancelled
      (f, .kill id :: actions)
    | some ⟨_, _, none⟩ =>
      ({ f with calls := f.calls.filter (·.id != id) }, [.answer id (.error .cancelled)])
    | none => (f, [])
  | .changed place content => ({ f with files := f.files.change place content }, [])

end Fetcher

end RepoOrbit
