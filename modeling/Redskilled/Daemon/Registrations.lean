import Redskilled.Foundation.Machine
import Redskilled.Foundation.JsText
import Redskilled.Foundation.JsMap

/-!
# Registrations

A project asks the daemon to drain its queue by a registration, which stands
until a deadline. Renewals and the project's own observed work push the deadline
out; a registration past it lapses, and is kept recoverable for one more window
where the project was seen with work. The live and the recoverable set are
written together as one snapshot, which the next daemon starts from.

What a registration says about its work and its launch is opaque here: the types
`δ` and `ν`, with the daemon's checks of their shape. An instant is in
milliseconds, `none` where a text does not parse.
-/
namespace Redskilled.Daemon.Registrations
open Foundation

variable {δ ν : Type*}

inductive SustainSignal where
  | openWork | liveWorker

structure Registration (δ ν : Type*) where
  projectLabel : Text
  declared : δ
  launch : ν
  target : Int
  standing : Bool
  registeredAt : Option Int
  renewWithinMs : Int
  renewBy : Option Int
  /-- Absent on the record of an old daemon. -/
  renewedAt : Option (Option Int)
  renewals : Nat
  sessionRenewals : Option Nat
  launchRevision : Option Nat
  sustainedAt : Option Int
  sustains : Option Nat
  sustainedBy : Option SustainSignal

structure RegistrationRequest (δ ν : Type*) where
  projectLabel : Text
  declared : δ
  launch : ν
  target : Int
  standing : Bool
  renewWithinMs : Option Int

structure Shape (δ ν : Type*) where
  declaredOk : δ → Bool
  launchOk : ν → Bool

inductive QueueOutcome where
  | counted | unreachable | rateLimited | unconfigured
  deriving DecidableEq

structure ProjectQueue where
  projectLabel : Text
  outcome : QueueOutcome
  depth : Option Nat

structure QueueDiscovery where
  fetchedAt : Option Int
  projects : List ProjectQueue

structure Lapse where
  projectLabel : Text
  registeredAt : Option Int
  at_ : Option Int

structure Stop where
  projectLabel : Text
  at_ : Option Int

structure Poll where
  labels : List Text
  now : Option Int

structure State (δ ν : Type*) where
  registrations : JsMap Text (Registration δ ν)
  recoverable : JsMap Text (Registration δ ν)
  /-- The snapshot last handed to the store, which writes them in order. -/
  durable : List (Registration δ ν)
  lapses : List Lapse
  stops : List Stop
  orphaned : List Text
  lastQueue : Option QueueDiscovery
  /-- The projects of the live Workers. -/
  workers : List Text
  polls : List Poll

inductive Absence where
  | never
  | lapsed (at_ registeredAt : Option Int)
  | stopped (at_ : Option Int)
  | orphaned
  deriving DecidableEq

inductive RequestError where
  | refusedCrossProject
  | alreadyRegistered
  | malformed
  | unrunnable
  | unregistered (absence : Absence)
  /-- `toISOString` of an instant past the calendar. -/
  | rangeError
  deriving DecidableEq

/-- The state after an operation and what it threw, if it did. -/
abbrev Outcome (δ ν : Type*) := State δ ν × Option RequestError

def registrationTtlMs : Int := 300000

def lapseMemory : Nat := 16

/-- `new Date(ms).toISOString()`. -/
def isoInstant (ms : Int) : Option Int :=
  if ms.natAbs ≤ 8640000000000000 then some ms else none

def permitted (session : Option Text) (target : Text) : Bool :=
  session.all fun s => s = [] || s = target

def buildProjectRegistration (shape : Shape δ ν) (request : RegistrationRequest δ ν)
    (now : Option Int) (held : Option (Registration δ ν)) :
    Except RequestError (Registration δ ν) :=
  let within := request.renewWithinMs.getD registrationTtlMs
  if held.isSome then .error .alreadyRegistered
  else if request.projectLabel = [] ∨ shape.declaredOk request.declared = false ∨
      shape.launchOk request.launch = false ∨ request.target < 0 ∨ within ≤ 0 then
    .error .malformed
  else
    match now with
    | none => .error .malformed
    | some now =>
      match isoInstant (now + within) with
      | none => .error .rangeError
      | some renewBy =>
        .ok
          { projectLabel := request.projectLabel, declared := request.declared
            launch := request.launch, target := request.target, standing := request.standing
            registeredAt := some now, renewWithinMs := within, renewBy := some renewBy
            renewedAt := some (some now), renewals := 0, sessionRenewals := some 0
            launchRevision := some 0, sustainedAt := none, sustains := none
            sustainedBy := none }

def renewProjectRegistration (shape : Shape δ ν) (held : Registration δ ν) (now : Option Int)
    (renewWithinMs : Option Int) (launch : Option ν) :
    Except RequestError (Registration δ ν) :=
  let within := renewWithinMs.getD held.renewWithinMs
  match now with
  | none => .error .malformed
  | some now =>
    if within ≤ 0 ∨ launch.any (fun l => !shape.launchOk l) then .error .malformed
    else
      match isoInstant (now + within) with
      | none => .error .rangeError
      | some renewBy =>
        let revision := held.launchRevision.getD 0
        .ok
          { held with
            launch := launch.getD held.launch
            launchRevision := some (if launch.isSome then revision + 1 else revision)
            renewWithinMs := within
            renewedAt := some (some now)
            renewBy := some renewBy
            renewals := held.renewals + 1
            sessionRenewals := some (held.sessionRenewals.getD held.renewals + 1) }

inductive SustainVerdict where
  | signal (signal : SustainSignal)
  | drained
  | uncounted

def sustainSignal (queue : Option ProjectQueue) (liveWorkers : Nat) : SustainVerdict :=
  let depth := queue.bind fun q => if q.outcome = .counted then q.depth else none
  if depth.any (0 < ·) then .signal .openWork
  else if 0 < liveWorkers then .signal .liveWorker
  else if depth = some 0 then .drained
  else .uncounted

def sustainProjectRegistration (held : Registration δ ν) (now : Int)
    (queue : Option ProjectQueue) (liveWorkers : Nat) :
    Except RequestError (Registration δ ν × SustainVerdict) :=
  match sustainSignal queue liveWorkers with
  | .signal signal =>
    match isoInstant (now + held.renewWithinMs) with
    | none => .error .rangeError
    | some renewBy =>
      .ok
        ({ held with
            renewBy := some renewBy
            sustainedAt := some now
            sustains := some (held.sustains.getD 0 + 1)
            sustainedBy := some signal
            renewals := held.renewals + 1
            sessionRenewals := some (held.sessionRenewals.getD held.renewals) },
          .signal signal)
  | verdict => .ok (held, verdict)

/-- An undatable deadline or clock is not a lapse. -/
def hasRegistrationLapsed (registration : Registration δ ν) (now : Option Int) : Bool :=
  match registration.renewBy, now with
  | some renewBy, some now => decide (renewBy ≤ now)
  | _, _ => false

def mayRecoverRegistration (registration : Registration δ ν) (now : Option Int) : Bool :=
  registration.standing ||
    match now, registration.renewBy with
    | none, _ => true
    | some now, some renewBy => decide (now - renewBy ≤ registration.renewWithinMs)
    | some _, none => false

namespace State

/-- `persistRegistrationIntent`: the recoverable set overlaid with the live one. -/
def persist (s : State δ ν) : State δ ν :=
  { s with
    durable :=
      (s.registrations.entries.foldl (fun m e => JsMap.set m e.1 e.2) s.recoverable).values }

def liveWorkers (s : State δ ν) (label : Text) : Nat := s.workers.count label

def observed (s : State δ ν) (label : Text) : Option ProjectQueue :=
  s.lastQueue.bind fun queue => queue.projects.find? (·.projectLabel = label)

def bounded {α : Type*} (rows : List α) : List α := rows.drop (rows.length - lapseMemory)

/-- The row of a poll no older than one window of the registration. -/
def freshRow (s : State δ ν) (held : Registration δ ν) (now : Int) : Option ProjectQueue :=
  match s.lastQueue.bind (·.fetchedAt) with
  | none => none
  | some pollAt =>
    if now - pollAt ≤ held.renewWithinMs then s.observed held.projectLabel else none

def sustainOne (now : Int) (acc : Outcome δ ν × Bool) (held : Registration δ ν) :
    Outcome δ ν × Bool :=
  match acc with
  | ((s, none), changed) =>
    match sustainProjectRegistration held now (s.freshRow held now)
        (s.liveWorkers held.projectLabel) with
    | .error e => ((s, some e), changed)
    | .ok (registration, .signal _) =>
      (({ s with registrations := s.registrations.set held.projectLabel registration }, none), true)
    | .ok _ => ((s, none), changed)
  | thrown => thrown

/-- What a loop leaves: the snapshot is written where it changed something and
did not throw. -/
def closeLoop (acc : Outcome δ ν × Bool) : Outcome δ ν :=
  match acc with
  | ((s, none), true) => (s.persist, none)
  | (outcome, _) => outcome

def sustainRegistrations (s : State δ ν) (now : Option Int) : Outcome δ ν :=
  match now with
  | none => (s, none)
  | some now => closeLoop (s.registrations.values.foldl (sustainOne now) ((s, none), false))

def lapseOne (now : Option Int) (s : State δ ν) (lapsed : Registration δ ν) : State δ ν :=
  let label := lapsed.projectLabel
  let drained := (s.observed label).all fun q => q.outcome ≠ .counted || q.depth.getD 0 = 0
  let s : State δ ν := { s with registrations := s.registrations.erase label }
  let s : State δ ν :=
    if drained ∧ s.liveWorkers label = 0 then s
    else { s with recoverable := s.recoverable.set label lapsed }
  { s with
    lapses :=
      bounded (s.lapses ++ [⟨label, lapsed.registeredAt, if now.isSome then now else lapsed.renewBy⟩]) }

/-- Sustain, then drop what lapsed. -/
def expireLapsedRegistrations (s : State δ ν) (now : Option Int) : Outcome δ ν :=
  match s.sustainRegistrations now with
  | (s, some e) => (s, some e)
  | (s, none) =>
    let lapsed := s.registrations.values.filter (hasRegistrationLapsed · now)
    let s' := lapsed.foldl (lapseOne now) s
    (if lapsed = [] then s' else s'.persist, none)

def recoverOne (now : Int) (acc : Outcome δ ν × Bool) (label : Text)
    (lapsed : Registration δ ν) : Outcome δ ν × Bool :=
  match acc with
  | ((s, none), changed) =>
    let dropped := { s with recoverable := s.recoverable.erase label }
    if mayRecoverRegistration lapsed (some now) = false then ((dropped, none), true)
    else
      match sustainProjectRegistration lapsed now (s.observed label) (s.liveWorkers label) with
      | .error e => ((s, some e), changed)
      | .ok (registration, .signal _) =>
        (({ dropped with registrations := s.registrations.set label registration }, none), true)
      | .ok (_, .drained) => ((dropped, none), true)
      | .ok (_, .uncounted) => ((s, none), changed)
  | thrown => thrown

def recoverRegistrations (s : State δ ν) (now : Option Int) : Outcome δ ν :=
  match now with
  | none => (s, none)
  | some now =>
    closeLoop (s.recoverable.entries.foldl (fun acc e => recoverOne now acc e.1 e.2)
      ((s, none), false))

def removeRegistrationHistory (s : State δ ν) (label : Text) : State δ ν :=
  { s with
    recoverable := s.recoverable.erase label
    lapses := s.lapses.filter (·.projectLabel ≠ label)
    stops := s.stops.filter (·.projectLabel ≠ label)
    orphaned := s.orphaned.filter (· ≠ label) }

def andThen (outcome : Outcome δ ν) (f : State δ ν → Outcome δ ν) : Outcome δ ν :=
  match outcome with
  | (s, none) => f s
  | thrown => thrown

def registerProject (shape : Shape δ ν) (s : State δ ν) (request : RegistrationRequest δ ν)
    (session : Option Text) (now : Option Int) (unrunnable : Bool) : Outcome δ ν :=
  if permitted session request.projectLabel = false then (s, some .refusedCrossProject)
  else
    andThen (s.expireLapsedRegistrations now) fun s =>
      match buildProjectRegistration shape request now
          (s.registrations.lookup request.projectLabel) with
      | .error e => (s, some e)
      | .ok registration =>
        if unrunnable then (s, some .unrunnable)
        else
          let label := registration.projectLabel
          let s := { s with registrations := s.registrations.set label registration }
          (s.persist.removeRegistrationHistory label, none)

/-- Why a project has no registration, as a renewal says it. -/
def absence (s : State δ ν) (label : Text) : Absence :=
  if label ∈ s.orphaned then .orphaned
  else
    match s.stops.reverse.find? (·.projectLabel = label),
        s.lapses.reverse.find? (·.projectLabel = label) with
    | some stop, _ => .stopped stop.at_
    | none, some lapse => .lapsed lapse.at_ lapse.registeredAt
    | none, none => .never

def renewProject (shape : Shape δ ν) (s : State δ ν) (label : Text) (session : Option Text)
    (renewWithinMs : Option Int) (launch : Option ν) (now : Option Int) : Outcome δ ν :=
  if permitted session label = false then (s, some .refusedCrossProject)
  else
    andThen (s.expireLapsedRegistrations now) fun s =>
      match s.registrations.lookup label with
      | none => (s, some (.unregistered (s.absence label)))
      | some held =>
        match renewProjectRegistration shape held now renewWithinMs launch with
        | .error e => (s, some e)
        | .ok registration =>
          let s :=
            { s with registrations := s.registrations.set registration.projectLabel registration }
          (s.persist, none)

def deregisterProject (s : State δ ν) (label : Text) (session : Option Text)
    (now : Option Int) : Outcome δ ν :=
  if permitted session label = false then (s, some .refusedCrossProject)
  else
    let released := (s.registrations.lookup label).isSome || (s.recoverable.lookup label).isSome
    let s :=
      { s with
        registrations := s.registrations.erase label
        recoverable := s.recoverable.erase label }
    if released then
      let s := s.removeRegistrationHistory label
      (({ s with stops := bounded (s.stops ++ [⟨label, now⟩]) } : State δ ν).persist, none)
    else (s, none)

def pruneRecoverable (s : State δ ν) (now : Option Int) : State δ ν :=
  s.recoverable.entries.foldl
    (fun s e =>
      if mayRecoverRegistration e.2 now = false then
        { s with recoverable := s.recoverable.erase e.1 }
      else s) s

/-- `pollQueueDiscovery` up to its fetch. Without a transport the poll ends here
with a document that counts nothing. -/
def beginPoll (s : State δ ν) (now : Option Int) (transport : Bool) : Outcome δ ν :=
  andThen (s.expireLapsedRegistrations now) fun s =>
    let s := s.pruneRecoverable now
    let labels := (s.registrations.entries.foldl (fun m e => JsMap.set m e.1 e.2) s.recoverable).keys
    if labels = [] then (s, none)
    else if transport then ({ s with polls := s.polls ++ [⟨labels, now⟩] }, none)
    else
      ({ s with lastQueue := some ⟨now, labels.map fun l => ⟨l, .unconfigured, none⟩⟩ }, none)

def finishPoll (s : State δ ν) (poll : Poll) (answer : Text → QueueOutcome × Option Nat)
    (observedAt : Option Int) : Outcome δ ν :=
  let queue : QueueDiscovery :=
    ⟨poll.now, poll.labels.map fun l => ⟨l, (answer l).1, (answer l).2⟩⟩
  andThen ({ s with lastQueue := some queue }.recoverRegistrations observedAt)
    fun s => s.sustainRegistrations observedAt

end State

inductive Step (δ ν : Type*) where
  | register (request : RegistrationRequest δ ν) (session : Option Text) (now : Option Int)
      (unrunnable : Bool)
  | renew (label : Text) (session : Option Text) (renewWithinMs : Option Int) (launch : Option ν)
      (now : Option Int)
  | deregister (label : Text) (session : Option Text) (now : Option Int)
  /-- The registration timer, and every read of the set. -/
  | sweep (now : Option Int)
  | pollStart (now : Option Int) (transport : Bool)
  | pollAnswer (i : Nat) (answer : Text → QueueOutcome × Option Nat) (observedAt : Option Int)
  | pollFail (i : Nat)
  | workers (labels : List Text)

def step (shape : Shape δ ν) (s : State δ ν) : Step δ ν → Option (Outcome δ ν)
  | .register request session now unrunnable =>
    some (s.registerProject shape request session now unrunnable)
  | .renew label session renewWithinMs launch now =>
    some (s.renewProject shape label session renewWithinMs launch now)
  | .deregister label session now => some (s.deregisterProject label session now)
  | .sweep now => some (s.expireLapsedRegistrations now)
  | .pollStart now transport => some (s.beginPoll now transport)
  | .pollAnswer i answer observedAt =>
    s.polls[i]?.map fun poll =>
      { s with polls := s.polls.eraseIdx i }.finishPoll poll answer observedAt
  | .pollFail i => s.polls[i]?.map fun _ => ({ s with polls := s.polls.eraseIdx i }, none)
  | .workers labels => some ({ s with workers := labels }, none)

inductive RenewalStatus where
  | renewing | selfRenewing | runningOn
  deriving DecidableEq

def withinCadence (registration : Registration δ ν) (now : Int) (at_ : Option Int) : Bool :=
  at_.any fun at_ => 2 * (now - at_) ≤ registration.renewWithinMs

def registrationRenewalStatus (registration : Registration δ ν) (now : Int) : RenewalStatus :=
  if withinCadence registration now (registration.renewedAt.getD registration.registeredAt) then
    .renewing
  else if withinCadence registration now registration.sustainedAt then .selfRenewing
  else .runningOn

/-- Whether the successor keeps a restored registration live. -/
def keepsLive (workers : List Text) (now : Option Int) (registration : Registration δ ν) : Bool :=
  registration.renewBy.isNone ||
    (now.map (registrationRenewalStatus registration)).getD .renewing ≠ .runningOn ||
    registration.projectLabel ∈ workers

def boot (restored : List (Registration δ ν)) (workers orphaned : List Text)
    (startedAt : Option Int) : State δ ν :=
  let hold (m : JsMap Text (Registration δ ν)) (r : Registration δ ν) := JsMap.set m r.projectLabel r
  let live := restored.filter (keepsLive workers startedAt)
  let abandoned := restored.filter fun r => !keepsLive workers startedAt r
  let s : State δ ν :=
    { registrations := live.foldl hold ∅
      recoverable := (abandoned.filter (mayRecoverRegistration · startedAt)).foldl hold ∅
      durable := restored
      lapses :=
        State.bounded (abandoned.map fun r =>
          ⟨r.projectLabel, r.registeredAt, if startedAt.isSome then startedAt else r.renewBy⟩)
      stops := [], orphaned, lastQueue := none, workers, polls := [] }
  if restored = [] then s else s.persist

/-- The daemon starts from a snapshot with one registration a label, as every
snapshot has, and recovers what it can at once. -/
def daemon (shape : Shape δ ν) : Machine (State δ ν) (Step δ ν) where
  start s :=
    ∃ restored workers orphaned startedAt now, (restored.map (·.projectLabel)).Nodup ∧
        ((boot restored workers orphaned startedAt).recoverRegistrations now) = (s, none)
  next s a := (step shape s a).map Prod.fst

end Redskilled.Daemon.Registrations
