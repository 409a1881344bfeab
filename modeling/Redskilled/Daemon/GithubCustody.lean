import Redskilled.Foundation.JsText
import Redskilled.Foundation.Machine
import Redskilled.Foundation.Retention

/-!
# Merge custody

The custodian drives every pull request that was handed to it until the forge tells that
it is merged or closed. A pass observes the pull request and arms it where it is open,
has no native intent yet, and has the head that was validated. The next pass is for a
timer to start.

The records are in memory and on the disk. The operations that change them run one after
another, and each changes the memory before it writes the disk. The calls of the forge
and the timers run beside them.
-/
namespace Redskilled.Daemon.GithubCustody
open Foundation

structure Key where
  projectId : Text
  pullRequest : ℕ
  deriving DecidableEq

structure Project where
  projectId : Text
  credentialProfile : Text
  deriving DecidableEq

inductive ForgeState where
  | unknown
  | openClean
  | openPending
  | openBlocked
  | merged
  | closed
  | unavailable
  deriving DecidableEq

structure Handoff where
  pullRequest : ℕ
  ownerTicket : ℕ
  branch : Text
  base : Text
  armedHead : Option Text
  deriving DecidableEq

structure ForgeView where
  forgeState : ForgeState
  nativeIntent : Bool
  headSha : Option Text
  valid : forgeState ≠ .unknown ∧ forgeState ≠ .unavailable
  deriving DecidableEq

inductive CustodyState where
  | active
  | terminal
  deriving DecidableEq

inductive NextAction where
  | observeForge
  | awaitForge
  | retryForge
  | reportMovedHead
  | nothing
  deriving DecidableEq

inductive Outcome where
  | merged
  | closed
  deriving DecidableEq

structure Record extends Handoff where
  projectId : Text
  credentialProfile : Text
  handedOffAt : Text
  state : CustodyState
  lastTickAt : Option Text
  lastForgeState : ForgeState
  nextAction : NextAction
  terminalOutcome : Option Outcome
  deriving DecidableEq

namespace Record

def key (record : Record) : Key := ⟨record.projectId, record.pullRequest⟩

/-- The part of a record that custody is about. The rest tells how it goes. -/
def obligation (record : Record) : Handoff × Project × CustodyState :=
  (record.toHandoff, ⟨record.projectId, record.credentialProfile⟩, record.state)

def terminal (record : Record) : Bool := decide (record.state = .terminal)

end Record

namespace ForgeView

def terminal (view : ForgeView) : Bool :=
  decide (view.forgeState = .merged ∨ view.forgeState = .closed)

def movedHead (view : ForgeView) (armedHead : Option Text) : Bool :=
  !view.terminal && armedHead.isSome && view.headSha.isSome && decide (view.headSha ≠ armedHead)

end ForgeView

def observing (now : Text) (record : Record) : Record :=
  if record.terminal then record
  else { record with lastTickAt := some now, nextAction := .observeForge }

def settled (view : ForgeView) (moved : Bool) (record : Record) : Record :=
  { record with
    state := if view.terminal then .terminal else .active
    lastForgeState := view.forgeState
    nextAction :=
      if view.terminal then .nothing else if moved then .reportMovedHead else .awaitForge
    terminalOutcome :=
      if view.forgeState = .merged then some .merged
      else if view.forgeState = .closed then some .closed else none }

def unavailable (record : Record) : Record :=
  if record.terminal then record
  else { record with lastForgeState := .unavailable, nextAction := .retryForge }

def restated (armedHead : Text) (record : Record) : Record :=
  { record with armedHead := some armedHead }

def taken (project : Project) (request : Handoff) (now : Text) : Record :=
  { toHandoff := request
    projectId := project.projectId
    credentialProfile := project.credentialProfile
    handedOffAt := now
    state := .active
    lastTickAt := none
    lastForgeState := .unknown
    nextAction := .observeForge
    terminalOutcome := none }

/-- The first record of the key is changed. -/
def update (key : Key) (change : Record → Record) : List Record → List Record
  | [] => []
  | record :: rest =>
    if record.key = key then change record :: rest else record :: update key change rest

def find (key : Key) (records : List Record) : Option Record :=
  records.find? fun record => decide (record.key = key)

def githubCustodyTerminalRetention : ℕ := 100

def compactGithubCustodySnapshot (records : List Record) : List Record :=
  let terminal := records.filter Record.terminal
  if terminal.length ≤ githubCustodyTerminalRetention then records
  else
    let keep := terminal.drop (terminal.length - githubCustodyTerminalRetention)
    records.filter fun record => !record.terminal || decide (record ∈ keep)

/-- The key has an active record. -/
def isActive (records : List Record) (key : Key) : Bool :=
  records.any fun record => decide (record.key = key) && !record.terminal

inductive Phase where
  | starting
  | observing (record : Record)
  | arming (record : Record)
  | settling (view : ForgeView) (moved : Bool)
  | failing
  deriving DecidableEq

/-- The operation whose write is under way. -/
inductive Stage where
  | idle
  | handing (project : Project) (record : Record)
  | ticking (key : Key) (record : Record)
  | settling (key : Key) (terminal : Bool)
  | failing (key : Key)
  deriving DecidableEq

structure Answer where
  record : Record
  disk : List Record
  deriving DecidableEq

/-- A call of `arm`, with the head that its pass has read, the head that the record has
meanwhile, and what the pass has observed. -/
structure Arm where
  armedHead : Option Text
  current : Option Text
  view : ForgeView

structure State where
  snapshot : Option (List Record)
  /-- `none` is no file. -/
  disk : Option (List Record)
  stage : Stage
  closed : Bool
  executions : Key → Option Project
  timers : Key → Bool
  driving : Key → Option Phase
  calls : List (Project × Handoff)
  answers : List Answer
  arms : List Arm
  /-- The keys with a handoff that was answered with an active record, until a pass finds
  the pull request merged or closed. -/
  owed : Key → Bool
  watched : Key → Bool

namespace State
variable (s : State)

def records : List Record := s.snapshot.getD []

def load : State :=
  match s.snapshot with
  | some _ => s
  | none => { s with snapshot := some (compactGithubCustodySnapshot (s.disk.getD [])) }

def persist : State := { s with disk := some s.records, stage := .idle }

def schedule (key : Key) : State :=
  { s with timers := if s.closed then s.timers else Function.update s.timers key true }

def phase (key : Key) (phase : Phase) : State :=
  { s with driving := Function.update s.driving key (some phase) }

def endPass (key : Key) : State := { s with driving := Function.update s.driving key none }

def registers (project : Project) (key : Key) : Bool :=
  decide (key.projectId = project.projectId) && isActive s.records key

def register (project : Project) : State :=
  { s with
    executions := fun key => if s.registers project key then some project else s.executions key
    timers := fun key => s.timers key || (!s.closed && s.registers project key)
    watched := fun key => s.watched key || s.registers project key }

def execute (project : Project) (record : Record) : State :=
  { s with
    executions := Function.update s.executions record.key (some project)
    answers := s.answers ++ [⟨record, s.disk.getD []⟩] }

def own (key : Key) : State :=
  { s with
    owed := Function.update s.owed key true
    watched := Function.update s.watched key true }

def answer (project : Project) (record : Record) : State :=
  if record.terminal then s.execute project record
  else ((s.execute project record).schedule record.key).own record.key

def take (project : Project) (request : Handoff) (now : Text) : State :=
  match find ⟨project.projectId, request.pullRequest⟩ s.records with
  | some existing =>
    if existing.ownerTicket ≠ request.ownerTicket ∨ existing.branch ≠ request.branch ∨
        existing.base ≠ request.base ∨ existing.credentialProfile ≠ project.credentialProfile then
      s
    else
      match request.armedHead with
      | some armedHead =>
        if existing.armedHead = some armedHead then s.answer project existing
        else
          { s with
            snapshot := some (update existing.key (restated armedHead) s.records)
            stage := .handing project (restated armedHead existing) }
      | none => s.answer project existing
  | none =>
    { s with
      snapshot := some (compactGithubCustodySnapshot (s.records ++ [taken project request now]))
      stage := .handing project (taken project request now) }

def drive (key : Key) : State :=
  if s.closed ∨ (s.driving key).isSome ∨ (s.executions key).isNone then s else s.phase key .starting

def observe (key : Key) (record : Record) (view : ForgeView) : State :=
  if !view.terminal ∧ !view.movedHead record.armedHead ∧ !view.nativeIntent then
    { s.phase key (.arming record) with
      arms := s.arms ++ [⟨record.armedHead, (find key s.records).bind (·.armedHead), view⟩] }
  else s.phase key (.settling view (view.movedHead record.armedHead))

def fail (key : Key) : State := s.phase key .failing

def settle (key : Key) (view : ForgeView) (moved : Bool) : State :=
  if (find key s.records).isNone then
    if view.terminal then s.endPass key else (s.schedule key).endPass key
  else
    { s with
      snapshot := some (update key (settled view moved) s.records)
      stage := .settling key view.terminal
      owed := if view.terminal then Function.update s.owed key false else s.owed
      watched := if view.terminal then Function.update s.watched key false else s.watched }

end State

inductive Step where
  /-- A call of `register`, of `status`, or the first part of one of `handoff`. -/
  | register (project : Project)
  | handoff (project : Project) (request : Handoff)
  /-- The second part of a handoff. -/
  | take (i : ℕ) (now : Text)
  | fire (key : Key)
  | tick (key : Key) (now : Text)
  | observed (key : Key) (view : ForgeView)
  | armed (key : Key) (view : ForgeView)
  /-- The upstream throws, or shows what is no view. -/
  | upstreamFailed (key : Key)
  | settle (key : Key)
  | retry (key : Key)
  | persisted
  | persistFailed
  | close
  | restart

def fresh (disk : Option (List Record)) : State where
  snapshot := none
  disk := disk
  stage := .idle
  closed := false
  executions _ := none
  timers _ := false
  driving _ := none
  calls := []
  answers := []
  arms := []
  owed _ := false
  watched _ := false

def next (s : State) : Step → Option State
  | .register project => if s.stage = .idle then some (s.load.register project) else none
  | .handoff project request =>
    if s.stage = .idle then
      some { s.load.register project with calls := s.calls ++ [(project, request)] }
    else none
  | .take i now =>
    match s.stage, s.calls[i]? with
    | .idle, some (project, request) =>
      some (State.take { s.load with calls := s.calls.eraseIdx i } project request now)
    | _, _ => none
  | .fire key =>
    if s.timers key then
      some (State.drive { s with timers := Function.update s.timers key false } key)
    else none
  | .tick key now =>
    match s.stage, s.driving key with
    | .idle, some .starting =>
      match find key s.load.records with
      | none => some (s.load.endPass key)
      | some record =>
        some { s.load with
          snapshot := some (update key (observing now) s.load.records)
          stage := .ticking key (observing now record) }
    | _, _ => none
  | .observed key view =>
    match s.driving key with
    | some (.observing record) => some (s.observe key record view)
    | _ => none
  | .armed key view =>
    match s.driving key with
    | some (.arming _) => some (s.phase key (.settling view false))
    | _ => none
  | .upstreamFailed key =>
    match s.driving key with
    | some (.observing _) | some (.arming _) => some (s.fail key)
    | _ => none
  | .settle key =>
    match s.stage, s.driving key with
    | .idle, some (.settling view moved) => some (s.load.settle key view moved)
    | _, _ => none
  | .retry key =>
    match s.stage, s.driving key with
    | .idle, some .failing =>
      if (find key s.load.records).isNone then some ((s.load.schedule key).endPass key)
      else
        some { s.load with
          snapshot := some (update key unavailable s.load.records)
          stage := .failing key }
    | _, _ => none
  | .persisted =>
    match s.stage with
    | .idle => none
    | .handing project record => some (s.persist.answer project record)
    | .ticking key record =>
      if record.terminal then some (s.persist.endPass key)
      else some (s.persist.phase key (.observing record))
    | .settling key terminal =>
      if terminal then some (s.persist.endPass key)
      else some ((s.persist.schedule key).endPass key)
    | .failing key => some ((s.persist.schedule key).endPass key)
  | .persistFailed =>
    match s.stage with
    | .idle => none
    | .handing _ _ => some { s with stage := .idle }
    | .ticking key _ | .settling key _ => some (State.fail { s with stage := .idle } key)
    | .failing key => some ((State.schedule { s with stage := .idle } key).endPass key)
  | .close =>
    some { s with closed := true, timers := fun _ => false, executions := fun _ => none }
  | .restart => some { fresh s.disk with answers := s.answers, arms := s.arms, owed := s.owed }

def custodian : Machine State Step where
  start s := s = fresh s.disk ∧ ((s.disk.getD []).map Record.key).Nodup
  next := next

end Redskilled.Daemon.GithubCustody
