import Redskilled.Foundation.Machine
import Redskilled.Foundation.Utf8

/-!
# Web authentication

A browser is paired by an invitation, which it redeems for a session of a new device. The
invitations, sessions and devices are kept in one file. A call reads the file, changes what
it read and puts a new file in its place, all while it holds a lock file that it created
exclusively. Whatever goes wrong when the file is read, the state is the empty one.

Each operation on the files is a step, of any number of calls in any number of processes. A
secret is told by its hash, and times are milliseconds. The state is in the file as it is
encoded.
-/
namespace Redskilled.Daemon.WebAuth
open Foundation

structure Invitation where
  hash : Text
  expiresAt : ℤ
  name : Text
  deriving DecidableEq

structure Session where
  hash : Text
  deviceId : Text
  csrf : Text
  createdAt : ℤ
  lastSeenAt : ℤ
  deriving DecidableEq

structure RedskilledWebDevice where
  id : Text
  name : Text
  createdAt : ℤ
  lastSeenAt : ℤ
  revokedAt : Option ℤ := none
  deriving DecidableEq

structure AuthState where
  invitations : List Invitation := []
  sessions : List Session := []
  devices : List RedskilledWebDevice := []
  deriving DecidableEq

structure RedskilledWebIdentity where
  token : Text
  csrf : Text
  device : RedskilledWebDevice
  deriving DecidableEq

def invitationTtlMs : ℤ := 600000

def sessionTtlMs : ℤ := 2592000000

inductive Request where
  /-- The token and the time are those of the call. -/
  | createWebInvitation (token : Text) (calledAt : ℤ) (name : Text)
  | redeemWebInvitation (token : Text)
  | authenticateWebSession (token : Text)
  | revokeWebDevice (id : Text)
  deriving DecidableEq

structure Moment where
  checked : ℤ
  now : ℤ
  kept : ℤ
  deriving DecidableEq

/-- The secrets that a change draws. -/
structure Draws where
  sessionToken : Text
  csrf : Text
  deviceId : Text
  deriving DecidableEq

/-- The variables of a call that its change assigns. -/
structure Captured where
  identity : Option RedskilledWebIdentity := none
  applied : Bool := false
  deriving DecidableEq

def Captured.identified (held : Captured) (identity : RedskilledWebIdentity) : Captured :=
  { held with identity := some identity }

def liveInvitations (now : ℤ) (state : AuthState) : List Invitation :=
  state.invitations.filter fun entry => now < entry.expiresAt

def liveSessions (now : ℤ) (state : AuthState) : List Session :=
  state.sessions.filter fun entry => now - sessionTtlMs < entry.createdAt

def invitationName (name : Text) : Text :=
  if Utf8.takeUnits 80 name = [] then "Browser".toList else Utf8.takeUnits 80 name

section
variable (hash : Text → Text) (moment : Moment) (draws : Draws) (held : Captured)
  (state : AuthState)

def withInvitation (token : Text) (calledAt : ℤ) (name : Text) : AuthState :=
  { state with
    invitations := liveInvitations moment.checked state ++
      [⟨hash token, calledAt + invitationTtlMs, invitationName name⟩] }

def newDevice (invitation : Invitation) : RedskilledWebDevice where
  id := draws.deviceId
  name := invitation.name
  createdAt := moment.now
  lastSeenAt := moment.now

def newSession : Session where
  hash := hash draws.sessionToken
  deviceId := draws.deviceId
  csrf := draws.csrf
  createdAt := moment.now
  lastSeenAt := moment.now

def findInvitation (token : Text) : Option Invitation :=
  (liveInvitations moment.checked state).find? fun entry => entry.hash = hash token

def redeemed (token : Text) : AuthState × Captured :=
  match findInvitation hash moment state token with
  | none => ({ state with invitations := liveInvitations moment.kept state }, held)
  | some invitation =>
    ({ state with
        invitations := (liveInvitations moment.kept state).erase invitation
        devices := state.devices ++ [newDevice moment draws invitation]
        sessions := state.sessions ++ [newSession hash moment draws] },
      held.identified ⟨draws.sessionToken, draws.csrf, newDevice moment draws invitation⟩)

def findSession (token : Text) : Option Session :=
  (liveSessions moment.checked state).find? fun entry => entry.hash = hash token

/-- The device of a session, unless it is revoked. -/
def findDevice (session : Session) : Option RedskilledWebDevice :=
  state.devices.find? fun entry => entry.id = session.deviceId ∧ entry.revokedAt = none

def touched (device : RedskilledWebDevice) : RedskilledWebDevice :=
  { device with lastSeenAt := moment.now }

def authenticated (token : Text) : AuthState × Captured :=
  match findSession hash moment state token with
  | none => ({ state with sessions := liveSessions moment.checked state }, held)
  | some session =>
    match findDevice state session with
    | none => ({ state with sessions := state.sessions.erase session }, held)
    | some device =>
      ({ state with
          devices := state.devices.map fun entry =>
            if entry.id = device.id then touched moment device else entry
          sessions := (liveSessions moment.checked state).replace session
            { session with lastSeenAt := moment.now } },
        held.identified ⟨token, session.csrf, touched moment device⟩)

def revoked (device : RedskilledWebDevice) : RedskilledWebDevice :=
  { device with revokedAt := some moment.now }

def isRevocable (id : Text) (device : RedskilledWebDevice) : Bool :=
  device.id = id ∧ device.revokedAt = none

def withoutDevice (id : Text) : AuthState × Captured :=
  ({ state with
      devices := state.devices.map fun device =>
        if isRevocable id device then revoked moment device else device
      sessions := state.sessions.filter fun session => session.deviceId ≠ id },
    { held with applied := held.applied || state.devices.any (isRevocable id) })

def change : Request → AuthState × Captured
  | .createWebInvitation token calledAt name =>
    (withInvitation hash moment state token calledAt name, held)
  | .redeemWebInvitation token => redeemed hash moment draws held state token
  | .authenticateWebSession token => authenticated hash moment held state token
  | .revokeWebDevice id => withoutDevice moment held state id

end

structure Commit where
  call : ℕ
  request : Request
  moment : Moment
  draws : Draws
  held : Captured
  base : AuthState
  deriving DecidableEq

section
variable (hash : Text → Text) (commit : Commit)

def Commit.next : AuthState :=
  (change hash commit.moment commit.draws commit.held commit.base commit.request).1

def Commit.captured : Captured :=
  (change hash commit.moment commit.draws commit.held commit.base commit.request).2

end

inductive Fault where
  | eexist | other

inductive Phase where
  | making
  | opening (attempt : ℕ)
  | reading (attempt : ℕ)
  | writing (attempt : ℕ) (draft : Commit)
  | renaming (attempt : ℕ) (draft : Commit)
  | closing (attempt : ℕ) (error : Option Fault)
  | removing (attempt : ℕ) (error : Option Fault)
  | returned
  | failed

structure Call where
  request : Request
  captured : Captured := {}
  phase : Phase

structure State where
  file : Option AuthState := none
  /-- The call that created the lock file, while there is one. -/
  lock : Option ℕ := none
  calls : ℕ → Option Call := fun _ => none
  hashes : List Text := []
  ids : List Text := []
  commits : List Commit := []

inductive Step where
  | call (call : ℕ) (request : Request)
  | mkdir (call : ℕ) (fault : Option Fault)
  | openLock (call : ℕ) (fault : Option Fault)
  | read (call : ℕ) (fails : Bool) (moment : Moment) (draws : Draws)
  | write (call : ℕ) (fault : Option Fault)
  | rename (call : ℕ) (fault : Option Fault)
  | close (call : ℕ) (fault : Option Fault)
  | remove (call : ℕ) (fault : Option Fault)

def attempts : ℕ := 100

def caught (attempt : ℕ) : Fault → Phase
  | .eexist => if attempt + 1 < attempts then .opening (attempt + 1) else .failed
  | .other => .failed

def firstPhase : Request → Phase
  | .authenticateWebSession [] => .returned
  | _ => .making

/-- The secrets are drawn at random and never twice. -/
def isFresh (hash : Text → Text) (hashes : List Text) : Request → Bool
  | .createWebInvitation token _ _ => hash token ∉ hashes
  | _ => true

def hashesOf (hash : Text → Text) : Request → List Text
  | .createWebInvitation token _ _ => [hash token]
  | _ => []

def idsOf : Request → List Text
  | .revokeWebDevice id => [id]
  | _ => []

namespace State
variable (hash : Text → Text)

def goto (g : State) (i : ℕ) (call : Call) (phase : Phase) : State :=
  { g with calls := Function.update g.calls i (some { call with phase }) }

def called (g : State) (i : ℕ) (request : Request) : State :=
  { g with
    calls := Function.update g.calls i (some { request, phase := firstPhase request })
    hashes := hashesOf hash request ++ g.hashes
    ids := idsOf request ++ g.ids }

def opened (g : State) (i : ℕ) (call : Call) (attempt : ℕ) : Option Fault → State
  | some fault => g.goto i call (caught attempt fault)
  | none =>
    match g.lock with
    | some _ => g.goto i call (caught attempt .eexist)
    | none => { g.goto i call (.reading attempt) with lock := some i }

/-- `readState`. -/
def readState (g : State) (fails : Bool) : AuthState := if fails then {} else g.file.getD {}

def draft (g : State) (i : ℕ) (call : Call) (fails : Bool) (moment : Moment) (draws : Draws) :
    Commit where
  call := i
  request := call.request
  moment
  draws
  held := call.captured
  base := g.readState fails

def drafted (g : State) (i : ℕ) (call : Call) (attempt : ℕ) (draft : Commit) : State :=
  { g.goto i { call with captured := draft.captured hash } (.writing attempt draft) with
    ids := draft.draws.deviceId :: g.ids }

def renamed (g : State) (i : ℕ) (call : Call) (attempt : ℕ) (draft : Commit) : State :=
  { g.goto i call (.closing attempt none) with
    file := some (draft.next hash)
    commits := g.commits ++ [draft] }

def released (g : State) (i : ℕ) (call : Call) (attempt : ℕ) (error : Option Fault) : State :=
  { g.goto i call (match error with
      | none => .returned
      | some fault => caught attempt fault) with
    lock := none }

def next (g : State) : Step → Option State
  | .call i request =>
    if (g.calls i).isNone ∧ isFresh hash g.hashes request then some (g.called hash i request)
    else none
  | .mkdir i fault =>
    match g.calls i with
    | some ⟨request, captured, .making⟩ =>
      some (g.goto i ⟨request, captured, .making⟩ (if fault.isSome then .failed else .opening 0))
    | _ => none
  | .openLock i fault =>
    match g.calls i with
    | some ⟨request, captured, .opening attempt⟩ =>
      some (g.opened i ⟨request, captured, .opening attempt⟩ attempt fault)
    | _ => none
  | .read i fails moment draws =>
    match g.calls i with
    | some ⟨request, captured, .reading attempt⟩ =>
      if draws.deviceId ∈ g.ids then none
      else
        some (g.drafted hash i ⟨request, captured, .reading attempt⟩ attempt
          (g.draft i ⟨request, captured, .reading attempt⟩ fails moment draws))
    | _ => none
  | .write i fault =>
    match g.calls i with
    | some ⟨request, captured, .writing attempt draft⟩ =>
      some (g.goto i ⟨request, captured, .writing attempt draft⟩
        (if fault.isSome then .closing attempt fault else .renaming attempt draft))
    | _ => none
  | .rename i fault =>
    match g.calls i with
    | some ⟨request, captured, .renaming attempt draft⟩ =>
      some (if fault.isSome then
          g.goto i ⟨request, captured, .renaming attempt draft⟩ (.closing attempt fault)
        else g.renamed hash i ⟨request, captured, .renaming attempt draft⟩ attempt draft)
    | _ => none
  | .close i fault =>
    match g.calls i with
    | some ⟨request, captured, .closing attempt error⟩ =>
      some (g.goto i ⟨request, captured, .closing attempt error⟩ (match fault with
        | none => .removing attempt error
        | some fault => caught attempt fault))
    | _ => none
  | .remove i fault =>
    match g.calls i with
    | some ⟨request, captured, .removing attempt error⟩ =>
      some (match fault with
        | none => g.released i ⟨request, captured, .removing attempt error⟩ attempt error
        | some fault =>
          g.goto i ⟨request, captured, .removing attempt error⟩ (caught attempt fault))
    | _ => none

end State

def webAuth (hash : Text → Text) : Machine State Step where
  start g := g = {}
  next := State.next hash

end Redskilled.Daemon.WebAuth
