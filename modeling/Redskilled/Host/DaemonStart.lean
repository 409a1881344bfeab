import Redskilled.Foundation.Machine
import Redskilled.Foundation.JsText

/-!
# Starting the daemon

Processes of one machine run `startRedskilledDaemon` for the same claim, lease
and socket path. Three guards stand one behind the other: the machine claim and
the session lease, both files created exclusively, and the listening socket.
Each of them reaps what a dead predecessor left by reading it, judging it and
unlinking the path.

A process is named by its pid. Every file operation, liveness check and probe is
a step; what a step is told from outside (the clock, a probe that times out, a
permission that is refused) comes with the step.
-/
namespace Redskilled.Host.DaemonStart
open Foundation

/-- What the processes of the machine start with. -/
structure Site where
  socketPath : Text
  startTime : Nat → Text
  uid : Nat → Int

/-- A file that is read as a record: absent, not a record, or one. The codec of
the records is outside; a record that was written reads back as it is. -/
inductive Stored (α : Type*) where
  | absent
  | unreadable
  | record (a : α)

def Stored.read {α : Type*} : Stored α → Option α
  | .record a => some a
  | .absent | .unreadable => none

structure MachineClaim where
  pid : Nat
  startTime : Text
  uid : Int
  socketPath : Text
  deriving DecidableEq

structure Lease where
  pid : Nat
  startTime : Text
  socketPath : Text
  renewedAt : Int
  deriving DecidableEq

inductive SocketFile where
  | absent
  | stale
  | listening (pid : Nat)

def SocketFile.listener : SocketFile → Option Nat
  | .listening p => some p
  | .absent | .stale => none

inductive SocketOwnership where
  | owned | unowned | unknown
  deriving DecidableEq

inductive MachineRefusal where
  | held | staleClaimNotReapable | contended
  deriving DecidableEq

inductive StartError where
  | alreadyRunning
  | machineHeld (reason : MachineRefusal)
  deriving DecidableEq

/-- Where a process stands in `startRedskilledDaemon`. Two reads that the source
makes at once are both `none` until they are made. -/
inductive Phase where
  | idle
  | preflight (lease : Option (Option Lease)) (claim : Option (Option MachineClaim))
  | preProbe (lease : Lease) (claim : MachineClaim)
  | preReleaseLease (lease : Lease) (claim : MachineClaim)
  | preRemoveLease (claim : MachineClaim)
  | preReleaseClaim (claim : MachineClaim)
  | preRemoveClaim
  | claiming (round : Nat)
  | claimExists (round : Nat)
  | claimLiveness (round : Nat) (existing : MachineClaim)
  | claimReap (round : Nat) (existing : Option MachineClaim)
  | leasing
  | leaseExists
  | leaseLiveness (existing : Lease)
  | leaseReap
  | listening (attempt : Nat)
  | probing (attempt : Nat)
  | checking (attempt : Nat) (lease : Option (Option Lease)) (claim : Option (Option MachineClaim))
  | unlinking (attempt : Nat)
  | releaseLease
  | removeLease
  | releaseClaim
  | removeClaim
  | bound
  | failed (error : StartError)
  deriving DecidableEq

structure Proc where
  alive : Bool
  phase : Phase
  deriving DecidableEq

structure State where
  claimFile : Stored MachineClaim
  leaseFile : Stored Lease
  socket : SocketFile
  proc : Nat → Proc

/-- What a step is told from outside. -/
structure Outside where
  now : Int
  /-- A connect that does not answer in time. -/
  slow : Bool
  /-- A write or unlink of the claim that the system refuses. -/
  denied : Bool

inductive Step where
  | start (p : Nat)
  | readLease (p : Nat)
  | readClaim (p : Nat)
  | advance (p : Nat) (outside : Outside)
  | crash (p : Nat)

def State.goto (s : State) (p : Nat) (phase : Phase) : State :=
  { s with proc := Function.update s.proc p { s.proc p with phase } }

def State.pidAlive (s : State) (pid : Nat) : Bool := (s.proc pid).alive

def maxClaimRounds : Nat := 8

def leaseRenewMs : Int := 30000

def socketlessLeaseReapMs : Int := leaseRenewMs * 2

section
variable (site : Site)

def mintClaim (p : Nat) : MachineClaim :=
  { pid := p, startTime := site.startTime p, uid := site.uid p, socketPath := site.socketPath }

def mintLease (p : Nat) (now : Int) : Lease :=
  { pid := p, startTime := site.startTime p, socketPath := site.socketPath, renewedAt := now }

/-- Pid, start instant and socket, all three. -/
def MachineClaim.belongsTo (claim : MachineClaim) (pid : Nat) (startTime : Text) : Bool :=
  claim.pid == pid && claim.startTime == startTime && claim.socketPath == site.socketPath

def Lease.belongsTo (lease : Lease) (pid : Nat) (startTime : Text) : Bool :=
  lease.pid == pid && lease.startTime == startTime

/-- `probeSocketOwnership`: the kernel connects where a live process listens. -/
def probeSocketOwnership (s : State) (slow : Bool) : SocketOwnership :=
  if slow then .unknown
  else
    match s.socket with
    | .listening pid => if s.pidAlive pid then .owned else .unowned
    | .absent | .stale => .unowned

def agedOwner (lease : Lease) (claim : MachineClaim) (now : Int) : Bool :=
  lease.pid == claim.pid && lease.startTime == claim.startTime &&
    lease.socketPath == site.socketPath && claim.socketPath == site.socketPath &&
    decide (socketlessLeaseReapMs ≤ now - lease.renewedAt)

/-- `ownerRecorded`: the lease or the claim names another live process. -/
def ownerRecorded (s : State) (p : Nat) (lease : Option Lease) (claim : Option MachineClaim) :
    Bool :=
  lease.any (fun l => l.pid != p && s.pidAlive l.pid) ||
    claim.any fun c => c.socketPath == site.socketPath && c.pid != p && s.pidAlive c.pid

def refusalError (existing : Option MachineClaim) (reason : MachineRefusal) : StartError :=
  if existing.any (·.socketPath == site.socketPath) then .alreadyRunning else .machineHeld reason

def advance (s : State) (p : Nat) (outside : Outside) : Option State :=
  match (s.proc p).phase with
  | .idle | .bound | .failed _ => none
  | .preflight (some lease) (some claim) =>
    match lease, claim with
    | some lease, some claim =>
      if agedOwner site lease claim outside.now then some (s.goto p (.preProbe lease claim))
      else some (s.goto p (.claiming 0))
    | _, _ => some (s.goto p (.claiming 0))
  | .preflight _ _ => none
  | .preProbe lease claim =>
    if probeSocketOwnership s outside.slow = .unowned then
      some (s.goto p (.preReleaseLease lease claim))
    else some (s.goto p (.claiming 0))
  | .preReleaseLease lease claim =>
    match s.leaseFile.read with
    | some existing =>
      if existing.belongsTo lease.pid lease.startTime then some (s.goto p (.preRemoveLease claim))
      else some (s.goto p (.claiming 0))
    | none => some (s.goto p (.claiming 0))
  | .preRemoveLease claim =>
    some { s.goto p (.preReleaseClaim claim) with leaseFile := .absent }
  | .preReleaseClaim claim =>
    match s.claimFile.read with
    | some existing =>
      if existing.belongsTo site claim.pid claim.startTime then some (s.goto p .preRemoveClaim)
      else some (s.goto p (.claiming 0))
    | none => some (s.goto p (.claiming 0))
  | .preRemoveClaim =>
    if outside.denied then some (s.goto p (.claiming 0))
    else some { s.goto p (.claiming 0) with claimFile := .absent }
  | .claiming round =>
    if outside.denied then some (s.goto p (.failed (.machineHeld .staleClaimNotReapable)))
    else
      match s.claimFile with
      | .absent => some { s.goto p .leasing with claimFile := .record (mintClaim site p) }
      | _ => some (s.goto p (.claimExists round))
  | .claimExists round =>
    match s.claimFile.read with
    | none => some (s.goto p (.claimReap round none))
    | some existing =>
      if existing.belongsTo site p (site.startTime p) then some (s.goto p .leasing)
      else some (s.goto p (.claimLiveness round existing))
  | .claimLiveness round existing =>
    if s.pidAlive existing.pid then some (s.goto p (.failed (refusalError site (some existing) .held)))
    else some (s.goto p (.claimReap round (some existing)))
  | .claimReap round existing =>
    if outside.denied then
      some (s.goto p (.failed (refusalError site existing .staleClaimNotReapable)))
    else
      let phase :=
        if round + 1 < maxClaimRounds then Phase.claiming (round + 1)
        else .failed (.machineHeld .contended)
      some { s.goto p phase with claimFile := .absent }
  | .leasing =>
    match s.leaseFile with
    | .absent =>
      some { s.goto p (.listening 0) with leaseFile := .record (mintLease site p outside.now) }
    | _ => some (s.goto p .leaseExists)
  | .leaseExists =>
    match s.leaseFile.read with
    | none => some (s.goto p .leaseReap)
    | some existing =>
      if existing.belongsTo p (site.startTime p) then some (s.goto p (.listening 0))
      else some (s.goto p (.leaseLiveness existing))
  | .leaseLiveness existing =>
    if s.pidAlive existing.pid then some (s.goto p .releaseClaim)
    else some (s.goto p .leaseReap)
  | .leaseReap => some { s.goto p .leasing with leaseFile := .absent }
  | .listening attempt =>
    if attempt < 2 then
      match s.socket with
      | .absent => some { s.goto p .bound with socket := .listening p }
      | _ => some (s.goto p (.probing attempt))
    else some (s.goto p .releaseLease)
  | .probing attempt =>
    if probeSocketOwnership s outside.slow = .unowned then
      some (s.goto p (.checking attempt none none))
    else some (s.goto p .releaseLease)
  | .checking attempt (some lease) (some claim) =>
    if ownerRecorded site s p lease claim then some (s.goto p .releaseLease)
    else some (s.goto p (.unlinking attempt))
  | .checking _ _ _ => none
  | .unlinking attempt => some { s.goto p (.listening (attempt + 1)) with socket := .absent }
  | .releaseLease =>
    if s.leaseFile.read.any (·.belongsTo p (site.startTime p)) then some (s.goto p .removeLease)
    else some (s.goto p .releaseClaim)
  | .removeLease => some { s.goto p .releaseClaim with leaseFile := .absent }
  | .releaseClaim =>
    if s.claimFile.read.any (·.belongsTo site p (site.startTime p)) then
      some (s.goto p .removeClaim)
    else some (s.goto p (.failed .alreadyRunning))
  | .removeClaim =>
    if outside.denied then some (s.goto p (.failed .alreadyRunning))
    else some { s.goto p (.failed .alreadyRunning) with claimFile := .absent }

def next (s : State) : Step → Option State
  | .start p =>
    if (s.proc p).alive ∧ (s.proc p).phase = .idle then some (s.goto p (.preflight none none))
    else none
  | .readLease p =>
    if (s.proc p).alive then
      match (s.proc p).phase with
      | .preflight none claim => some (s.goto p (.preflight (some s.leaseFile.read) claim))
      | .checking attempt none claim =>
        some (s.goto p (.checking attempt (some s.leaseFile.read) claim))
      | _ => none
    else none
  | .readClaim p =>
    if (s.proc p).alive then
      match (s.proc p).phase with
      | .preflight lease none => some (s.goto p (.preflight lease (some s.claimFile.read)))
      | .checking attempt lease none =>
        some (s.goto p (.checking attempt lease (some s.claimFile.read)))
      | _ => none
    else none
  | .advance p outside => if (s.proc p).alive then advance site s p outside else none
  | .crash p =>
    if (s.proc p).alive then
      some { s with proc := Function.update s.proc p { s.proc p with alive := false } }
    else none

/-- Nobody has started, and no live process listens: the files are as a dead
predecessor left them. -/
def Start (s : State) : Prop :=
  (∀ p, (s.proc p).phase = .idle) ∧ (s.socket = .absent ∨ s.socket = .stale)

def daemons : Machine State Step where
  start := Start
  next := next site

end

def Phase.hasClaim : Phase → Bool
  | .leasing | .leaseExists | .leaseLiveness _ | .leaseReap | .listening _ | .probing _
  | .checking _ _ _ | .unlinking _ | .bound => true
  | _ => false

def Phase.hasLease : Phase → Bool
  | .listening _ | .probing _ | .checking _ _ _ | .unlinking _ | .bound => true
  | _ => false

def Phase.isBound : Phase → Bool
  | .bound => true
  | _ => false

def Phase.unlinksClaim : Phase → Bool
  | .claimReap _ _ | .preRemoveClaim | .removeClaim => true
  | _ => false

def Phase.unlinksLease : Phase → Bool
  | .leaseReap | .preRemoveLease _ | .removeLease => true
  | _ => false

def Phase.unlinksSocket : Phase → Bool
  | .unlinking _ => true
  | _ => false

def inside (f : Phase → Bool) (proc : Nat → Proc) : Set Nat :=
  {p | (proc p).alive = true ∧ f (proc p).phase = true}

/-- No unlink of the claim takes the claim of a live process that goes on with
it. -/
def ClaimKept (s : State) : Step → Prop
  | .advance p outside => (s.proc p).phase.unlinksClaim = true → outside.denied = false →
      ∀ c ∈ s.claimFile.read, c.pid ∉ inside Phase.hasClaim s.proc
  | _ => True

/-- No unlink of the lease takes the lease of a live process that goes on with
it. -/
def LeaseKept (s : State) : Step → Prop
  | .advance p _ => (s.proc p).phase.unlinksLease = true →
      ∀ l ∈ s.leaseFile.read, l.pid ∉ inside Phase.hasLease s.proc
  | _ => True

/-- No unlink of the socket path takes the socket of a live process. -/
def SocketKept (s : State) : Step → Prop
  | .advance p _ => (s.proc p).phase.unlinksSocket = true →
      ∀ q ∈ s.socket.listener, q ∉ inside Phase.isBound s.proc
  | _ => True

/-- At most one live process gets past `bindExclusive`. -/
def Exclusive (s : State) : Prop :=
  ∀ p q, (s.proc p).alive = true → (s.proc q).alive = true →
    (s.proc p).phase = .bound → (s.proc q).phase = .bound → p = q

end Redskilled.Host.DaemonStart
