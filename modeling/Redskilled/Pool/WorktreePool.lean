import Redskilled.Foundation.Dialogue
import Redskilled.Foundation.JsText

/-!
# The worktree pool

A worker takes a worktree of the pool by a lease, which is written beside the worktree once
that is ready for the worker, and marked as released when the worker is done. A lease that is
held counts while its process lives and it is not too old. What is not in use can be taken
again; what is moreover clean, merged and idle for long enough can be removed.

What is done to worktrees and leases, the clock, the life of a process and the next path are
asked for.
-/
namespace Redskilled.Pool
open Foundation Foundation.Text Dialogue

structure WorktreePoolConfig where
  maxSize : ℕ
  leaseTtlS : ℤ
  minIdleS : ℤ

structure LeaseRecord where
  owner : Text
  pid : ℕ
  branch : Text
  acquiredAt : ℤ
  releasedAt : Option ℤ
  deriving DecidableEq

structure PooledWorktree where
  path : Text
  lease : Option LeaseRecord
  deriving DecidableEq

inductive LeaseStatus where
  | free | leasedLive | leasedStale
  deriving DecidableEq

section
variable (isAlive : ℕ → Bool) (nowS ttlS : ℤ)

def leaseStatus (lease : Option LeaseRecord) : LeaseStatus :=
  match lease with
  | none => .free
  | some lease =>
    if lease.releasedAt ≠ none then .free
    else if !isAlive lease.pid || ttlS ≤ nowS - lease.acquiredAt then .leasedStale
    else .leasedLive

def isLeasable (status : LeaseStatus) : Bool := status ≠ .leasedLive

def selectLeasable (pool : List PooledWorktree) : Option PooledWorktree :=
  match pool.find? fun wt => leaseStatus isAlive nowS ttlS wt.lease == .free with
  | some wt => some wt
  | none => pool.find? fun wt => leaseStatus isAlive nowS ttlS wt.lease == .leasedStale

variable {isAlive nowS ttlS} {lease : LeaseRecord}

lemma leaseStatus_eq_live : leaseStatus isAlive nowS ttlS (some lease) = .leasedLive ↔
    lease.releasedAt = none ∧ isAlive lease.pid = true ∧ nowS < lease.acquiredAt + ttlS := by
  unfold leaseStatus
  dsimp only
  split_ifs with hrel hstale
  · simp [hrel]
  · simp only [false_iff]
    rintro ⟨-, halive, hyoung⟩
    rw [Bool.or_eq_true, halive] at hstale
    have hold : ttlS ≤ nowS - lease.acquiredAt := by simpa using hstale
    omega
  · have hcas : isAlive lease.pid = true ∧ nowS - lease.acquiredAt < ttlS := by
      simpa using hstale
    simp only [true_iff]
    exact ⟨by simpa using hrel, hcas.1, by omega⟩

/-- A lease that is not in use does not come into use, as no process comes back. -/
lemma not_live_later {isAlive' : ℕ → Bool} {nowS' : ℤ} {lease : Option LeaseRecord}
    (hnow : nowS ≤ nowS') (halive : ∀ pid, isAlive' pid = true → isAlive pid = true)
    (h : leaseStatus isAlive nowS ttlS lease ≠ .leasedLive) :
    leaseStatus isAlive' nowS' ttlS lease ≠ .leasedLive := by
  cases lease with
  | none => exact h
  | some lease =>
    intro hlive
    obtain ⟨hrel, hpid, hyoung⟩ := leaseStatus_eq_live.mp hlive
    exact h (leaseStatus_eq_live.mpr ⟨hrel, halive _ hpid, by omega⟩)

lemma selectLeasable_spec {pool : List PooledWorktree} {pick : PooledWorktree}
    (h : selectLeasable isAlive nowS ttlS pool = some pick) :
    pick ∈ pool ∧ leaseStatus isAlive nowS ttlS pick.lease ≠ .leasedLive := by
  unfold selectLeasable at h
  split at h
  · next wt hfree =>
      cases h
      have hstat := List.find?_some hfree
      refine ⟨List.mem_of_find?_eq_some hfree, fun hlive => ?_⟩
      rw [hlive] at hstat
      cases hstat
  · have hstat := List.find?_some h
    refine ⟨List.mem_of_find?_eq_some h, fun hlive => ?_⟩
    rw [hlive] at hstat
    cases hstat

end

inductive PoolOp where
  | listPool
  | now
  | isAlive
  | nextPath
  | refreshWarm (path branch base : Text)
  | materializeCold (path branch base : Text)
  | writeLease (path : Text) (lease : LeaseRecord)
  | resetForReturn (path base : Text)
  | clearLease (path : Text) (releasedAt : ℤ)
  | isClean (path : Text)
  | isMerged (path : Text)
  | removeWorktree (path : Text)

abbrev Answer : PoolOp → Type
  | .listPool => List PooledWorktree
  | .now => ℤ
  | .isAlive => ℕ → Bool
  | .nextPath => Text
  | .isClean _ => Bool
  | .isMerged _ => Bool
  | _ => Unit

abbrev Program (α : Type) := Dialogue PoolOp Answer α

structure AcquireRequest where
  owner : Text
  pid : ℕ
  branch : Text
  base : Text

inductive AcquireStep where
  | worktreeAdd | depsInstall | fetchBase | checkoutBranch | writeLease

def planAcquisition (reused : Bool) : List AcquireStep :=
  if reused then [.fetchBase, .checkoutBranch, .writeLease]
  else [.worktreeAdd, .depsInstall, .fetchBase, .checkoutBranch, .writeLease]

structure AcquiredLease where
  path : Text
  reused : Bool
  lease : LeaseRecord
  steps : List AcquireStep

def AcquireRequest.lease (req : AcquireRequest) (nowS : ℤ) : LeaseRecord where
  owner := req.owner
  pid := req.pid
  branch := req.branch
  acquiredAt := nowS
  releasedAt := none

def leaseWorktree (req : AcquireRequest) (nowS : ℤ) (path : Text) (reused : Bool) :
    Program (Option AcquiredLease) := do
  need (PoolOp.writeLease path (req.lease nowS))
  pure (some ⟨path, reused, req.lease nowS, planAcquisition reused⟩)

def acquireLease (cfg : WorktreePoolConfig) (req : AcquireRequest) :
    Program (Option AcquiredLease) := do
  let pool ← need PoolOp.listPool
  let nowS ← need PoolOp.now
  let isAlive ← need PoolOp.isAlive
  match selectLeasable isAlive nowS cfg.leaseTtlS pool with
  | some pick => do
      need (PoolOp.refreshWarm pick.path req.branch req.base)
      leaseWorktree req nowS pick.path true
  | none =>
    if cfg.maxSize ≤ pool.length then pure none
    else do
      let path ← need PoolOp.nextPath
      need (PoolOp.materializeCold path req.branch req.base)
      leaseWorktree req nowS path false

def releaseLease (path base : Text) : Program Unit := do
  need (PoolOp.resetForReturn path base)
  let releasedAt ← need PoolOp.now
  need (PoolOp.clearLease path releasedAt)

inductive PruneVerdict where
  | keep | prune
  deriving DecidableEq

structure PruneSignals where
  status : LeaseStatus
  clean : Bool
  merged : Bool
  /-- `none` is for ever. -/
  idleS : Option ℤ

def decidePrune (signals : PruneSignals) (minIdleS : ℤ) : PruneVerdict :=
  if signals.status = .leasedLive then .keep
  else if !signals.clean then .keep
  else if !signals.merged then .keep
  else if signals.idleS.any (· < minIdleS) then .keep
  else .prune

inductive KeptReason where
  | inUse | dirty | unmerged | fresh

structure PruneResult where
  pruned : List Text
  kept : List (Text × KeptReason)

def PruneResult.keep (result : PruneResult) (path : Text) (reason : KeptReason) : PruneResult :=
  { result with kept := result.kept ++ [(path, reason)] }

def PruneResult.prune (result : PruneResult) (path : Text) : PruneResult :=
  { result with pruned := result.pruned ++ [path] }

def idleSince (lease : Option LeaseRecord) : ℤ :=
  ((lease.bind (·.releasedAt)).or (lease.map (·.acquiredAt))).getD 0

def idleFor (nowS : ℤ) (lease : Option LeaseRecord) : Option ℤ :=
  if 0 < idleSince lease then some (nowS - idleSince lease) else none

/-- The worktree is probed and, where nothing speaks for it, removed. -/
def pruneWorktree (cfg : WorktreePoolConfig) (nowS : ℤ) (wt : PooledWorktree)
    (result : PruneResult) : Program PruneResult := do
  let isAlive ← need PoolOp.isAlive
  let status := leaseStatus isAlive nowS cfg.leaseTtlS wt.lease
  if status = .leasedLive then pure (result.keep wt.path .inUse)
  else do
    let clean ← need (PoolOp.isClean wt.path)
    if !clean then pure (result.keep wt.path .dirty)
    else do
      let merged ← need (PoolOp.isMerged wt.path)
      if !merged then pure (result.keep wt.path .unmerged)
      else if decidePrune ⟨status, clean, merged, idleFor nowS wt.lease⟩ cfg.minIdleS = .keep then
        pure (result.keep wt.path .fresh)
      else do
        need (PoolOp.removeWorktree wt.path)
        pure (result.prune wt.path)

def pruneAll (cfg : WorktreePoolConfig) (nowS : ℤ) :
    List PooledWorktree → PruneResult → Program PruneResult
  | [], result => pure result
  | wt :: pool, result => do
      let result ← pruneWorktree cfg nowS wt result
      pruneAll cfg nowS pool result

def pruneIdleWorktrees (cfg : WorktreePoolConfig) : Program PruneResult := do
  let pool ← need PoolOp.listPool
  let nowS ← need PoolOp.now
  pruneAll cfg nowS pool ⟨[], []⟩

end Redskilled.Pool
