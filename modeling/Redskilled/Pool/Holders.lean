import Redskilled.Foundation.Service
import Redskilled.Pool.WorktreePool

/-!
# Holders of worktrees

Any number of acquirers, releases and sweeps run on one pool. What is recorded beside the
pool is who wrote each lease, which leases were returned and not released since, whose lease
each release cleared, and the holders that were alive when their worktree was removed.

A process that has died does not come back. Paths are given by a numbering that is not
promised to be without repetitions: what is there already is not made again.
-/
namespace Redskilled.Pool
open Foundation Foundation.Text Dialogue

structure Lease where
  record : LeaseRecord
  writer : ℕ

structure Slot where
  path : Text
  lease : Option Lease

def Slot.listed (slot : Slot) : PooledWorktree := ⟨slot.path, slot.lease.map (·.record)⟩

def Slot.clear (slot : Slot) (releasedAt : ℤ) : Slot :=
  { slot with lease := slot.lease.map fun lease =>
      { lease with record := { lease.record with releasedAt := some releasedAt } } }

structure Hold where
  holder : ℕ
  path : Text
  lease : LeaseRecord
  deriving DecidableEq

structure World where
  worktrees : List Slot
  time : ℤ
  dead : List ℕ
  allocated : ℕ
  holds : List Hold
  /-- The acquirer whose worktree was released, and the writer of the lease that was cleared. -/
  cleared : List (ℕ × ℕ)
  tornDown : List Hold

namespace World

def first : World := ⟨[], 0, [], 0, [], [], []⟩

def isAlive (w : World) (pid : ℕ) : Bool := !w.dead.contains pid

def hasPath (w : World) (path : Text) : Bool := w.worktrees.any (·.path == path)

def writeLease (w : World) (path : Text) (lease : Lease) : World :=
  { w with worktrees := w.worktrees.map fun slot =>
      if slot.path = path then { slot with lease := some lease } else slot }

def clearLease (w : World) (path : Text) (releasedAt : ℤ) (holder : ℕ) : World :=
  { w with
    worktrees := w.worktrees.map fun slot =>
      if slot.path = path then slot.clear releasedAt else slot
    cleared := w.cleared ++ (w.worktrees.filter (·.path = path)).flatMap fun slot =>
      (slot.lease.map fun lease => (holder, lease.writer)).toList }

def materialize (w : World) (path : Text) : World :=
  { w with worktrees := w.worktrees ++ [⟨path, none⟩] }

/-- A removal is called, and may work. -/
def removeWorktree (w : World) (path : Text) (works : Bool) : World :=
  { w with
    worktrees := if works then w.worktrees.filter (·.path ≠ path) else w.worktrees
    tornDown := w.tornDown ++
      w.holds.filter fun hold => hold.path = path && w.isAlive hold.lease.pid }

end World

inductive Call where
  | acquire (req : AcquireRequest)
  | release (holder : ℕ) (path base : Text)
  | prune

inductive Returned where
  | acquired (lease : Option AcquiredLease)
  | released
  | pruned (result : PruneResult)

def Call.program (cfg : WorktreePoolConfig) : Call → Program Returned
  | .acquire req => do
      let lease ← acquireLease cfg req
      pure (.acquired lease)
  | .release _ path base => do
      releaseLease path base
      pure .released
  | .prune => do
      let result ← pruneIdleWorktrees cfg
      pure (.pruned result)

def Call.holder (id : ℕ) : Call → ℕ
  | .release holder _ _ => holder
  | _ => id

/-- An operation throws, or works; a probe then finds what it finds. -/
inductive Choice where
  | fails
  | works (yes : Bool)
  deriving DecidableEq

inductive Event where
  | tick (time : ℤ)
  | die (pid : ℕ)

section
variable (nextPath : ℕ → Text)

def perform (w : World) (id : ℕ) (call : Call) (yes : Bool) :
    (q : PoolOp) → Option (Answer q) × World
  | .listPool => (some (w.worktrees.map Slot.listed), w)
  | .now => (some w.time, w)
  | .isAlive => (some w.isAlive, w)
  | .nextPath => (some (nextPath w.allocated), { w with allocated := w.allocated + 1 })
  | .refreshWarm path _ _ => (if w.hasPath path then some () else none, w)
  | .materializeCold path _ _ =>
    if w.hasPath path then (none, w) else (some (), w.materialize path)
  | .writeLease path lease =>
    if w.hasPath path then (some (), w.writeLease path ⟨lease, id⟩) else (none, w)
  | .resetForReturn path _ => (if w.hasPath path then some () else none, w)
  | .clearLease path releasedAt =>
    if w.hasPath path then (some (), w.clearLease path releasedAt (call.holder id))
    else (none, w)
  | .isClean _ => (some yes, w)
  | .isMerged _ => (some yes, w)
  | .removeWorktree path => (some (), w.removeWorktree path true)

/-- What an operation does that throws. The clock, the life of a process and the next path
are no operations on files. -/
def refuse (w : World) : PoolOp → Option World
  | .now => none
  | .isAlive => none
  | .nextPath => none
  | .removeWorktree path => some (w.removeWorktree path false)
  | _ => some w

def reply (w : World) (id : ℕ) (call : Call) (q : PoolOp) : Choice → Option (Option (Answer q) × World)
  | .fails => (refuse w q).map fun w => (none, w)
  | .works yes => some (perform nextPath w id call yes q)

end

def settle (w : World) (id : ℕ) (call : Call) (result : Option Returned) : World :=
  match call, result with
  | .acquire _, some (.acquired (some lease)) =>
    { w with holds := ⟨id, lease.path, lease.lease⟩ :: w.holds }
  | .release holder _ _, some .released =>
    { w with holds := w.holds.filter (·.holder ≠ holder) }
  | _, _ => w

def happens (w : World) : Event → Option World
  | .tick time => if w.time ≤ time then some { w with time := time } else none
  | .die pid => some { w with dead := pid :: w.dead }

def pool (cfg : WorktreePoolConfig) (nextPath : ℕ → Text) :
    Service PoolOp Answer Returned Call World Choice Event where
  program _ call := call.program cfg
  reply := reply nextPath
  settle := settle
  moves := happens

abbrev Session := Service.Session PoolOp Answer Returned Call

abbrev State := Service.State PoolOp Answer Returned Call World

abbrev Move := Service.Move Call Choice Event

/-- The lease of a release was cleared just now. -/
def clearedLast (past : List (Exchange PoolOp Answer)) : Prop :=
  ∃ path releasedAt, past.getLast? = some ⟨.clearLease path releasedAt, some ()⟩

/-- The pool as the last listing of a call answered it. -/
def listed (past : List (Exchange PoolOp Answer)) : List PooledWorktree :=
  past.foldl (fun pool e => match e with
    | ⟨.listPool, some answer⟩ => answer
    | _ => pool) []

/-- The call made its worktree itself. -/
def madeIn (past : List (Exchange PoolOp Answer)) : Bool :=
  past.any fun e => match e with
    | ⟨.materializeCold _ _ _, some _⟩ => true
    | _ => false

/-- The worktree was listed, and found not in use by the probes of the call. -/
def Chosen (cfg : WorktreePoolConfig) (past : List (Exchange PoolOp Answer)) (path : Text) : Prop :=
  ∃ wt ∈ listed past, wt.path = path ∧ ∃ isAlive nowS,
    (⟨.isAlive, some isAlive⟩ : Exchange PoolOp Answer) ∈ past ∧
      (⟨.now, some nowS⟩ : Exchange PoolOp Answer) ∈ past ∧
        leaseStatus isAlive nowS cfg.leaseTtlS wt.lease ≠ .leasedLive

/-- A lease is written by its acquirer, on a worktree that it made where there was room or
chose as not in use, and cleared by a release, which ends with that. A sweep removes what it
found not in use. -/
def asks (cfg : WorktreePoolConfig) (call : Call) (past : List (Exchange PoolOp Answer))
    (q : PoolOp) : Prop :=
  match call, q with
  | .acquire _, .clearLease _ _ => False
  | .acquire _, .removeWorktree _ => False
  | .acquire _, .materializeCold _ _ _ => (listed past).length < cfg.maxSize
  | .acquire _, .writeLease path lease =>
    lease.releasedAt = none ∧ (madeIn past = true ∨ Chosen cfg past path)
  | .acquire _, _ => True
  | .release _ path _, .clearLease cleared _ => cleared = path ∧ ¬ clearedLast past
  | .release _ _ _, .resetForReturn _ _ => ¬ clearedLast past
  | .release _ _ _, .now => ¬ clearedLast past
  | .release _ _ _, _ => False
  | .prune, .writeLease _ _ => False
  | .prune, .clearLease _ _ => False
  | .prune, .materializeCold _ _ _ => False
  | .prune, .removeWorktree path => Chosen cfg past path
  | .prune, _ => True

def ends (call : Call) (past : List (Exchange PoolOp Answer)) (result : Option Returned) : Prop :=
  match call, result with
  | .acquire _, some (.acquired (some lease)) =>
    past.getLast? = some ⟨.writeLease lease.path lease.lease, some ()⟩
  | .release _ _ _, none => ¬ clearedLast past
  | .release _ _ _, some value => value = .released
  | _, _ => True

section
variable {past : List (Exchange PoolOp Answer)} {req : AcquireRequest}

lemma not_clearedLast_concat {e : Exchange PoolOp Answer}
    (h : ∀ path releasedAt, e ≠ ⟨.clearLease path releasedAt, some ()⟩) :
    ¬ clearedLast (past ++ [e]) := by
  rintro ⟨path, releasedAt, hlast⟩
  rw [List.getLast?_concat] at hlast
  exact h path releasedAt (Option.some.inj hlast)

lemma listed_read (pool : List PooledWorktree) :
    listed (past ++ [⟨.listPool, some pool⟩]) = pool := by
  rw [listed, List.foldl_append]
  rfl

lemma listed_concat {q : PoolOp} {answer : Option (Answer q)} (h : q ≠ .listPool) :
    listed (past ++ [⟨q, answer⟩]) = listed past := by
  rw [listed, List.foldl_append]
  cases q <;> first | rfl | exact absurd rfl h

/-- What a sweep knows of the pool and the clock. -/
def Swept (pool : List PooledWorktree) (nowS : ℤ) (past : List (Exchange PoolOp Answer)) : Prop :=
  listed past = pool ∧ (⟨.now, some nowS⟩ : Exchange PoolOp Answer) ∈ past

/-- What a call knows of the pool, the clock and the processes. -/
def Seen (pool : List PooledWorktree) (nowS : ℤ) (isAlive : ℕ → Bool)
    (past : List (Exchange PoolOp Answer)) : Prop :=
  listed past = pool ∧ (⟨.now, some nowS⟩ : Exchange PoolOp Answer) ∈ past ∧
    (⟨.isAlive, some isAlive⟩ : Exchange PoolOp Answer) ∈ past

variable {cfg : WorktreePoolConfig} {nowS : ℤ} {pool : List PooledWorktree} {isAlive : ℕ → Bool}

lemma swept_now (h : listed past = pool) (nowS : ℤ) :
    Swept pool nowS (past ++ [⟨.now, some nowS⟩]) :=
  ⟨(listed_concat (by rintro ⟨⟩)).trans h, List.mem_append_right _ (by simp)⟩

lemma Swept.seen (h : Swept pool nowS past) (isAlive : ℕ → Bool) :
    Seen pool nowS isAlive (past ++ [⟨.isAlive, some isAlive⟩]) :=
  ⟨(listed_concat (by rintro ⟨⟩)).trans h.1, List.mem_append_left _ h.2,
    List.mem_append_right _ (by simp)⟩

lemma Seen.swept (h : Seen pool nowS isAlive past) : Swept pool nowS past := ⟨h.1, h.2.1⟩

lemma Seen.concat (h : Seen pool nowS isAlive past) {q : PoolOp} {answer : Option (Answer q)}
    (hq : q ≠ .listPool) : Seen pool nowS isAlive (past ++ [⟨q, answer⟩]) :=
  ⟨(listed_concat hq).trans h.1, List.mem_append_left _ h.2.1, List.mem_append_left _ h.2.2⟩

lemma Seen.chosen (h : Seen pool nowS isAlive past) {wt : PooledWorktree} (hwt : wt ∈ pool)
    (hstat : leaseStatus isAlive nowS cfg.leaseTtlS wt.lease ≠ .leasedLive) :
    Chosen cfg past wt.path :=
  ⟨wt, h.1 ▸ hwt, rfl, isAlive, nowS, h.2.2, h.2.1, hstat⟩

/-- A call that is not answered has failed, and one that is answered goes on with what the
answer tells. -/
lemma need_then {call : Call} {q : PoolOp} {α : Type} {f : Answer q → Program α}
    {ends : List (Exchange PoolOp Answer) → Option α → Prop}
    (kept : List (Exchange PoolOp Answer) → Answer q → Prop) (hasks : asks cfg call past q)
    (hkept : ∀ a, kept (past ++ [⟨q, some a⟩]) a)
    (hnext : ∀ a past, kept past a → (f a).Conducts (asks cfg call) ends past)
    (hnone : ∀ past, ends past none) :
    (need q >>= f).Conducts (asks cfg call) ends past := by
  have hneed : (need q : Program (Answer q)).Conducts (asks cfg call)
      (fun past value => ∀ a, value = some a → kept past a) past := by
    apply conducts_need hasks
    rintro answer a rfl
    exact hkept a
  exact hneed.seq (fun a past h => hnext a past (h a rfl)) fun past _ => hnone past

def Given (past : List (Exchange PoolOp Answer)) (value : Option (Option AcquiredLease)) : Prop :=
  ∀ found, value = some (some found) →
    past.getLast? = some ⟨.writeLease found.path found.lease, some ()⟩

lemma given_none (past : List (Exchange PoolOp Answer)) : Given past none := by
  rintro found ⟨⟩

lemma leaseWorktree_conducts {path : Text} {reused : Bool}
    (h : madeIn past = true ∨ Chosen cfg past path) :
    (leaseWorktree req nowS path reused).Conducts (asks cfg (.acquire req)) Given past := by
  have hasks : asks cfg (.acquire req) past (.writeLease path (req.lease nowS)) := ⟨rfl, h⟩
  refine need_then (fun past _ => past.getLast? =
    some ⟨.writeLease path (req.lease nowS), some ()⟩) hasks (fun _ => List.getLast?_concat) ?_
    given_none
  rintro ⟨⟩ past hlast found hfound
  obtain rfl := Option.some.inj (Option.some.inj hfound)
  exact hlast

lemma acquireLease_conducts :
    (acquireLease cfg req).Conducts (asks cfg (.acquire req)) Given past := by
  refine need_then (fun past pool => listed past = pool) trivial listed_read ?_ given_none
  intro pool past hlist
  refine need_then (fun past nowS => Swept pool nowS past) trivial (swept_now hlist) ?_ given_none
  intro nowS past hswept
  refine need_then (fun past isAlive => Seen pool nowS isAlive past) trivial hswept.seen ?_
    given_none
  intro isAlive past hseen
  split
  · next pick hpick =>
      obtain ⟨hmem, hstat⟩ := selectLeasable_spec hpick
      refine need_then (fun past _ => Seen pool nowS isAlive past) trivial
        (fun _ => hseen.concat (by rintro ⟨⟩)) ?_ given_none
      intro _ past hseen
      exact leaseWorktree_conducts (.inr (hseen.chosen hmem hstat))
  · split_ifs with hfull
    · rintro found ⟨⟩
    · refine need_then (fun past _ => Seen pool nowS isAlive past) trivial
        (fun _ => hseen.concat (by rintro ⟨⟩)) ?_ given_none
      intro path past hseen
      have hcold : asks cfg (.acquire req) past (.materializeCold path req.branch req.base) := by
        change (listed past).length < cfg.maxSize
        rw [hseen.1]
        exact not_le.mp hfull
      refine need_then (fun past _ => madeIn past = true) hcold (fun _ => by simp [madeIn]) ?_
        given_none
      intro _ past hmade
      exact leaseWorktree_conducts (.inl hmade)

lemma releaseLease_conducts {holder : ℕ} {path base : Text} (hpast : ¬ clearedLast past) :
    (releaseLease path base).Conducts (asks cfg (.release holder path base))
      (fun past value => value = none → ¬ clearedLast past) past := by
  have hres : (need (PoolOp.resetForReturn path base) : Program Unit).Conducts
      (asks cfg (.release holder path base)) (fun past _ => ¬ clearedLast past) past :=
    conducts_need hpast fun _ => not_clearedLast_concat (by rintro _ _ ⟨⟩)
  refine hres.seq ?_ fun _ hpast _ => hpast
  rintro _ past hpast
  have hnow : (need PoolOp.now : Program ℤ).Conducts (asks cfg (.release holder path base))
      (fun past _ => ¬ clearedLast past) past :=
    conducts_need hpast fun _ => not_clearedLast_concat (by rintro _ _ ⟨⟩)
  refine hnow.seq ?_ fun _ hpast _ => hpast
  rintro releasedAt past hpast
  apply conducts_need
  · exact ⟨rfl, hpast⟩
  · rintro answer rfl
    exact not_clearedLast_concat (by rintro _ _ ⟨⟩)

lemma pruneWorktree_conducts {wt : PooledWorktree} {result : PruneResult}
    (h : Swept pool nowS past) (hwt : wt ∈ pool) :
    (pruneWorktree cfg nowS wt result).Conducts (asks cfg .prune)
      (fun past value => value ≠ none → Swept pool nowS past) past := by
  have hnone : ∀ past : List (Exchange PoolOp Answer),
      (none : Option PruneResult) ≠ none → Swept pool nowS past := fun _ hne => absurd rfl hne
  refine need_then (fun past isAlive => Seen pool nowS isAlive past) trivial h.seen ?_ hnone
  intro isAlive past hseen
  dsimp only
  split_ifs with hlive
  · exact fun _ => hseen.swept
  · refine need_then (fun past _ => Seen pool nowS isAlive past) trivial
      (fun _ => hseen.concat (by rintro ⟨⟩)) ?_ hnone
    intro clean past hseen
    split_ifs
    · exact fun _ => hseen.swept
    · refine need_then (fun past _ => Seen pool nowS isAlive past) trivial
        (fun _ => hseen.concat (by rintro ⟨⟩)) ?_ hnone
      intro merged past hseen
      split_ifs
      · exact fun _ => hseen.swept
      · exact fun _ => hseen.swept
      · refine need_then (fun past _ => Seen pool nowS isAlive past) (hseen.chosen hwt hlive)
          (fun _ => hseen.concat (by rintro ⟨⟩)) ?_ hnone
        intro _ past hseen _
        exact hseen.swept

lemma pruneAll_conducts (rest : List PooledWorktree) {result : PruneResult}
    (h : Swept pool nowS past) (hrest : rest ⊆ pool) :
    (pruneAll cfg nowS rest result).Conducts (asks cfg .prune) (fun _ _ => True) past := by
  induction rest generalizing past result with
  | nil => trivial
  | cons wt rest ih =>
    apply (pruneWorktree_conducts h (hrest List.mem_cons_self)).seq
    · intro result past hswept
      exact ih (hswept (Option.some_ne_none _)) (List.subset_of_cons_subset hrest)
    · exact fun _ _ => trivial

lemma program_conducts (cfg : WorktreePoolConfig) (call : Call) :
    (call.program cfg).Conducts (asks cfg call) (ends call) [] := by
  cases call with
  | acquire req =>
    apply acquireLease_conducts.seq
    · intro lease past hgiv
      cases lease with
      | none => trivial
      | some found => exact hgiv found rfl
    · intro past _
      trivial
  | release holder path base =>
    have hnil : ¬ clearedLast [] := by
      rintro ⟨_, _, ⟨⟩⟩
    exact (releaseLease_conducts hnil).seq (fun _ _ _ => rfl) fun _ hpast => hpast rfl
  | prune =>
    have hprune : (pruneIdleWorktrees cfg).Conducts (asks cfg .prune) (fun _ _ => True) [] := by
      have hnone : ∀ past : List (Exchange PoolOp Answer), True := fun _ => trivial
      refine need_then (fun past pool => listed past = pool) trivial listed_read ?_ hnone
      intro pool past hlist
      refine need_then (fun past nowS => Swept pool nowS past) trivial (swept_now hlist) ?_ hnone
      intro nowS past hswept
      exact pruneAll_conducts pool hswept (List.Subset.refl _)
    exact hprune.seq (fun _ _ _ => trivial) fun _ _ => trivial

end
end Redskilled.Pool
