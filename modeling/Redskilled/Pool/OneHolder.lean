import Mathlib.Data.List.Nodup
import Redskilled.Pool.Holders

/-!
# One holder

A lease is written behind a long refresh, on a worktree that was chosen from an earlier
listing, and a sweep removes what it listed before its probes. Where a worktree is still as
it was listed when its lease is written or it is removed, what the call found out about it
still holds, for a lease that is not in use does not come into use of itself. If moreover no
release of the worktree is under way and the pool has not grown when a worktree is made,
each worktree has one holder that lives.
-/
namespace Redskilled.Pool
open Foundation Foundation.Text Dialogue List

section
variable (cfg : WorktreePoolConfig) (s : State)

def World.unused (w : World) (ttlS : ℤ) (path : Text) : Bool :=
  w.worktrees.all fun slot => slot.path != path ||
    isLeasable (leaseStatus w.isAlive w.time ttlS (slot.lease.map (·.record)))

def isRunning : Program Returned → Bool
  | .ask _ _ => true
  | _ => false

def releasing (ok : ℕ → Text → Bool) : Bool :=
  (List.range s.count).any fun id =>
    match s.sessions id with
    | some ⟨.release holder path _, _, program⟩ => isRunning program && ok holder path
    | _ => false

/-- A release is called for what is held, one at a time, and what is held by a process that
lives has a lease that is not too old. -/
def wellCalled : Move → Bool
  | .call (.release holder path _) =>
    s.world.holds.any (fun hold => hold.holder == holder && hold.path == path) &&
      !releasing s fun other _ => other == holder
  | .world (.tick time) => s.world.holds.all fun hold =>
    !s.world.isAlive hold.lease.pid || time < hold.lease.acquiredAt + cfg.leaseTtlS
  | _ => true

/-- The worktree of this path is as a listing has it. -/
def World.asListed (w : World) (listing : List PooledWorktree) (path : Text) : Bool :=
  w.worktrees.all fun slot => slot.path != path || decide (slot.listed ∈ listing)

/-- The worktree of this path has had no lease yet. -/
def World.asMade (w : World) (path : Text) : Bool :=
  w.worktrees.all fun slot => slot.path != path || slot.lease.isNone

/-- What is done is done to what is as the call's own listing answered, or as the call made it,
and to a pool no larger than was listed. -/
def opKept (choice : Choice) (past : List (Exchange PoolOp Answer)) : PoolOp → Bool
  | .writeLease path lease => choice = .fails ||
      ((if madeIn past then s.world.asMade path else s.world.asListed (listed past) path) &&
        (!releasing s fun _ released => released == path) &&
        (!s.world.isAlive lease.pid || s.world.time < lease.acquiredAt + cfg.leaseTtlS))
  | .materializeCold _ _ _ =>
    choice = .fails || s.world.worktrees.length ≤ (listed past).length
  | .removeWorktree path => s.world.asListed (listed past) path
  | _ => true

/-- A release is called while the process of the hold lives. -/
def kept (move : Move) : Bool :=
  wellCalled cfg s move &&
    match move with
    | .call (.release holder path _) => s.world.holds.any fun hold =>
      hold.holder == holder && hold.path == path && s.world.isAlive hold.lease.pid
    | .op id choice => (s.sessions id).all fun session =>
      match session.program with
      | .ask q _ => opKept cfg s choice session.past q
      | _ => true
    | _ => true

end

/-- Every lease of the worktree is its holder's. -/
def World.leasedBy (w : World) (holder : ℕ) (path : Text) : Bool :=
  w.worktrees.all fun slot => slot.path != path || slot.lease.all (·.writer == holder)

/-- What a call was answered: no worktree twice, no later time, and whoever lives still lived. -/
structure Noted (w : World) (past : List (Exchange PoolOp Answer)) : Prop where
  paths : ((listed past).map (·.path)).Nodup
  time : ∀ nowS, (⟨.now, some nowS⟩ : Exchange PoolOp Answer) ∈ past → nowS ≤ w.time
  alive : ∀ isAlive, (⟨.isAlive, some isAlive⟩ : Exchange PoolOp Answer) ∈ past →
    ∀ pid, w.isAlive pid = true → isAlive pid = true

def Hold.Leased (cfg : WorktreePoolConfig) (w : World) (hold : Hold) : Prop :=
  hold.lease.releasedAt = none ∧ w.time < hold.lease.acquiredAt + cfg.leaseTtlS ∧
    ∃ slot ∈ w.worktrees, slot.path = hold.path ∧ slot.lease = some ⟨hold.lease, hold.holder⟩

structure Kept (cfg : WorktreePoolConfig) (s : State) : Prop where
  size : s.world.worktrees.length ≤ cfg.maxSize
  paths : (s.world.worktrees.map (·.path)).Nodup
  held : ∀ hold ∈ s.world.holds, s.world.isAlive hold.lease.pid = true → hold.Leased cfg s.world
  releases : ∀ id session holder path base, s.sessions id = some session →
    session.call = .release holder path base → isRunning session.program = true →
      s.world.leasedBy holder path = true
  noted : ∀ id session, s.sessions id = some session → Noted s.world session.past
  cleared : ∀ holder writer, (holder, writer) ∈ s.world.cleared → holder = writer
  tornDown : s.world.tornDown = []

section
variable {cfg : WorktreePoolConfig} {w : World} {path : Text} {holder : ℕ}

lemma leasedBy_iff : w.leasedBy holder path = true ↔ ∀ slot ∈ w.worktrees, slot.path = path →
    ∀ lease, slot.lease = some lease → lease.writer = holder := by
  simp only [World.leasedBy, all_eq_true, Bool.or_eq_true, bne_iff_ne, Option.all_eq_true,
    beq_iff_eq]
  constructor
  · intro h slot hslot hpath lease hlease
    rcases h slot hslot with hne | hall
    · exact absurd hpath hne
    · exact hall lease hlease
  · intro h slot hslot
    by_cases hpath : slot.path = path
    · exact .inr fun lease hlease => h slot hslot hpath lease hlease
    · exact .inl hpath

lemma Hold.Leased.used {hold : Hold} (h : hold.Leased cfg w)
    (halive : w.isAlive hold.lease.pid = true) : w.unused cfg.leaseTtlS hold.path = false := by
  obtain ⟨hrel, hyoung, slot, hslot, hpath, hlease⟩ := h
  apply Bool.eq_false_iff.mpr
  intro hunus
  have hall := all_eq_true.mp hunus slot hslot
  have hlive : leaseStatus w.isAlive w.time cfg.leaseTtlS (some hold.lease) = .leasedLive :=
    leaseStatus_eq_live.mpr ⟨hrel, halive, hyoung⟩
  simp [hpath, hlease, hlive, isLeasable] at hall

lemma isAlive_iff {pid : ℕ} : w.isAlive pid = true ↔ pid ∉ w.dead := by
  simp [World.isAlive]

lemma Noted.later {w' : World} {past : List (Exchange PoolOp Answer)} (h : Noted w past)
    (htime : w.time ≤ w'.time) (hdead : w.dead ⊆ w'.dead) : Noted w' past where
  paths := h.paths
  time nowS hmem := (h.time nowS hmem).trans htime
  alive isAlive hmem pid halive := by
    apply h.alive isAlive hmem pid
    rw [isAlive_iff] at halive ⊢
    exact fun hpid => halive (hdead hpid)

lemma noted_nil (w : World) : Noted w [] where
  paths := .nil
  time := by rintro _ ⟨⟩
  alive := by rintro _ ⟨⟩

lemma unused_of_asMade {ttlS : ℤ} (h : w.asMade path = true) : w.unused ttlS path = true := by
  apply all_eq_true.mpr
  intro slot hslot
  have hmade := all_eq_true.mp h slot hslot
  rw [Bool.or_eq_true] at hmade ⊢
  refine hmade.imp_right fun hnone => ?_
  rw [Option.isNone_iff_eq_none.mp hnone]
  rfl

/-- What was found not in use when it was listed is not in use while it is as listed. -/
lemma unused_of_asListed {past : List (Exchange PoolOp Answer)} (hnoted : Noted w past)
    (hchos : Chosen cfg past path) (h : w.asListed (listed past) path = true) :
    w.unused cfg.leaseTtlS path = true := by
  obtain ⟨wt, hwt, hpath, isAlive, nowS, halive, hnow, hstat⟩ := hchos
  apply all_eq_true.mpr
  intro slot hslot
  have hlist := all_eq_true.mp h slot hslot
  rw [Bool.or_eq_true, bne_iff_ne, decide_eq_true_eq] at hlist
  rw [Bool.or_eq_true, bne_iff_ne]
  by_cases hsame : slot.path = path
  · have hmem := hlist.resolve_left (not_not.mpr hsame)
    obtain rfl : slot.listed = wt :=
      inj_on_of_nodup_map hnoted.paths hmem hwt (hsame.trans hpath.symm)
    have hnow := not_live_later (hnoted.time nowS hnow) (hnoted.alive isAlive halive) hstat
    exact .inr (decide_eq_true hnow)
  · exact .inl hsame

lemma not_mem_paths (h : w.hasPath path = false) : path ∉ w.worktrees.map (·.path) := by
  intro hmem
  obtain ⟨slot, hslot, hpath⟩ := mem_map.mp hmem
  have hhas : w.hasPath path = true := any_eq_true.mpr ⟨slot, hslot, by simpa using hpath⟩
  rw [h] at hhas
  cases hhas

lemma mem_map_of_ne {worktrees : List Slot} {f : Slot → Slot} {slot : Slot}
    (hslot : slot ∈ worktrees) (hne : slot.path ≠ path) :
    slot ∈ worktrees.map fun slot => if slot.path = path then f slot else slot :=
  mem_map.mpr ⟨slot, hslot, if_neg hne⟩

lemma map_paths {worktrees : List Slot} {f : Slot → Slot} (hf : ∀ slot, (f slot).path = slot.path) :
    (worktrees.map fun slot => if slot.path = path then f slot else slot).map (·.path) =
      worktrees.map (·.path) := by
  rw [map_map]
  apply map_congr_left
  intro slot _
  dsimp only [Function.comp]
  split_ifs
  · exact hf slot
  · rfl

lemma writeLease_paths (path : Text) (lease : Lease) :
    (w.writeLease path lease).worktrees.map (·.path) = w.worktrees.map (·.path) :=
  map_paths fun _ => rfl

lemma clearLease_paths (path : Text) (releasedAt : ℤ) (holder : ℕ) :
    (w.clearLease path releasedAt holder).worktrees.map (·.path) = w.worktrees.map (·.path) :=
  map_paths fun _ => rfl

lemma leasedBy_materialize (h : w.leasedBy holder path = true) (made : Text) :
    (w.materialize made).leasedBy holder path = true := by
  rw [leasedBy_iff] at h ⊢
  intro slot hslot hpath lease hlease
  rcases mem_append.mp hslot with hslot | hslot
  · exact h slot hslot hpath lease hlease
  · rw [mem_singleton.mp hslot] at hlease
    cases hlease

lemma leasedBy_writeLease {written : Text} {lease : Lease} (h : w.leasedBy holder path = true)
    (hne : path ≠ written) : (w.writeLease written lease).leasedBy holder path = true := by
  rw [leasedBy_iff] at h ⊢
  intro slot hslot hpath found hfound
  obtain ⟨before, hbef, rfl⟩ := mem_map.mp hslot
  split_ifs at hpath hfound with hwritt
  · exact absurd (hpath.symm.trans hwritt) hne
  · exact h before hbef hpath found hfound

lemma leasedBy_clearLease {cleared : Text} {releasedAt : ℤ} {other : ℕ}
    (h : w.leasedBy holder path = true) :
    (w.clearLease cleared releasedAt other).leasedBy holder path = true := by
  rw [leasedBy_iff] at h ⊢
  intro slot hslot hpath found hfound
  obtain ⟨before, hbef, rfl⟩ := mem_map.mp hslot
  split_ifs at hpath hfound
  · obtain ⟨lease, hlease, rfl⟩ := Option.map_eq_some_iff.mp hfound
    exact h before hbef hpath lease hlease
  · exact h before hbef hpath found hfound

lemma mem_removeWorktree {slot : Slot} {works : Bool}
    (h : slot ∈ (w.removeWorktree path works).worktrees) : slot ∈ w.worktrees := by
  unfold World.removeWorktree at h
  dsimp only at h
  split_ifs at h
  · exact mem_of_mem_filter h
  · exact h

lemma leasedBy_removeWorktree {removed : Text} {works : Bool} (h : w.leasedBy holder path = true) :
    (w.removeWorktree removed works).leasedBy holder path = true := by
  rw [leasedBy_iff] at h ⊢
  intro slot hslot
  exact h slot (mem_removeWorktree hslot)

section
variable {hold : Hold}

lemma Hold.Leased.materialize (h : hold.Leased cfg w) (path : Text) :
    hold.Leased cfg (w.materialize path) := by
  obtain ⟨hrel, hyoung, slot, hslot, hrest⟩ := h
  exact ⟨hrel, hyoung, slot, mem_append_left _ hslot, hrest⟩

lemma Hold.Leased.writeLease (h : hold.Leased cfg w) {lease : Lease} (hne : hold.path ≠ path) :
    hold.Leased cfg (w.writeLease path lease) := by
  obtain ⟨hrel, hyoung, slot, hslot, hpath, hlease⟩ := h
  exact ⟨hrel, hyoung, slot, mem_map_of_ne hslot (by rw [hpath]; exact hne), hpath, hlease⟩

lemma Hold.Leased.clearLease (h : hold.Leased cfg w) {releasedAt : ℤ} {other : ℕ}
    (hne : hold.path ≠ path) : hold.Leased cfg (w.clearLease path releasedAt other) := by
  obtain ⟨hrel, hyoung, slot, hslot, hpath, hlease⟩ := h
  exact ⟨hrel, hyoung, slot, mem_map_of_ne hslot (by rw [hpath]; exact hne), hpath, hlease⟩

lemma Hold.Leased.removeWorktree (h : hold.Leased cfg w) {works : Bool}
    (hne : hold.path ≠ path) : hold.Leased cfg (w.removeWorktree path works) := by
  obtain ⟨hrel, hyoung, slot, hslot, hpath, hlease⟩ := h
  refine ⟨hrel, hyoung, slot, ?_, hpath, hlease⟩
  unfold World.removeWorktree
  dsimp only
  split_ifs
  · exact mem_filter.mpr ⟨hslot, by simpa [hpath] using hne⟩
  · exact hslot

lemma leased_written {id : ℕ} {lease : LeaseRecord} (hpath : w.hasPath path = true)
    (hrel : lease.releasedAt = none) (hyoung : w.time < lease.acquiredAt + cfg.leaseTtlS) :
    (⟨id, path, lease⟩ : Hold).Leased cfg (w.writeLease path ⟨lease, id⟩) := by
  obtain ⟨slot, hslot, hsame⟩ := any_eq_true.mp hpath
  have hsame : slot.path = path := by simpa using hsame
  refine ⟨hrel, hyoung, { slot with lease := some ⟨lease, id⟩ }, ?_, hsame, rfl⟩
  exact mem_map.mpr ⟨slot, hslot, if_pos hsame⟩

end
end

section
variable {cfg : WorktreePoolConfig} {nextPath : ℕ → Text} {s : State} {w w' : World} {id : ℕ}
  {call : Call} {q : PoolOp} {choice : Choice} {answer : Option (Answer q)}

lemma reply_cases (h : reply nextPath w id call q choice = some (answer, w')) :
    ((∃ n, w' = { w with allocated := n }) ∧
      ∀ path lease, (⟨q, answer⟩ : Exchange PoolOp Answer) ≠ ⟨.writeLease path lease, some ()⟩) ∨
    (∃ path branch base, q = .materializeCold path branch base ∧ choice ≠ .fails ∧
      w.hasPath path = false ∧ w' = w.materialize path) ∨
    (∃ path lease, (⟨q, answer⟩ : Exchange PoolOp Answer) = ⟨.writeLease path lease, some ()⟩ ∧
      choice ≠ .fails ∧ w.hasPath path = true ∧ w' = w.writeLease path ⟨lease, id⟩) ∨
    (∃ path releasedAt, (⟨q, answer⟩ : Exchange PoolOp Answer) =
        ⟨.clearLease path releasedAt, some ()⟩ ∧
      w' = w.clearLease path releasedAt (call.holder id)) ∨
    ∃ path works, q = .removeWorktree path ∧ w' = w.removeWorktree path works := by
  cases choice with
  | fails =>
    obtain ⟨left, hleft, hsame⟩ := Option.map_eq_some_iff.mp h
    obtain ⟨rfl, rfl⟩ := Prod.mk.inj hsame
    cases q with
    | now => cases hleft
    | isAlive => cases hleft
    | nextPath => cases hleft
    | removeWorktree path =>
      cases hleft
      exact .inr (.inr (.inr (.inr ⟨path, false, rfl, rfl⟩)))
    | _ =>
      cases hleft
      exact .inl ⟨⟨w.allocated, rfl⟩, by rintro _ _ ⟨⟩⟩
  | works yes =>
    have hperf : perform nextPath w id call yes q = (answer, w') := Option.some.inj h
    cases q with
    | nextPath =>
      obtain ⟨rfl, rfl⟩ := Prod.mk.inj hperf
      exact .inl ⟨⟨w.allocated + 1, rfl⟩, by rintro _ _ ⟨⟩⟩
    | materializeCold path branch base =>
      simp only [perform] at hperf
      split_ifs at hperf with hpath
      · obtain ⟨rfl, rfl⟩ := Prod.mk.inj hperf
        exact .inl ⟨⟨w.allocated, rfl⟩, by rintro _ _ ⟨⟩⟩
      · obtain ⟨rfl, rfl⟩ := Prod.mk.inj hperf
        exact .inr (.inl ⟨path, branch, base, rfl, by rintro ⟨⟩, by simpa using hpath, rfl⟩)
    | writeLease path lease =>
      simp only [perform] at hperf
      split_ifs at hperf with hpath
      · obtain ⟨rfl, rfl⟩ := Prod.mk.inj hperf
        exact .inr (.inr (.inl ⟨path, lease, rfl, by rintro ⟨⟩, hpath, rfl⟩))
      · obtain ⟨rfl, rfl⟩ := Prod.mk.inj hperf
        exact .inl ⟨⟨w.allocated, rfl⟩, by rintro _ _ ⟨⟩⟩
    | clearLease path releasedAt =>
      simp only [perform] at hperf
      split_ifs at hperf with hpath
      · obtain ⟨rfl, rfl⟩ := Prod.mk.inj hperf
        exact .inr (.inr (.inr (.inl ⟨path, releasedAt, rfl, rfl⟩)))
      · obtain ⟨rfl, rfl⟩ := Prod.mk.inj hperf
        exact .inl ⟨⟨w.allocated, rfl⟩, by rintro _ _ ⟨⟩⟩
    | removeWorktree path =>
      obtain ⟨rfl, rfl⟩ := Prod.mk.inj hperf
      exact .inr (.inr (.inr (.inr ⟨path, true, rfl, rfl⟩)))
    | _ =>
      obtain ⟨rfl, rfl⟩ := Prod.mk.inj hperf
      exact .inl ⟨⟨w.allocated, rfl⟩, by rintro _ _ ⟨⟩⟩

/-- A listing answers the worktrees as they are, and the probes the time and who lives. -/
lemma Noted.answered {past : List (Exchange PoolOp Answer)} (h : Noted w past)
    (hpaths : (w.worktrees.map (·.path)).Nodup)
    (hreply : reply nextPath w id call q choice = some (answer, w')) :
    Noted w (past ++ [⟨q, answer⟩]) := by
  constructor
  · by_cases hq : q = .listPool
    · subst hq
      cases choice with
      | fails =>
        cases hreply
        rw [listed, foldl_append]
        exact h.paths
      | works yes =>
        cases hreply
        rw [listed_read, map_map]
        exact hpaths
    · rw [listed_concat hq]
      exact h.paths
  · intro nowS hmem
    rcases mem_append.mp hmem with hmem | hmem
    · exact h.time nowS hmem
    · cases mem_singleton.mp hmem
      cases choice <;> cases hreply
      exact le_refl _
  · intro isAlive hmem
    rcases mem_append.mp hmem with hmem | hmem
    · exact h.alive isAlive hmem
    · cases mem_singleton.mp hmem
      cases choice <;> cases hreply
      exact fun pid halive => halive

lemma settle_cases (w : World) (id : ℕ) (call : Call) (result : Option Returned) :
    (∃ req found, call = .acquire req ∧ result = some (.acquired (some found)) ∧
        settle w id call result = { w with holds := ⟨id, found.path, found.lease⟩ :: w.holds }) ∨
      (∃ holder path base, call = .release holder path base ∧ result = some .released ∧
        settle w id call result = { w with holds := w.holds.filter (·.holder ≠ holder) }) ∨
      ((∀ holder path base, call = .release holder path base → result ≠ some .released) ∧
        settle w id call result = w) := by
  unfold settle
  split
  · next req found => exact .inl ⟨req, found, rfl, rfl, rfl⟩
  · next holder path base => exact .inr (.inl ⟨holder, path, base, rfl, rfl, rfl⟩)
  · next hrelease =>
      refine .inr (.inr ⟨?_, rfl⟩)
      rintro holder path base rfl rfl
      exact hrelease holder path base rfl rfl

lemma settled_spec (w : World) (id : ℕ) (call : Call) (next : Program Returned) :
    ∃ holds, (pool cfg nextPath).settled w id call next = { w with holds := holds } ∧
      ∀ hold ∈ holds, (hold ∈ w.holds ∧ ∀ holder path base, call = .release holder path base →
          next = .done .released → hold.holder ≠ holder) ∨
        ∃ req found, call = .acquire req ∧ next = .done (.acquired (some found)) ∧
          hold = ⟨id, found.path, found.lease⟩ := by
  cases next with
  | ask q next =>
    refine ⟨w.holds, rfl, fun hold hhold => .inl ⟨hhold, ?_⟩⟩
    rintro _ _ _ - ⟨⟩
  | fail =>
    have hsettl : (pool cfg nextPath).settled w id call .fail = settle w id call none := rfl
    rcases settle_cases w id call none with ⟨_, _, -, ⟨⟩, -⟩ | ⟨_, _, _, -, ⟨⟩, -⟩ | ⟨-, hsame⟩
    refine ⟨w.holds, hsettl.trans hsame, fun hold hhold => .inl ⟨hhold, ?_⟩⟩
    rintro _ _ _ - ⟨⟩
  | done value =>
    have hsettl : (pool cfg nextPath).settled w id call (.done value) =
        settle w id call (some value) := rfl
    rcases settle_cases w id call (some value) with ⟨req, found, hcall, hvalue, hsame⟩ |
      ⟨holder, path, base, hcall, hvalue, hsame⟩ | ⟨hnot, hsame⟩
    · cases hvalue
      refine ⟨_, hsettl.trans hsame, ?_⟩
      intro hold hhold
      rcases List.mem_cons.mp hhold with rfl | hhold
      · exact .inr ⟨req, found, hcall, rfl, rfl⟩
      · refine .inl ⟨hhold, ?_⟩
        rintro _ _ _ hrelease
        rw [hcall] at hrelease
        cases hrelease
    · refine ⟨_, hsettl.trans hsame, ?_⟩
      intro hold hhold
      obtain ⟨hhold, hne⟩ := List.mem_filter.mp hhold
      refine .inl ⟨hhold, ?_⟩
      intro other _ _ hrelease _
      rw [hcall] at hrelease
      cases hrelease
      simpa using hne
    · refine ⟨w.holds, hsettl.trans hsame, fun hold hhold => .inl ⟨hhold, ?_⟩⟩
      intro holder path base hcall hdone
      have hvalue : value = .released := by
        cases hdone
        rfl
      exact absurd (by rw [hvalue]) (hnot holder path base hcall)

lemma released_of_cleared {session : Session} {path : Text} {releasedAt : ℤ}
    {next : Program Returned} {holder : ℕ} {released base : Text}
    (hcall : session.call = .release holder released base)
    (hcond : (session.goesOn ⟨.clearLease path releasedAt, some ()⟩ next).Conducted (asks cfg) ends) :
    next = .done .released := by
  have hlast : clearedLast (session.past ++ [⟨.clearLease path releasedAt, some ()⟩]) :=
    ⟨path, releasedAt, getLast?_concat⟩
  change next.Conducts (asks cfg session.call) (ends session.call) (session.past ++ _) at hcond
  rw [hcall] at hcond
  cases next with
  | done value => exact congrArg _ hcond
  | fail => exact absurd hlast hcond
  | ask q next =>
    have hasks := hcond.1
    cases q with
    | clearLease _ _ => exact absurd hlast hasks.2
    | resetForReturn _ _ => exact absurd hlast hasks
    | now => exact absurd hlast hasks
    | _ => exact hasks.elim

lemma written_of_acquired {session : Session} {e : Exchange PoolOp Answer} {req : AcquireRequest}
    {found : AcquiredLease} (hcall : session.call = .acquire req)
    (hcond : (session.goesOn e (.done (.acquired (some found)))).Conducted (asks cfg) ends) :
    e = ⟨.writeLease found.path found.lease, some ()⟩ := by
  change ends session.call (session.past ++ [e]) (some (.acquired (some found))) at hcond
  rw [hcall] at hcond
  have hlast : (session.past ++ [e]).getLast? =
      some ⟨.writeLease found.path found.lease, some ()⟩ := hcond
  rw [getLast?_concat] at hlast
  exact Option.some.inj hlast

end

section
variable {cfg : WorktreePoolConfig} {nextPath : ℕ → Text} {s : State}

variable {id : ℕ} {session : Session}

lemma opKept_of_kept {choice : Choice} {q : PoolOp}
    {next : Option (Answer q) → Program Returned} (hok : kept cfg s (.op id choice) = true)
    (hsess : s.sessions id = some session) (hask : session.program = .ask q next) :
    opKept cfg s choice session.past q = true := by
  simpa [kept, wellCalled, hsess, hask] using hok

lemma not_releasing {ok : ℕ → Text → Bool} (h : releasing s ok = false)
    (hgiv : ∀ id session, s.sessions id = some session → id < s.count)
    {holder : ℕ} {path base : Text} (hsess : s.sessions id = some session)
    (hcall : session.call = .release holder path base)
    (hrun : isRunning session.program = true) : ok holder path = false := by
  apply Bool.eq_false_iff.mpr
  intro hok
  have hreleas : releasing s ok = true := by
    apply any_eq_true.mpr
    refine ⟨id, mem_range.mpr (hgiv id session hsess), ?_⟩
    obtain ⟨call, past, program⟩ := session
    dsimp only at hcall hrun
    subst hcall
    rw [hsess]
    simp [hrun, hok]
  rw [h] at hreleas
  cases hreleas

lemma kept_answered {q : PoolOp}
    {next : Option (Answer q) → Program Returned} {answer : Option (Answer q)} {w : World}
    (hs : Kept cfg s) (hsess : s.sessions id = some session)
    (hask : session.program = .ask q next)
    (hnew : Noted s.world (session.past ++ [⟨q, answer⟩])) (htime : w.time = s.world.time)
    (hdead : w.dead = s.world.dead)
    (hsize : w.worktrees.length ≤ cfg.maxSize) (hpaths : (w.worktrees.map (·.path)).Nodup)
    (hheld : ∀ hold ∈ w.holds, w.isAlive hold.lease.pid = true →
      (∀ holder path base, session.call = .release holder path base →
        next answer = .done .released → hold.holder ≠ holder) → hold.Leased cfg w)
    (hgiv : ∀ req found, session.call = .acquire req →
      next answer = .done (.acquired (some found)) → w.isAlive found.lease.pid = true →
        (⟨id, found.path, found.lease⟩ : Hold).Leased cfg w)
    (hrelea : ∀ id session holder path base, s.sessions id = some session →
      session.call = .release holder path base → isRunning session.program = true →
        w.leasedBy holder path = true)
    (hcleared : ∀ holder writer, (holder, writer) ∈ w.cleared → holder = writer)
    (htorn : w.tornDown = []) :
    Kept cfg ((pool cfg nextPath).answered s id session ⟨q, answer⟩ (next answer) w) := by
  obtain ⟨holds, hsettl, hholds⟩ :=
    @settled_spec cfg nextPath w id session.call (next answer)
  have hworld : ((pool cfg nextPath).answered s id session ⟨q, answer⟩ (next answer) w).world =
      { w with holds := holds } := hsettl
  refine ⟨by rw [hworld]; exact hsize, by rw [hworld]; exact hpaths, ?_, ?_, ?_,
    by rw [hworld]; exact hcleared, by rw [hworld]; exact htorn⟩
  · rw [hworld]
    intro hold hhold halive
    rcases hholds hold hhold with ⟨hbef, hnot⟩ | ⟨req, found, hcall, hnext, rfl⟩
    · exact hheld hold hbef halive hnot
    · exact hgiv req found hcall hnext halive
  · rw [hworld]
    intro other left holder path base hleft hcall hrun
    rcases Service.answered_cases hleft with ⟨-, rfl⟩ | ⟨-, hleft⟩
    · exact hrelea id session holder path base hsess hcall (by rw [hask]; rfl)
    · exact hrelea other left holder path base hleft hcall hrun
  · rw [hworld]
    intro other left hleft
    have hlat : ∀ past, Noted s.world past → Noted { w with holds := holds } past :=
      fun past h => h.later (le_of_eq htime.symm) (by rw [← hdead]; exact Subset.refl _)
    rcases Service.answered_cases hleft with ⟨-, rfl⟩ | ⟨-, hleft⟩
    · exact hlat _ hnew
    · exact hlat _ (hs.noted other left hleft)

section
variable {id : ℕ} {choice : Choice} {session : Session} {q : PoolOp}
  {next : Option (Answer q) → Program Returned} {answer : Option (Answer q)} {w : World}

lemma Kept.quiet (hs : Kept cfg s)
    (hnew : Noted s.world (session.past ++ [⟨q, answer⟩])) (hsess : s.sessions id = some session)
    (hask : session.program = .ask q next)
    (hcond : (session.goesOn ⟨q, answer⟩ (next answer)).Conducted (asks cfg) ends)
    (hq : ∀ path lease, (⟨q, answer⟩ : Exchange PoolOp Answer) ≠ ⟨.writeLease path lease, some ()⟩)
    (n : ℕ) : Kept cfg ((pool cfg nextPath).answered s id session ⟨q, answer⟩ (next answer)
      { s.world with allocated := n }) := by
  apply kept_answered hs hsess hask hnew
  · rfl
  · rfl
  · exact hs.size
  · exact hs.paths
  · exact fun hold hhold halive _ => hs.held hold hhold halive
  · intro req found hcall hnext
    rw [hnext] at hcond
    exact absurd (written_of_acquired hcall hcond) (hq _ _)
  · exact hs.releases
  · exact hs.cleared
  · exact hs.tornDown

variable {path : Text}

lemma Kept.materialize (hs : Kept cfg s)
    (hnew : Noted s.world (session.past ++ [⟨q, answer⟩])) (hsess : s.sessions id = some session)
    (hask : session.program = .ask q next)
    (hcond : (session.goesOn ⟨q, answer⟩ (next answer)).Conducted (asks cfg) ends)
    {branch base : Text} (hq : q = .materializeCold path branch base)
    (hroom : s.world.worktrees.length < cfg.maxSize) (hpath : s.world.hasPath path = false) :
    Kept cfg ((pool cfg nextPath).answered s id session ⟨q, answer⟩ (next answer)
      (s.world.materialize path)) := by
  apply kept_answered hs hsess hask hnew
  · rfl
  · rfl
  · rw [World.materialize, length_append]
    exact hroom
  · rw [World.materialize, map_append]
    exact List.Nodup.append hs.paths (nodup_singleton _)
      (disjoint_singleton.mpr (not_mem_paths hpath))
  · exact fun hold hhold halive _ => (hs.held hold hhold halive).materialize path
  · intro req found hcall hnext
    rw [hnext] at hcond
    have hwritt := congrArg Exchange.question (written_of_acquired hcall hcond)
    change q = _ at hwritt
    rw [hq] at hwritt
    cases hwritt
  · intro other left holder released base hleft hcall hrun
    exact leasedBy_materialize (hs.releases other left holder released base hleft hcall hrun) path
  · exact hs.cleared
  · exact hs.tornDown

lemma Kept.writeLease (hs : Kept cfg s) (hnew : Noted s.world (session.past ++ [⟨q, answer⟩]))
    (hgiv : ∀ id session, s.sessions id = some session → id < s.count)
    (hsess : s.sessions id = some session) (hask : session.program = .ask q next)
    (hasks : asks cfg session.call session.past q)
    (hcond : (session.goesOn ⟨q, answer⟩ (next answer)).Conducted (asks cfg) ends)
    {lease : LeaseRecord}
    (he : (⟨q, answer⟩ : Exchange PoolOp Answer) = ⟨.writeLease path lease, some ()⟩)
    (hpath : s.world.hasPath path = true) (hunus : s.world.unused cfg.leaseTtlS path = true)
    (hfree : releasing s (fun _ released => released == path) = false)
    (hyoung : s.world.isAlive lease.pid = true → s.world.time < lease.acquiredAt + cfg.leaseTtlS) :
    Kept cfg ((pool cfg nextPath).answered s id session ⟨q, answer⟩ (next answer)
      (s.world.writeLease path ⟨lease, id⟩)) := by
  apply kept_answered hs hsess hask hnew
  · rfl
  · rfl
  · rw [World.writeLease, length_map]
    exact hs.size
  · rw [writeLease_paths]
    exact hs.paths
  · intro hold hhold halive _
    have hleas := hs.held hold hhold halive
    apply hleas.writeLease
    rintro rfl
    rw [hleas.used halive] at hunus
    cases hunus
  · intro req found hcall hnext halive
    rw [hnext] at hcond
    have hwritt := written_of_acquired hcall hcond
    rw [he] at hwritt
    cases hwritt
    have hq : q = .writeLease found.path found.lease := congrArg Exchange.question he
    rw [hcall, hq] at hasks
    exact leased_written hpath hasks.1 (hyoung halive)
  · intro other left holder released base hleft hcall hrun
    apply leasedBy_writeLease (hs.releases other left holder released base hleft hcall hrun)
    have hne := not_releasing hfree hgiv hleft hcall hrun
    simpa using hne
  · exact hs.cleared
  · exact hs.tornDown

lemma Kept.clearLease (hs : Kept cfg s)
    (hnew : Noted s.world (session.past ++ [⟨q, answer⟩])) (hsess : s.sessions id = some session)
    (hask : session.program = .ask q next) (hasks : asks cfg session.call session.past q)
    (hcond : (session.goesOn ⟨q, answer⟩ (next answer)).Conducted (asks cfg) ends)
    {releasedAt : ℤ}
    (he : (⟨q, answer⟩ : Exchange PoolOp Answer) = ⟨.clearLease path releasedAt, some ()⟩) :
    Kept cfg ((pool cfg nextPath).answered s id session ⟨q, answer⟩ (next answer)
      (s.world.clearLease path releasedAt (session.call.holder id))) := by
  have hq : q = .clearLease path releasedAt := congrArg Exchange.question he
  obtain ⟨holder, base, hcall⟩ : ∃ holder base, session.call = .release holder path base := by
    rw [hq] at hasks
    cases hkind : session.call with
    | acquire req =>
      rw [hkind] at hasks
      exact hasks.elim
    | release holder released base =>
      rw [hkind] at hasks
      obtain ⟨rfl, -⟩ := hasks
      exact ⟨holder, base, rfl⟩
    | prune =>
      rw [hkind] at hasks
      exact hasks.elim
  have hleasedBy := hs.releases id session holder path base hsess hcall (by rw [hask]; rfl)
  have hnext : next answer = .done .released := by
    rw [he] at hcond
    exact released_of_cleared hcall hcond
  apply kept_answered hs hsess hask hnew
  · rfl
  · rfl
  · rw [World.clearLease, length_map]
    exact hs.size
  · rw [clearLease_paths]
    exact hs.paths
  · intro hold hhold halive hnot
    have hleas := hs.held hold hhold halive
    apply hleas.clearLease
    rintro rfl
    obtain ⟨-, -, slot, hslot, hpath, hlease⟩ := hleas
    exact hnot holder _ base hcall hnext (leasedBy_iff.mp hleasedBy slot hslot hpath _ hlease)
  · intro req found hacq
    rw [hcall] at hacq
    cases hacq
  · intro other left holder released base hleft hcall hrun
    exact leasedBy_clearLease (hs.releases other left holder released base hleft hcall hrun)
  · intro first writer hpair
    rcases mem_append.mp hpair with hpair | hpair
    · exact hs.cleared first writer hpair
    · obtain ⟨slot, hslot, hpair⟩ := mem_flatMap.mp hpair
      obtain ⟨hslot, hpath⟩ := mem_filter.mp hslot
      obtain ⟨lease, hlease, hsame⟩ := Option.map_eq_some_iff.mp (Option.mem_toList.mp hpair)
      obtain ⟨rfl, rfl⟩ := Prod.mk.inj hsame
      rw [hcall]
      exact (leasedBy_iff.mp hleasedBy slot hslot (by simpa using hpath) lease hlease).symm
  · exact hs.tornDown

lemma Kept.removeWorktree (hs : Kept cfg s)
    (hnew : Noted s.world (session.past ++ [⟨q, answer⟩])) (hsess : s.sessions id = some session)
    (hask : session.program = .ask q next)
    (hcond : (session.goesOn ⟨q, answer⟩ (next answer)).Conducted (asks cfg) ends)
    {works : Bool} (hq : q = .removeWorktree path)
    (hunus : s.world.unused cfg.leaseTtlS path = true) :
    Kept cfg ((pool cfg nextPath).answered s id session ⟨q, answer⟩ (next answer)
      (s.world.removeWorktree path works)) := by
  have hnot : ∀ hold ∈ s.world.holds, s.world.isAlive hold.lease.pid = true → hold.path ≠ path := by
    rintro hold hhold halive rfl
    rw [(hs.held hold hhold halive).used halive] at hunus
    cases hunus
  have hsubl : List.Sublist (s.world.removeWorktree path works).worktrees s.world.worktrees := by
    unfold World.removeWorktree
    dsimp only
    split_ifs
    · exact filter_sublist
    · exact List.Sublist.refl _
  apply kept_answered hs hsess hask hnew
  · rfl
  · rfl
  · exact hsubl.length_le.trans hs.size
  · exact hs.paths.sublist (hsubl.map _)
  · intro hold hhold halive _
    exact (hs.held hold hhold halive).removeWorktree (hnot hold hhold halive)
  · intro req found hcall hnext
    rw [hnext] at hcond
    have hwritt := congrArg Exchange.question (written_of_acquired hcall hcond)
    change q = _ at hwritt
    rw [hq] at hwritt
    cases hwritt
  · intro other left holder released base hleft hcall hrun
    exact leasedBy_removeWorktree (hs.releases other left holder released base hleft hcall hrun)
  · exact hs.cleared
  · change s.world.tornDown ++ _ = []
    rw [hs.tornDown, nil_append, filter_eq_nil_iff]
    intro hold hhold htorn
    rw [Bool.and_eq_true, decide_eq_true_iff] at htorn
    exact hnot hold hhold htorn.2 htorn.1

lemma room_of_asks {branch base : Text} {past : List (Exchange PoolOp Answer)} {call : Call}
    (h : asks cfg call past (.materializeCold path branch base)) :
    (listed past).length < cfg.maxSize := by
  cases call with
  | acquire req => exact h
  | release holder path base => exact h.elim
  | prune => exact h.elim

lemma chosen_of_asks {lease : LeaseRecord} {past : List (Exchange PoolOp Answer)} {call : Call}
    (h : asks cfg call past (.writeLease path lease)) : madeIn past = true ∨ Chosen cfg past path := by
  cases call with
  | acquire req => exact h.2
  | release holder path base => exact h.elim
  | prune => exact h.elim

lemma chosen_of_removal {past : List (Exchange PoolOp Answer)} {call : Call}
    (h : asks cfg call past (.removeWorktree path)) : Chosen cfg past path := by
  cases call with
  | acquire req => exact h.elim
  | release holder path base => exact h.elim
  | prune => exact h

lemma Kept.op (hs : Kept cfg s) (hgiv : ∀ id session, s.sessions id = some session → id < s.count)
    (hok : kept cfg s (.op id choice) = true) (hsess : s.sessions id = some session)
    (hask : session.program = .ask q next)
    (hreply : reply nextPath s.world id session.call q choice = some (answer, w))
    (hasks : asks cfg session.call session.past q)
    (hcond : (session.goesOn ⟨q, answer⟩ (next answer)).Conducted (asks cfg) ends) :
    Kept cfg ((pool cfg nextPath).answered s id session ⟨q, answer⟩ (next answer) w) := by
  have hop := opKept_of_kept hok hsess hask
  have hnoted := hs.noted id session hsess
  have hnew := hnoted.answered hs.paths hreply
  rcases reply_cases hreply with ⟨⟨n, rfl⟩, hq⟩ | ⟨path, branch, base, hq, hworks, hpath, rfl⟩ |
    ⟨path, lease, he, hworks, hpath, rfl⟩ | ⟨path, releasedAt, he, rfl⟩ | ⟨path, works, hq, rfl⟩
  · exact hs.quiet hnew hsess hask hcond hq n
  · rw [hq] at hop hasks
    have hlist : s.world.worktrees.length ≤ (listed session.past).length := by
      simpa [opKept, hworks] using hop
    have hroom := lt_of_le_of_lt hlist (room_of_asks hasks)
    exact hs.materialize hnew hsess hask hcond hq hroom hpath
  · have hq : q = .writeLease path lease := congrArg Exchange.question he
    have hwrit := hasks
    rw [hq] at hop hwrit
    simp only [opKept, hworks, decide_false, Bool.false_or, Bool.and_eq_true, Bool.or_eq_true,
      Bool.not_eq_true', decide_eq_true_eq] at hop
    obtain ⟨⟨hstill, hfree⟩, hyoung⟩ := hop
    have hunus : s.world.unused cfg.leaseTtlS path = true := by
      split_ifs at hstill with hmade
      · exact unused_of_asMade hstill
      · exact unused_of_asListed hnoted ((chosen_of_asks hwrit).resolve_left hmade) hstill
    apply hs.writeLease hnew hgiv hsess hask hasks hcond he hpath hunus hfree
    intro halive
    rcases hyoung with hdead | hyoung
    · rw [halive] at hdead
      cases hdead
    · exact hyoung
  · exact hs.clearLease hnew hsess hask hasks hcond he
  · rw [hq] at hop hasks
    have hunus := unused_of_asListed hnoted (chosen_of_removal hasks) hop
    exact hs.removeWorktree hnew hsess hask hcond hq hunus

end

/-- A hold whose process lives has its lease at its path, and no other worktree is there. -/
lemma Kept.leasedBy (hs : Kept cfg s) {holder : ℕ} {path : Text}
    (h : (s.world.holds.any fun hold => hold.holder == holder && hold.path == path &&
      s.world.isAlive hold.lease.pid) = true) : s.world.leasedBy holder path = true := by
  obtain ⟨hold, hhold, hfacts⟩ := any_eq_true.mp h
  simp only [Bool.and_eq_true, beq_iff_eq] at hfacts
  obtain ⟨⟨rfl, rfl⟩, halive⟩ := hfacts
  obtain ⟨-, -, slot, hslot, hpath, hlease⟩ := hs.held hold hhold halive
  rw [leasedBy_iff]
  intro other hoth hsame lease hfound
  obtain rfl : other = slot := inj_on_of_nodup_map hs.paths hoth hslot (hsame.trans hpath.symm)
  rw [hlease] at hfound
  cases hfound
  rfl

lemma settled_program (w : World) (id : ℕ) (call : Call) :
    (pool cfg nextPath).settled w id call (call.program cfg) = w := by
  cases call <;> rfl

lemma Kept.call (hs : Kept cfg s) {call : Call} (hok : kept cfg s (.call call) = true) :
    Kept cfg ((pool cfg nextPath).called s call) := by
  have hworld : ((pool cfg nextPath).called s call).world = s.world := settled_program _ _ _
  refine ⟨by rw [hworld]; exact hs.size, by rw [hworld]; exact hs.paths,
    by rw [hworld]; exact hs.held, ?_, ?_, by rw [hworld]; exact hs.cleared,
    by rw [hworld]; exact hs.tornDown⟩
  · rw [hworld]
    intro id session holder path base hsess hcall hrun
    rcases Service.called_cases hsess with ⟨-, rfl⟩ | ⟨-, hsess⟩
    · obtain rfl : call = .release holder path base := hcall
      exact hs.leasedBy (Bool.and_eq_true_iff.mp hok).2
    · exact hs.releases id session holder path base hsess hcall hrun
  · rw [hworld]
    intro id session hsess
    rcases Service.called_cases hsess with ⟨-, rfl⟩ | ⟨-, hsess⟩
    · exact noted_nil _
    · exact hs.noted id session hsess

lemma Kept.event (hs : Kept cfg s) {event : Event} {w : World}
    (hok : kept cfg s (.world event) = true) (hmov : happens s.world event = some w) :
    Kept cfg { s with world := w } := by
  cases event with
  | tick time =>
    simp only [happens] at hmov
    split_ifs at hmov with hlat
    cases hmov
    refine ⟨hs.size, hs.paths, ?_, hs.releases, ?_, hs.cleared, hs.tornDown⟩
    · intro hold hhold halive
      obtain ⟨hrel, -, hslot⟩ := hs.held hold hhold halive
      refine ⟨hrel, ?_, hslot⟩
      have hyoung := all_eq_true.mp (Bool.and_eq_true_iff.mp hok).1 hold hhold
      have halive' : s.world.isAlive hold.lease.pid = true := halive
      simpa [halive'] using hyoung
    · intro id session hsess
      exact (hs.noted id session hsess).later hlat (Subset.refl _)
  | die pid =>
    cases hmov
    refine ⟨hs.size, hs.paths, ?_, hs.releases, ?_, hs.cleared, hs.tornDown⟩
    · intro hold hhold halive
      apply hs.held hold hhold
      rw [isAlive_iff] at halive ⊢
      exact fun hdead => halive (mem_cons_of_mem _ hdead)
    · intro id session hsess
      exact (hs.noted id session hsess).later (le_refl _) (subset_cons_self _ _)

/-- Where what is done is done to what is as the call's own listing answered, and no release
is under way, each worktree has one holder that lives, none of theirs is removed, a release
clears the lease of its holder, and the pool has room. -/
theorem one_holder (h : ((pool cfg nextPath).machine (· = .first)).Reach
    (fun s move => kept cfg s move = true) s) :
    (∀ a ∈ s.world.holds, ∀ b ∈ s.world.holds, a.path = b.path →
      s.world.isAlive a.lease.pid = true → s.world.isAlive b.lease.pid = true →
        a.holder = b.holder) ∧
    s.world.tornDown = [] ∧
    (∀ holder writer, (holder, writer) ∈ s.world.cleared → holder = writer) ∧
    s.world.worktrees.length ≤ cfg.maxSize := by
  have hs : Kept cfg s := by
    refine (Service.reach_inv (Kept cfg) (fun _ => program_conducts cfg) ?_ ?_ ?_ ?_ ?_ h).1
    · rintro s ⟨hfirst, hsessi, -⟩
      refine ⟨?_, ?_, ?_, ?_, ?_, ?_, by rw [hfirst]; rfl⟩
      · rw [hfirst]
        exact Nat.zero_le _
      · rw [hfirst]
        exact .nil
      · rw [hfirst]
        rintro hold ⟨⟩
      · intro id session holder path base hsess
        rw [hsessi] at hsess
        cases hsess
      · intro id session hsess
        rw [hsessi] at hsess
        cases hsess
      · rw [hfirst]
        rintro holder writer ⟨⟩
    · intro s call _ hs hok
      exact hs.call hok
    · intro s id choice session q next answer w hord hs hok hsess hask hreply hasks hnext
      exact hs.op hord.given hok hsess hask hreply hasks hnext
    · intro s id _ hs _
      refine ⟨hs.size, hs.paths, hs.held, ?_, ?_, hs.cleared, hs.tornDown⟩
      · intro other session holder path base hsess
        exact hs.releases other session holder path base (Service.stopped_cases hsess).2
      · intro other session hsess
        exact hs.noted other session (Service.stopped_cases hsess).2
    · intro s event w _ hs hok hmov
      exact hs.event hok hmov
  refine ⟨?_, hs.tornDown, hs.cleared, hs.size⟩
  intro a ha b hb hpath halive halive'
  obtain ⟨-, -, slot, hslot, hslotP, hlease⟩ := hs.held a ha halive
  obtain ⟨-, -, slot', hslot', hslotP', hlease'⟩ := hs.held b hb halive'
  have hsame : slot = slot' :=
    inj_on_of_nodup_map hs.paths hslot hslot' (by rw [hslotP, hslotP', hpath])
  rw [hsame, hlease'] at hlease
  exact (congrArg Lease.writer (Option.some.inj hlease)).symm

end

section

def smallPool : WorktreePoolConfig := ⟨2, 3600, 1800⟩

def numbered (n : ℕ) : Text := List.replicate (n + 1) 'p'

def worker (pid : ℕ) : AcquireRequest := ⟨['w'], pid, ['b'], ['m']⟩

def ops (id n : ℕ) : List Move := List.replicate n (.op id (.works true))

def takenAndReturned : List Move :=
  Service.Move.call (.acquire (worker 10)) :: ops 0 6 ++ Service.Move.call (.release 0 (numbered 0) ['m']) :: ops 1 3

def listedTwice : List Move :=
  takenAndReturned ++ [Service.Move.call (.acquire (worker 11)), .call (.acquire (worker 12))] ++
    ops 2 1 ++ ops 3 1 ++ ops 2 4 ++ ops 3 4

/-- Two acquirers list the same free worktree, and both are given it. -/
theorem same_worktree_twice : ¬ ∀ (cfg : WorktreePoolConfig) (nextPath : ℕ → Text) (s : State),
    ((pool cfg nextPath).machine (· = .first)).Reach (fun s move => wellCalled cfg s move = true) s →
      ∀ a ∈ s.world.holds, ∀ b ∈ s.world.holds, a.path = b.path →
        s.world.isAlive a.lease.pid = true → s.world.isAlive b.lease.pid = true →
          a.holder = b.holder := by
  intro hall
  let first : Hold := ⟨2, numbered 0, (worker 11).lease 0⟩
  let second : Hold := ⟨3, numbered 0, (worker 12).lease 0⟩
  obtain ⟨s, hreach, hholds, hdead⟩ : ∃ s, ((pool smallPool numbered).machine (· = .first)).Reach
      (fun s move => wellCalled smallPool s move = true) s ∧ s.world.holds = [second, first] ∧
        s.world.dead = [] :=
    ⟨_, ⟨⟨.first, fun _ => none, 0⟩, listedTwice, ⟨rfl, rfl, rfl⟩, Machine.run_of_execIf rfl⟩,
      rfl, rfl⟩
  have halive : ∀ pid, s.world.isAlive pid = true := by
    intro pid
    rw [isAlive_iff, hdead]
    exact not_mem_nil
  have hsame := hall smallPool numbered s hreach first (by rw [hholds]; decide)
    second (by rw [hholds]; decide) rfl (halive _) (halive _)
  cases hsame

/-- A worktree is returned and taken again, its holder dies and the next one reclaims it; a
second worktree is made, returned, and removed by a sweep. -/
def usedAndSwept : List Move :=
  takenAndReturned ++ Service.Move.call (.acquire (worker 11)) :: ops 2 5 ++
    Service.Move.world (.die 11) :: Service.Move.call (.acquire (worker 12)) :: ops 3 5 ++
    Service.Move.call (.acquire (worker 13)) :: ops 4 6 ++
    Service.Move.call (.release 4 (numbered 1) ['m']) :: ops 5 3 ++
    Service.Move.call .prune :: ops 6 7

theorem acquired_again : ∃ s : State, s.world.holds.map (·.holder) = [3, 2] ∧
    s.world.cleared = [(0, 0), (4, 4)] ∧ s.world.worktrees.map (·.path) = [numbered 0] ∧
    s.world.tornDown = [] ∧ s.world.worktrees.length ≤ 2 := by
  obtain ⟨s, hreach, hholds, hcleared, hpaths⟩ : ∃ s,
      ((pool smallPool numbered).machine (· = .first)).Reach
        (fun s move => kept smallPool s move = true) s ∧ s.world.holds.map (·.holder) = [3, 2] ∧
          s.world.cleared = [(0, 0), (4, 4)] ∧ s.world.worktrees.map (·.path) = [numbered 0] :=
    ⟨_, ⟨⟨.first, fun _ => none, 0⟩, usedAndSwept, ⟨rfl, rfl, rfl⟩, Machine.run_of_execIf rfl⟩,
      rfl, rfl, rfl⟩
  obtain ⟨-, htorn, -, hsize⟩ := one_holder hreach
  exact ⟨s, hholds, hcleared, hpaths, htorn, hsize⟩

end
end Redskilled.Pool
