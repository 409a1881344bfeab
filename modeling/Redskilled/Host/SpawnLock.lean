import Redskilled.Foundation.Machine
import Redskilled.Foundation.SoleOwner
import Mathlib.Data.Int.Basic
import Mathlib.Data.Fintype.Basic

/-!
# The spawn lock

Of the processes that find no daemon the one that creates the lock file exclusively
spawns it. It writes its pid and the instant into the file through its handle, and a
release removes the file. A process that finds the file reads it, and reaps it where its
holder is dead, or where it is older than a bound. A reap and a release both remove what
is at the path by then.

Each operation on the file is a step. A file is told by the holder that its one line
names, and has an identity, since a handle keeps writing into a file that was removed.
-/
namespace Redskilled.Host.SpawnLock
open Foundation Option

structure SpawnLockHolder where
  pid : ℕ
  takenAt : ℤ
  deriving DecidableEq

inductive ReapReason where
  | holderDead | agedOut | unattributed

structure SpawnLockReaping where
  reason : ReapReason
  holder : Option SpawnLockHolder
  ageMs : ℤ

structure LockFile (P : Type*) where
  serial : ℕ
  /-- The process that created it, `none` for a file of an earlier process. -/
  maker : Option P
  holder : Option SpawnLockHolder
  mtimeMs : ℤ

/-- Where a process stands in `acquireSpawnLock` or `releaseSpawnLock`. -/
inductive Phase where
  | idle
  | creating (attempt : ℕ)
  | writing (serial : ℕ)
  | taken (serial : ℕ)
  | reading (attempt : ℕ)
  | aging (attempt : ℕ) (holder : Option SpawnLockHolder)
  /-- The file names nobody and is asked for its age. -/
  | stating (attempt : ℕ) (nowMs : ℤ)
  | reaping (attempt : ℕ)
  | held (holder : Option SpawnLockHolder) (ageMs : Option ℤ)
  | releasing
  deriving DecidableEq

structure State (P : Type*) where
  file : Option (LockFile P)
  serial : ℕ
  now : ℤ
  phase : P → Phase
  reaped : List SpawnLockReaping
  /-- A release has removed a file that another process created. -/
  robbed : Bool

inductive Step (P : Type*) where
  | acquire (p : P)
  | release (p : P)
  | advance (p : P) (alive : ℕ → Bool)
  | writeFails (p : P)
  | tick (ms : ℕ)

def spawnLockReapAttempts : ℕ := 3

def spawnLockReapReason (holder : Option SpawnLockHolder) (ageMs maxAgeMs : ℤ) (alive : ℕ → Bool) :
    Option ReapReason :=
  match holder with
  | none => if maxAgeMs < ageMs then some .unattributed else none
  | some holder =>
    if alive holder.pid = false then some .holderDead
    else if maxAgeMs < ageMs then some .agedOut
    else none

section
variable {P : Type*} [DecidableEq P] (pid : P → ℕ) (maxAgeMs : ℤ)

def State.goto (s : State P) (p : P) (phase : Phase) : State P :=
  { s with phase := Function.update s.phase p phase }

def tryAcquireExclusiveLock (s : State P) (p : P) (attempt : ℕ) : State P :=
  match s.file with
  | none =>
    { s.goto p (.writing s.serial) with
      file := some ⟨s.serial, some p, none, s.now⟩
      serial := s.serial + 1 }
  | some _ => s.goto p (.reading attempt)

def writeLine (s : State P) (p : P) (serial : ℕ) : State P :=
  { s.goto p (.taken serial) with
    file := s.file.map fun file =>
      if file.serial = serial then { file with holder := some ⟨pid p, s.now⟩, mtimeMs := s.now }
      else file }

def judge (s : State P) (p : P) (attempt : ℕ) (holder : Option SpawnLockHolder) (ageMs : Option ℤ)
    (alive : ℕ → Bool) : State P :=
  match ageMs with
  | none => s.goto p (.held holder none)
  | some age =>
    if spawnLockReapAttempts ≤ attempt then s.goto p (.held holder (some age))
    else
      match spawnLockReapReason holder age maxAgeMs alive with
      | none => s.goto p (.held holder (some age))
      | some reason =>
        { s.goto p (.reaping attempt) with reaped := s.reaped ++ [⟨reason, holder, age⟩] }

/-- `rm` of the path, whatever is there. -/
def remove (s : State P) (p : P) (phase : Phase) : State P := { s.goto p phase with file := none }

def advance (s : State P) (p : P) (alive : ℕ → Bool) : Option (State P) :=
  match s.phase p with
  | .idle | .taken _ | .held _ _ => none
  | .creating attempt => some (tryAcquireExclusiveLock s p attempt)
  | .writing serial => some (writeLine pid s p serial)
  | .reading attempt => some (s.goto p (.aging attempt (s.file.bind (·.holder))))
  | .aging attempt holder =>
    match holder with
    | some h => some (judge maxAgeMs s p attempt holder (some (max 0 (s.now - h.takenAt))) alive)
    | none => some (s.goto p (.stating attempt s.now))
  | .stating attempt nowMs =>
    some (judge maxAgeMs s p attempt none (s.file.map fun file => max 0 (nowMs - file.mtimeMs)) alive)
  | .reaping attempt => some (remove s p (.creating (attempt + 1)))
  | .releasing =>
    some { remove s p .idle with
      robbed := s.robbed || s.file.any fun file => decide (file.maker ≠ some p) }

def next (s : State P) : Step P → Option (State P)
  | .acquire p =>
    match s.phase p with
    | .idle | .held _ _ => some (s.goto p (.creating 0))
    | _ => none
  | .release p =>
    match s.phase p with
    | .taken _ => some (s.goto p .releasing)
    | _ => none
  | .advance p alive => advance pid maxAgeMs s p alive
  | .writeFails p =>
    match s.phase p with
    | .writing serial => some (s.goto p (.taken serial))
    | _ => none
  | .tick ms => some { s with now := s.now + ms }

def Start (s : State P) : Prop :=
  (∀ p, s.phase p = .idle) ∧ s.robbed = false ∧
    ∀ file, s.file = some file → file.maker = none ∧ file.serial < s.serial ∧
      match file.holder with
      | some holder => ∀ p, holder.pid ≠ pid p
      | none => maxAgeMs < s.now - file.mtimeMs

def lock : Machine (State P) (Step P) where
  start := Start pid maxAgeMs
  next := next pid maxAgeMs

/-- A pid that is asked about is alive where it is the pid of a live process, and dead
elsewhere; and no time passes, so that no acquire and no hold lasts. -/
def Prompt (s : State P) : Step P → Prop
  | .advance p alive => ∀ attempt holder, s.phase p = .aging attempt (some holder) →
      (alive holder.pid = true ↔ ∃ q, holder.pid = pid q)
  | .tick _ => False
  | .acquire _ | .release _ | .writeFails _ => True

end

section
variable {P : Type*}

def Phase.acquired : Phase → Bool
  | .taken _ | .releasing => true
  | _ => false

structure Exclusive (s : State P) : Prop where
  sole : ∀ p q, (s.phase p).acquired = true → (s.phase q).acquired = true → p = q
  kept : s.robbed = false

/-- The process has created a file that it has not removed yet. -/
def Phase.inside : Phase → Bool
  | .writing _ | .taken _ | .releasing => true
  | _ => false

/-- A lock is reaped only while nobody has created one. -/
def NoSteal (s : State P) : Step P → Prop
  | .advance q _ => ∀ attempt, s.phase q = .reaping attempt → ∀ p, (s.phase p).inside = false
  | _ => True

def Marks (file : LockFile P) (p : P) : Prop := file.maker = some p

structure Inv (s : State P) : Prop where
  backed : Backed s.file Marks (insiders Phase.inside s.phase)
  kept : s.robbed = false

variable {s t : State P} {p q : P} {pid : P → ℕ} {maxAgeMs : ℤ}

lemma marks_inj (file : LockFile P) (p q : P) (hp : Marks file p) (hq : Marks file q) : p = q :=
  some.inj (hp.symm.trans hq)

lemma Inv.sole (h : Inv s) (hp : (s.phase p).inside = true) (hq : (s.phase q).inside = true) :
    p = q :=
  h.backed.subsingleton marks_inj hp hq

variable {alive : ℕ → Bool} {phase : Phase}

lemma inside_of_acquired (h : phase.acquired = true) : phase.inside = true := by
  cases phase <;> first | rfl | cases h

lemma Inv.exclusive (h : Inv s) : Exclusive s :=
  ⟨fun _ _ hp hq => h.sole (inside_of_acquired hp) (inside_of_acquired hq), h.kept⟩

variable [DecidableEq P]

@[simp] lemma goto_phase_self : (s.goto p phase).phase p = phase :=
  Function.update_self ..

lemma goto_phase_ne (h : q ≠ p) : (s.goto p phase).phase q = s.phase q :=
  Function.update_of_ne h ..

lemma Inv.goto (h : Inv s)
    (hins : phase.inside = true → (s.phase p).inside = true) : Inv (s.goto p phase) :=
  ⟨h.backed.stay hins, h.kept⟩

lemma Inv.create (h : Inv s) {attempt : ℕ} : Inv (tryAcquireExclusiveLock s p attempt) := by
  unfold tryAcquireExclusiveLock
  split
  · next hfile =>
      have hback := h.backed
      rw [hfile] at hback
      exact ⟨hback.enter rfl, h.kept⟩
  · exact h.goto nofun

lemma Inv.writeLine (h : Inv s) {serial : ℕ} (hp : (s.phase p).inside = true) :
    Inv (writeLine pid s p serial) := by
  refine ⟨fun q hq => ?_, h.kept⟩
  obtain ⟨file, hfile, hmak⟩ := (h.goto (fun _ => hp) : Inv (s.goto p (.taken serial))).backed q hq
  refine ⟨_, mem_map_of_mem _ hfile, ?_⟩
  split_ifs
  · exact hmak
  · exact hmak

lemma Inv.judge (h : Inv s) {attempt : ℕ} {holder : Option SpawnLockHolder} {ageMs : Option ℤ}
    : Inv (judge maxAgeMs s p attempt holder ageMs alive) := by
  unfold SpawnLock.judge
  split
  · exact h.goto nofun
  · split_ifs
    · exact h.goto nofun
    · split
      · exact h.goto nofun
      · exact ⟨h.backed.stay nofun, h.kept⟩

lemma Inv.advance (h : Inv s) (hok : NoSteal s (.advance p alive))
    (hn : advance pid maxAgeMs s p alive = some t) : Inv t := by
  unfold SpawnLock.advance at hn
  cases hphase : s.phase p with
  | creating attempt =>
    simp only [hphase, some.injEq] at hn
    subst hn
    exact h.create
  | writing serial =>
    simp only [hphase, some.injEq] at hn
    subst hn
    exact h.writeLine (by rw [hphase]; rfl)
  | reading attempt =>
    simp only [hphase, some.injEq] at hn
    subst hn
    exact h.goto nofun
  | aging attempt holder =>
    cases holder with
    | none =>
      simp only [hphase, some.injEq] at hn
      subst hn
      exact h.goto nofun
    | some holder =>
      simp only [hphase, some.injEq] at hn
      subst hn
      exact h.judge
  | stating attempt nowMs =>
    simp only [hphase, some.injEq] at hn
    subst hn
    exact h.judge
  | reaping attempt =>
    simp only [hphase, some.injEq] at hn
    subst hn
    have hoth : ∀ q ∈ insiders Phase.inside s.phase, q = p := by
      intro q hq
      rw [mem_insiders, hok attempt hphase q] at hq
      cases hq
    exact ⟨Backed.clear hoth rfl, h.kept⟩
  | releasing =>
    simp only [hphase, some.injEq] at hn
    subst hn
    have hin : (s.phase p).inside = true := by rw [hphase]; rfl
    obtain ⟨file, hfile, hmak⟩ := h.backed p hin
    refine ⟨Backed.clear (fun q hq => h.sole hq hin) rfl, ?_⟩
    simp only [h.kept, Bool.false_or]
    rw [mem_def.mp hfile, any_some, hmak]
    simp
  | _ => simp [hphase] at hn

lemma Inv.step (h : Inv s) {a : Step P} (hok : NoSteal s a)
    (hn : next pid maxAgeMs s a = some t) : Inv t := by
  cases a with
  | acquire p =>
    simp only [next] at hn
    split at hn
    · cases hn
      exact h.goto nofun
    · cases hn
      exact h.goto nofun
    · cases hn
  | release p =>
    cases hphase : s.phase p <;> simp only [next, hphase, reduceCtorEq, some.injEq] at hn
    subst hn
    exact h.goto fun _ => by rw [hphase]; rfl
  | advance p alive => exact h.advance hok hn
  | writeFails p =>
    cases hphase : s.phase p <;> simp only [next, hphase, reduceCtorEq, some.injEq] at hn
    subst hn
    exact h.goto fun _ => by rw [hphase]; rfl
  | tick ms =>
    cases hn
    exact ⟨h.backed, h.kept⟩

omit [DecidableEq P] in
lemma inv_of_start (h : Start pid maxAgeMs s) : Inv s := by
  refine ⟨fun p hp => ?_, h.2.1⟩
  rw [mem_insiders, h.1 p] at hp
  cases hp

lemma inv_of_reach (h : (lock pid maxAgeMs).Reach NoSteal s) : Inv s :=
  h.inv Inv (fun _ => inv_of_start) fun _ _ _ hs hok hn => hs.step hok hn

omit [DecidableEq P] in
lemma prompt_of_not_aging
    (h : ∀ attempt holder, s.phase p ≠ .aging attempt holder) : Prompt pid s (.advance p alive) :=
  fun attempt holder heq => absurd heq (h attempt (some holder))

lemma run_advance (hn : advance pid maxAgeMs s p (fun _ => true) = some t)
    (h : ∀ attempt holder, s.phase p ≠ .aging attempt holder) :
    (lock pid maxAgeMs).Run (Prompt pid) s [.advance p fun _ => true] t :=
  .single (prompt_of_not_aging h) hn

lemma write_run {serial : ℕ} (hp : s.phase p = .writing serial) :
    (lock pid maxAgeMs).Run (Prompt pid) s [.advance p fun _ => true] (writeLine pid s p serial) := by
  apply run_advance
  · simp [advance, hp]
  · simp [hp]

lemma take_run {attempt : ℕ} (hfile : s.file = none) (hp : s.phase p = .creating attempt) :
    ∃ as t, (lock pid maxAgeMs).Run (Prompt pid) s as t ∧ t.phase p = .taken s.serial ∧
      ∀ q, q ≠ p → t.phase q = s.phase q := by
  have hcreate : (lock pid maxAgeMs).Run (Prompt pid) s [.advance p fun _ => true]
      (tryAcquireExclusiveLock s p attempt) := by
    apply run_advance
    · simp [advance, hp]
    · simp [hp]
  unfold tryAcquireExclusiveLock at hcreate
  rw [hfile] at hcreate
  refine ⟨_, _, hcreate.append (write_run goto_phase_self), goto_phase_self, fun q hq => ?_⟩
  exact (goto_phase_ne hq).trans (goto_phase_ne hq)

lemma steal_run {a : Step P} (hsteal : ¬ NoSteal s a) (hn : next pid maxAgeMs s a = some t) :
    ∃ as u, (lock pid maxAgeMs).Run (Prompt pid) t as u ∧ ¬ Exclusive u := by
  cases a with
  | advance q alive =>
    simp only [NoSteal, not_forall, Bool.not_eq_false] at hsteal
    obtain ⟨attempt, hq, p, hp⟩ := hsteal
    have hne : p ≠ q := by
      rintro rfl
      rw [hq] at hp
      cases hp
    simp only [next, advance, hq, some.injEq] at hn
    subst hn
    obtain ⟨as, u, hrun, hu, hoth⟩ := @take_run _ (remove s q (.creating (attempt + 1))) q pid
      maxAgeMs _ (attempt + 1) rfl goto_phase_self
    have hphase : u.phase p = s.phase p := (hoth p hne).trans (goto_phase_ne hne)
    have hacq : (u.phase q).acquired = true := by rw [hu]; rfl
    cases hins : s.phase p with
    | writing serial =>
      have hwrite := @write_run _ u p pid maxAgeMs _ serial (hphase.trans hins)
      refine ⟨_, _, hrun.append hwrite, fun hexcl => hne ?_⟩
      apply hexcl.sole p q
      · simp [writeLine, Phase.acquired, State.goto]
      · exact (congrArg Phase.acquired (goto_phase_ne hne.symm)).trans hacq
    | taken serial =>
      refine ⟨as, u, hrun, fun hexcl => hne ?_⟩
      exact hexcl.sole p q (by rw [hphase, hins]; rfl) hacq
    | releasing =>
      refine ⟨as, u, hrun, fun hexcl => hne ?_⟩
      exact hexcl.sole p q (by rw [hphase, hins]; rfl) hacq
    | _ =>
      rw [hins] at hp
      cases hp
  | _ => exact absurd trivial hsteal

/-- In every run in which a lock is reaped only while nobody has created one, at most one process
has taken the lock, and no release removes the lock of another. -/
theorem inside_alone_iff_noSteal (pid : P → ℕ) (maxAgeMs : ℤ) :
    (∀ s, (lock pid maxAgeMs).Reach NoSteal s → Exclusive s) ∧
      ∀ s a t, (lock pid maxAgeMs).Reach NoSteal s → ¬ NoSteal s a →
        next pid maxAgeMs s a = some t →
          ∃ as u, (lock pid maxAgeMs).Run (Prompt pid) t as u ∧ ¬ Exclusive u :=
  ⟨fun _ hs => (inv_of_reach hs).exclusive, fun _ _ _ _ hsteal hn => steal_run hsteal hn⟩

end

section

def pair (p : Bool) : ℕ := if p then 12 else 13

def stale : State Bool := ⟨some ⟨0, none, some ⟨11, 0⟩, 0⟩, 1, 0, fun _ => .idle, [], false⟩

lemma start_stale : Start pair 60000 stale :=
  ⟨fun _ => rfl, rfl, fun file heq => by
    cases heq
    exact ⟨rfl, by decide, fun p => by cases p <;> decide⟩⟩

def told (p : Bool) : Step Bool := .advance p fun pid => pid != 11

def judged (p : Bool) : List (Step Bool) := [.acquire p, told p, told p, told p]

def retaken (p : Bool) : List (Step Bool) := [told p, told p, told p]

instance (s : State Bool) (a : Step Bool) : Decidable (Prompt pair s a) :=
  match a with
  | .advance p alive =>
    match h : s.phase p with
    | .aging _ (some holder) =>
      decidable_of_iff (alive holder.pid = true ↔ ∃ q, holder.pid = pair q) (by
        simp [Prompt, h])
    | .aging _ none | .idle | .creating _ | .writing _ | .taken _ | .reading _ | .stating _ _
    | .reaping _ | .held _ _ | .releasing => isTrue (by simp [Prompt, h])
  | .tick _ => isFalse not_false
  | .acquire _ | .release _ | .writeFails _ => isTrue trivial

/-- Two spawners find the holder dead, and the slower removes the lock of the other. -/
theorem two_spawners : (∃ s, (lock pair 60000).Reach (Prompt pair) s ∧ s.phase true = .taken 1 ∧
      s.phase false = .taken 2) ∧
    ¬ ∀ s, (lock pair 60000).Reach (Prompt pair) s → s.robbed = false := by
  have hrun : ((lock pair 60000).execIf (fun s a => decide (Prompt pair s a)) stale
      (judged true ++ judged false ++ retaken true ++ retaken false)).map
        (fun s => (s.phase true, s.phase false)) = some (.taken 1, .taken 2) := by
    decide +kernel
  have hrel : ((lock pair 60000).execIf (fun s a => decide (Prompt pair s a)) stale
      (judged true ++ judged false ++ retaken true ++ retaken false ++
        [.release true, told true])).map State.robbed = some true := by
    decide +kernel
  constructor
  · obtain ⟨s, hs, hview⟩ := map_eq_some_iff.mp hrun
    have hguard := (Machine.run_of_execIf hs).mono fun s a h => of_decide_eq_true h
    exact ⟨s, ⟨stale, _, start_stale, hguard⟩, congrArg Prod.fst hview, congrArg Prod.snd hview⟩
  · intro h
    obtain ⟨s, hs, hrobb⟩ := map_eq_some_iff.mp hrel
    have hguard := (Machine.run_of_execIf hs).mono fun s a h => of_decide_eq_true h
    rw [h s ⟨stale, _, start_stale, hguard⟩] at hrobb
    cases hrobb

instance (s : State Bool) (a : Step Bool) : Decidable (NoSteal s a) :=
  match a with
  | .advance q _ =>
    match h : s.phase q with
    | .reaping _ => decidable_of_iff (∀ p, (s.phase p).inside = false) (by simp [NoSteal, h])
    | .idle | .creating _ | .writing _ | .taken _ | .reading _ | .aging _ _ | .stating _ _
    | .held _ _ | .releasing => isTrue (by simp [NoSteal, h])
  | .acquire _ | .release _ | .writeFails _ | .tick _ => isTrue trivial

theorem exclusive_until_reap : ∃ s, s.phase true = .taken 1 ∧ Exclusive s ∧
      ∃ t as u, next pair 60000 s (told false) = some t ∧
        (lock pair 60000).Run (Prompt pair) t as u ∧ ¬ Exclusive u := by
  have hrun : ((lock pair 60000).execIf (fun s a => decide (NoSteal s a)) stale
      (judged true ++ judged false ++ retaken true)).map
        (fun s => (s.phase true, decide (NoSteal s (told false)),
          (next pair 60000 s (told false)).isSome)) = some (.taken 1, false, true) := by
    decide +kernel
  obtain ⟨s, hs, hview⟩ := map_eq_some_iff.mp hrun
  simp only [Prod.mk.injEq, decide_eq_false_iff_not] at hview
  obtain ⟨htrue, hsteal, hnext⟩ := hview
  obtain ⟨t, ht⟩ := isSome_iff_exists.mp hnext
  have hreach : (lock pair 60000).Reach NoSteal s :=
    ⟨stale, _, start_stale, (Machine.run_of_execIf hs).mono fun _ _ h => of_decide_eq_true h⟩
  obtain ⟨hexcl, htheft⟩ := inside_alone_iff_noSteal pair 60000
  obtain ⟨as, u, hrun', hu⟩ := htheft s (told false) t hreach hsteal ht
  exact ⟨s, htrue, hexcl s hreach, t, as, u, ht, hrun', hu⟩

end
end Redskilled.Host.SpawnLock
