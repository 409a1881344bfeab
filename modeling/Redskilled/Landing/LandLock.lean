import Redskilled.Foundation.JsText
import Redskilled.Foundation.Machine
import Redskilled.Foundation.SoleOwner

/-!
# The land lock

Workers of one host land one at a time: the holder of the lock is whoever created its
file exclusively. A waiter reads the file, and where its holder is dead or stale, or
where no record is to be read, it removes the file and creates it anew. What it removes
is what is at the path by then.

Each operation on the file is a step, and so is each reading of the clock behind an
await. A file is told by what `parseRecord` makes of its text.
-/
namespace Redskilled.Landing.LandLock
open Foundation Option

structure LandLockRecord where
  holder : Text
  pid : ℕ
  acquiredAtMs : ℤ
  deriving DecidableEq

structure Roster (P : Type*) where
  holder : P → Text
  pid : P → ℕ
  pid_inj : Function.Injective pid

structure LandLockOptions where
  waitTimeoutMs : ℤ
  pollMs : ℤ
  staleAfterMs : ℤ

/-- Where a process stands in `acquire` or in the release function it was given. -/
inductive Phase where
  | idle
  /-- About to create the file; `stealing` is the attempt behind a removal. -/
  | creating (startedAtMs : ℤ) (stealing : Bool) (mine : LandLockRecord)
  | reading (startedAtMs : ℤ)
  | judging (startedAtMs : ℤ) (record : Option LandLockRecord)
  | removing (startedAtMs : ℤ)
  | retaking (startedAtMs : ℤ)
  | polling (startedAtMs : ℤ)
  | sleeping (startedAtMs wakeAtMs : ℤ)
  /-- The process has a release function that it has not called. -/
  | holding (mine : LandLockRecord)
  | releaseReading (mine : LandLockRecord)
  | releaseRemoving
  deriving DecidableEq

structure Host (P : Type*) where
  /-- `none` is no file, `some none` one that does not parse. -/
  file : Option (Option LandLockRecord)
  now : ℤ
  phase : P → Phase

inductive Step (P : Type*) where
  | acquire (p : P)
  | release (p : P)
  | advance (p : P) (isHolderAlive : ℕ → Bool)
  | tick (ms : ℕ)

section
variable {P : Type*} [DecidableEq P] (R : Roster P) (O : LandLockOptions)

def Host.goto (s : Host P) (p : P) (phase : Phase) : Host P :=
  { s with phase := Function.update s.phase p phase }

def mine (s : Host P) (p : P) : LandLockRecord := ⟨R.holder p, R.pid p, s.now⟩

/-- A file that is absent or does not parse has no record. -/
def parseRecord (file : Option (Option LandLockRecord)) : Option LandLockRecord := file.join

def abandoned (s : Host P) (isHolderAlive : ℕ → Bool) (record : Option LandLockRecord) : Bool :=
  match record with
  | none => true
  | some record => decide (O.staleAfterMs ≤ s.now - record.acquiredAtMs) || !isHolderAlive record.pid

def createExclusive (s : Host P) (p : P) (mine : LandLockRecord) (lost : Phase) : Host P :=
  match s.file with
  | none => { s.goto p (.holding mine) with file := some (some mine) }
  | some _ => s.goto p lost

def remove (s : Host P) (p : P) (phase : Phase) : Host P := { s.goto p phase with file := none }

def advance (s : Host P) (p : P) (isHolderAlive : ℕ → Bool) : Option (Host P) :=
  match s.phase p with
  | .idle | .holding _ => none
  | .creating startedAtMs stealing mine =>
    some (createExclusive s p mine (if stealing then .polling startedAtMs else .reading startedAtMs))
  | .reading startedAtMs => some (s.goto p (.judging startedAtMs (parseRecord s.file)))
  | .judging startedAtMs record =>
    if abandoned O s isHolderAlive record then some (s.goto p (.removing startedAtMs))
    else some (s.goto p (.polling startedAtMs))
  | .removing startedAtMs => some (remove s p (.retaking startedAtMs))
  | .retaking startedAtMs => some (s.goto p (.creating startedAtMs true (mine R s p)))
  | .polling startedAtMs =>
    if startedAtMs + O.waitTimeoutMs ≤ s.now then some (s.goto p .idle)
    else some (s.goto p (.sleeping startedAtMs (s.now + O.pollMs)))
  | .sleeping startedAtMs wakeAtMs =>
    if wakeAtMs ≤ s.now then some (s.goto p (.creating startedAtMs false (mine R s p))) else none
  | .releaseReading mine =>
    match parseRecord s.file with
    | some current => if current ≠ mine then some (s.goto p .idle) else some (s.goto p .releaseRemoving)
    | none => some (s.goto p .releaseRemoving)
  | .releaseRemoving => some (remove s p .idle)

def next (s : Host P) : Step P → Option (Host P)
  | .acquire p =>
    match s.phase p with
    | .idle => some (s.goto p (.creating s.now false (mine R s p)))
    | _ => none
  | .release p =>
    match s.phase p with
    | .holding mine => some (s.goto p (.releaseReading mine))
    | _ => none
  | .advance p isHolderAlive => advance R O s p isHolderAlive
  | .tick ms => some { s with now := s.now + ms }

def Start (s : Host P) : Prop :=
  (∀ p, s.phase p = .idle) ∧ ∀ record, s.file = some (some record) → ∀ p, record.pid ≠ R.pid p

def lock : Machine (Host P) (Step P) where
  start := Start R
  next := next R O

/-- A pid that is asked about is alive where it is the pid of a live process, and dead
elsewhere; and no time passes, so that no acquire and no hold lasts. -/
def Prompt (s : Host P) : Step P → Prop
  | .advance p isHolderAlive => ∀ startedAtMs record, s.phase p = .judging startedAtMs (some record) →
      (isHolderAlive record.pid = true ↔ ∃ q, record.pid = R.pid q)
  | .tick _ => False
  | .acquire _ | .release _ => True

end

section
variable {P : Type*}

def Exclusive (s : Host P) : Prop :=
  ∀ p q mine mine', s.phase p = .holding mine → s.phase q = .holding mine' → p = q

def Phase.inside : Phase → Bool
  | .holding _ | .releaseReading _ | .releaseRemoving => true
  | _ => false

/-- A waiter removes the file only while nobody holds or releases. -/
def NoSteal (s : Host P) : Step P → Prop
  | .advance q _ => ∀ startedAtMs, s.phase q = .removing startedAtMs → ∀ p, (s.phase p).inside = false
  | _ => True

def Marks (R : Roster P) (content : Option LandLockRecord) (p : P) : Prop :=
  ∃ record, content = some record ∧ record.pid = R.pid p

structure Inv (R : Roster P) (s : Host P) : Prop where
  backed : Backed s.file (Marks R) (insiders Phase.inside s.phase)
  mine : ∀ p startedAtMs stealing mine, s.phase p = .creating startedAtMs stealing mine →
    mine.pid = R.pid p

variable {R : Roster P} {O : LandLockOptions} {s t : Host P} {p q : P}

lemma marks_inj (content : Option LandLockRecord) (p q : P) (hp : Marks R content p)
    (hq : Marks R content q) : p = q := by
  obtain ⟨record, rfl, hrec⟩ := hp
  obtain ⟨record', heq, hrec'⟩ := hq
  cases heq
  exact R.pid_inj (hrec.symm.trans hrec')

lemma Inv.sole (h : Inv R s) (hp : (s.phase p).inside = true) (hq : (s.phase q).inside = true) :
    p = q :=
  h.backed.subsingleton marks_inj hp hq

lemma Inv.exclusive (h : Inv R s) : Exclusive s := by
  intro p q mine mine' hp hq
  exact h.sole (by rw [hp]; rfl) (by rw [hq]; rfl)

variable [DecidableEq P]

@[simp] lemma goto_phase_self {phase : Phase} : (s.goto p phase).phase p = phase :=
  Function.update_self ..

lemma goto_phase_ne {phase : Phase} (h : q ≠ p) : (s.goto p phase).phase q = s.phase q :=
  Function.update_of_ne h ..

lemma Inv.mine_goto (h : Inv R s) {phase : Phase}
    (hmine : ∀ startedAtMs stealing mine, phase = .creating startedAtMs stealing mine →
      mine.pid = R.pid p) :
    ∀ q startedAtMs stealing mine, (s.goto p phase).phase q = .creating startedAtMs stealing mine →
      mine.pid = R.pid q := by
  intro q startedAtMs stealing mine hq
  by_cases hqp : q = p
  · subst hqp
    rw [goto_phase_self] at hq
    exact hmine startedAtMs stealing mine hq
  · rw [goto_phase_ne hqp] at hq
    exact h.mine q startedAtMs stealing mine hq

lemma Inv.goto (h : Inv R s) {phase : Phase}
    (hins : phase.inside = true → (s.phase p).inside = true)
    (hmine : ∀ startedAtMs stealing mine, phase = .creating startedAtMs stealing mine →
      mine.pid = R.pid p) : Inv R (s.goto p phase) :=
  ⟨h.backed.stay hins, h.mine_goto hmine⟩

lemma Inv.create (h : Inv R s) {mine : LandLockRecord} (hmine : mine.pid = R.pid p)
    (hfile : s.file = none) : Inv R { s.goto p (.holding mine) with file := some (some mine) } := by
  have hback := h.backed
  rw [hfile] at hback
  exact ⟨hback.enter ⟨mine, rfl, hmine⟩, h.mine_goto nofun⟩

lemma Inv.remove (h : Inv R s) {phase : Phase} (hphase : phase.inside = false)
    (hoth : ∀ q, (s.phase q).inside = true → q = p)
    (hmine : ∀ startedAtMs stealing mine, phase = .creating startedAtMs stealing mine →
      mine.pid = R.pid p) : Inv R (remove s p phase) :=
  ⟨Backed.clear hoth hphase, h.mine_goto hmine⟩

lemma Inv.advance (h : Inv R s) {isHolderAlive : ℕ → Bool}
    (hok : NoSteal s (.advance p isHolderAlive)) (hn : advance R O s p isHolderAlive = some t) :
    Inv R t := by
  unfold LandLock.advance at hn
  cases hphase : s.phase p with
  | idle => simp [hphase] at hn
  | holding mine => simp [hphase] at hn
  | creating startedAtMs stealing mine =>
    simp only [hphase, some.injEq] at hn
    subst hn
    unfold createExclusive
    split
    · next hfile => exact h.create (h.mine p startedAtMs stealing mine hphase) hfile
    · apply h.goto
      · cases stealing <;> nofun
      · cases stealing <;> nofun
  | reading startedAtMs =>
    simp only [hphase, some.injEq] at hn
    subst hn
    exact h.goto nofun nofun
  | judging startedAtMs record =>
    simp only [hphase] at hn
    split_ifs at hn
    · cases hn
      exact h.goto nofun nofun
    · cases hn
      exact h.goto nofun nofun
  | removing startedAtMs =>
    simp only [hphase, some.injEq] at hn
    subst hn
    apply h.remove rfl
    · intro q hq
      rw [hok startedAtMs hphase q] at hq
      cases hq
    · nofun
  | retaking startedAtMs =>
    simp only [hphase, some.injEq] at hn
    subst hn
    apply h.goto
    · nofun
    · intro startedAtMs' stealing mine' heq
      cases heq
      rfl
  | polling startedAtMs =>
    simp only [hphase] at hn
    split_ifs at hn
    · cases hn
      exact h.goto nofun nofun
    · cases hn
      exact h.goto nofun nofun
  | sleeping startedAtMs wakeAtMs =>
    simp only [hphase] at hn
    split_ifs at hn
    cases hn
    apply h.goto
    · nofun
    · intro startedAtMs' stealing mine' heq
      cases heq
      rfl
  | releaseReading mine =>
    have hin : (s.phase p).inside = true := by rw [hphase]; rfl
    simp only [hphase] at hn
    split at hn
    · split_ifs at hn
      · cases hn
        exact h.goto nofun nofun
      · cases hn
        exact h.goto (fun _ => hin) nofun
    · cases hn
      exact h.goto (fun _ => hin) nofun
  | releaseRemoving =>
    simp only [hphase, some.injEq] at hn
    subst hn
    have hin : (s.phase p).inside = true := by rw [hphase]; rfl
    exact h.remove rfl (fun q hq => h.sole hq hin) nofun

lemma Inv.step (h : Inv R s) {a : Step P} (hok : NoSteal s a) (hn : next R O s a = some t) :
    Inv R t := by
  cases a with
  | acquire p =>
    cases hphase : s.phase p <;> simp only [next, hphase, reduceCtorEq, some.injEq] at hn
    subst hn
    apply h.goto
    · nofun
    · intro startedAtMs stealing mine heq
      cases heq
      rfl
  | release p =>
    cases hphase : s.phase p <;> simp only [next, hphase, reduceCtorEq, some.injEq] at hn
    subst hn
    exact h.goto (fun _ => by rw [hphase]; rfl) nofun
  | advance p isHolderAlive => exact h.advance hok hn
  | tick ms =>
    cases hn
    exact ⟨h.backed, h.mine⟩

omit [DecidableEq P] in
lemma inv_of_start (h : Start R s) : Inv R s := by
  refine ⟨fun p hp => ?_, fun p startedAtMs stealing mine hp => ?_⟩
  · rw [mem_insiders, h.1 p] at hp
    cases hp
  · rw [h.1 p] at hp
    cases hp

lemma inv_of_reach (h : (lock R O).Reach NoSteal s) : Inv R s :=
  h.inv (Inv R) (fun _ => inv_of_start) fun _ _ _ hs hok hn => hs.step hok hn

omit [DecidableEq P] in
lemma prompt_of_not_judging {isHolderAlive : ℕ → Bool}
    (h : ∀ startedAtMs record, s.phase p ≠ .judging startedAtMs record) :
    Prompt R s (.advance p isHolderAlive) :=
  fun startedAtMs record heq => absurd heq (h startedAtMs (some record))

lemma run_advance (hn : advance R O s p (fun _ => true) = some t)
    (h : ∀ startedAtMs record, s.phase p ≠ .judging startedAtMs record) :
    (lock R O).Run (Prompt R) s [.advance p fun _ => true] t :=
  .single (prompt_of_not_judging h) hn

lemma create_run {startedAtMs : ℤ} {stealing : Bool} {mine : LandLockRecord}
    (hfile : s.file = none) (hp : s.phase p = .creating startedAtMs stealing mine) :
    (lock R O).Run (Prompt R) s [.advance p fun _ => true]
      { s.goto p (.holding mine) with file := some (some mine) } := by
  apply run_advance
  · simp [advance, hp, createExclusive, hfile]
  · simp [hp]

lemma retake_run {startedAtMs : ℤ} (hfile : s.file = none)
    (hp : s.phase p = .retaking startedAtMs) :
    ∃ as t, (lock R O).Run (Prompt R) s as t ∧ t.phase p = .holding (mine R s p) ∧
      ∀ q, q ≠ p → t.phase q = s.phase q := by
  have hread : (lock R O).Run (Prompt R) s [.advance p fun _ => true]
      (s.goto p (.creating startedAtMs true (mine R s p))) := by
    apply run_advance
    · simp [advance, hp]
    · simp [hp]
  refine ⟨_, _, hread.append (create_run hfile goto_phase_self), goto_phase_self, fun q hq => ?_⟩
  exact (goto_phase_ne hq).trans (goto_phase_ne hq)

lemma read_run {mine' : LandLockRecord} (hfile : s.file = none)
    (hp : s.phase p = .releaseReading mine') :
    (lock R O).Run (Prompt R) s [.advance p fun _ => true] (s.goto p .releaseRemoving) := by
  apply run_advance
  · simp [advance, hp, parseRecord, hfile]
  · simp [hp]

lemma late_release_run {mine' : LandLockRecord} (hp : s.phase p = .releaseRemoving)
    (hq : s.phase q = .holding mine') (hne : q ≠ p) :
    ∃ as t, (lock R O).Run (Prompt R) s as t ∧ ¬ Exclusive t := by
  have hrem : (lock R O).Run (Prompt R) s [.advance p fun _ => true] (remove s p .idle) := by
    apply run_advance
    · simp [advance, hp]
    · simp [hp]
  let s₁ := remove s p .idle
  let s₂ := s₁.goto p (.creating s₁.now false (mine R s₁ p))
  have hidle : s₁.phase p = .idle := goto_phase_self
  have hacq : (lock R O).Run (Prompt R) s₁ [.acquire p] s₂ := by
    refine .single trivial ?_
    change next R O s₁ (.acquire p) = some s₂
    simp only [next, hidle]
    rfl
  have hcreate := @create_run _ R O s₂ p _ _ _ _ rfl goto_phase_self
  refine ⟨_, _, (hrem.append hacq).append hcreate, fun hexcl => hne ?_⟩
  apply hexcl q p mine' _ _ goto_phase_self
  calc (s₂.goto p (.holding (mine R s₁ p))).phase q = s₂.phase q := goto_phase_ne hne
    _ = s₁.phase q := goto_phase_ne hne
    _ = s.phase q := goto_phase_ne hne
    _ = .holding mine' := hq

/-- Whoever steals the file of a process that is inside takes the lock next to it, or has
its own lock removed by the release under way. -/
lemma steal_run {a : Step P} (hsteal : ¬ NoSteal s a) (hn : next R O s a = some t) :
    ∃ as u, (lock R O).Run (Prompt R) t as u ∧ ¬ Exclusive u := by
  cases a with
  | advance q isHolderAlive =>
    simp only [NoSteal, not_forall, Bool.not_eq_false] at hsteal
    obtain ⟨startedAtMs, hq, p, hp⟩ := hsteal
    have hne : p ≠ q := by
      rintro rfl
      rw [hq] at hp
      cases hp
    simp only [next, advance, hq, some.injEq] at hn
    subst hn
    have hphase : (remove s q (.retaking startedAtMs)).phase p = s.phase p := goto_phase_ne hne
    cases hheld : s.phase p with
    | holding mine' =>
      obtain ⟨as, u, hrun, hu, hoth⟩ := @retake_run _ R O
        (remove s q (.retaking startedAtMs)) q _ startedAtMs rfl goto_phase_self
      refine ⟨as, u, hrun, fun hexcl => hne ?_⟩
      exact hexcl p q mine' _ ((hoth p hne).trans (hphase.trans hheld)) hu
    | releaseReading mine' =>
      have hread := @read_run _ R O (remove s q (.retaking startedAtMs)) p _ mine' rfl
        (hphase.trans hheld)
      obtain ⟨as, u, hrun, hu, hoth⟩ := @retake_run _ R O
        ((remove s q (.retaking startedAtMs)).goto p .releaseRemoving) q _ startedAtMs rfl
        ((goto_phase_ne hne.symm).trans goto_phase_self)
      obtain ⟨bs, v, hrun', hv⟩ := @late_release_run _ R O u p q _ _
        ((hoth p hne).trans goto_phase_self) hu hne.symm
      exact ⟨_, v, (hread.append hrun).append hrun', hv⟩
    | releaseRemoving =>
      obtain ⟨as, u, hrun, hu, hoth⟩ := @retake_run _ R O
        (remove s q (.retaking startedAtMs)) q _ startedAtMs rfl goto_phase_self
      obtain ⟨bs, v, hrun', hv⟩ := @late_release_run _ R O u p q _ _
        ((hoth p hne).trans (hphase.trans hheld)) hu hne.symm
      exact ⟨_, v, hrun.append hrun', hv⟩
    | _ =>
      rw [hheld] at hp
      cases hp
  | _ => exact absurd trivial hsteal

/-- In every run in which a waiter removes the file only while nobody holds or releases, at most one
process has a release function that it has not called. -/
theorem held_alone_iff_noSteal (R : Roster P) (O : LandLockOptions) :
    (∀ s, (lock R O).Reach NoSteal s → Exclusive s) ∧
      ∀ s a t, (lock R O).Reach NoSteal s → ¬ NoSteal s a → next R O s a = some t →
        ∃ as u, (lock R O).Run (Prompt R) t as u ∧ ¬ Exclusive u :=
  ⟨fun _ hs => (inv_of_reach hs).exclusive, fun _ _ _ _ hsteal hn => steal_run hsteal hn⟩

end

section

def pair : Roster Bool where
  holder
    | true => ['a']
    | false => ['b']
  pid
    | true => 12
    | false => 13
  pid_inj := by unfold Function.Injective; decide

def limits : LandLockOptions := ⟨900000, 1000, 1800000⟩

def stale : Host Bool := ⟨some (some ⟨['x'], 11, 0⟩), 0, fun _ => .idle⟩

lemma start_stale : Start pair stale :=
  ⟨fun _ => rfl, fun record heq p => by cases heq; cases p <;> decide⟩

def told (p : Bool) : Step Bool := .advance p fun pid => pid != 11

def judge (p : Bool) : List (Step Bool) := [.acquire p, told p, told p, told p]

def steal (p : Bool) : List (Step Bool) := [told p, told p, told p]

instance (s : Host Bool) (a : Step Bool) : Decidable (Prompt pair s a) :=
  match a with
  | .advance p isHolderAlive =>
    match h : s.phase p with
    | .judging _ (some record) =>
      decidable_of_iff (isHolderAlive record.pid = true ↔ ∃ q, record.pid = pair.pid q) (by
        simp [Prompt, h])
    | .judging _ none | .idle | .creating _ _ _ | .reading _ | .removing _ | .retaking _
    | .polling _ | .sleeping _ _ | .holding _ | .releaseReading _ | .releaseRemoving =>
      isTrue (by simp [Prompt, h])
  | .tick _ => isFalse not_false
  | .acquire _ | .release _ => isTrue trivial

/-- Two waiters are told of the dead holder, and the slower removes the lock of the other. -/
theorem two_waiters : ¬ ∀ s, (lock pair limits).Reach (Prompt pair) s → Exclusive s := by
  intro h
  have hrun : ((lock pair limits).execIf (fun s a => decide (Prompt pair s a)) stale
      (judge true ++ judge false ++ steal true ++ steal false)).map
        (fun s => (s.phase true, s.phase false)) =
      some (.holding ⟨['a'], 12, 0⟩, .holding ⟨['b'], 13, 0⟩) := by
    decide +kernel
  obtain ⟨s, hs, hview⟩ := map_eq_some_iff.mp hrun
  obtain ⟨htrue, hfalse⟩ := Prod.mk.inj hview
  have hguard := (Machine.run_of_execIf hs).mono fun s a h => of_decide_eq_true h
  exact absurd (h s ⟨stale, _, start_stale, hguard⟩ true false _ _ htrue hfalse) nofun

instance (s : Host Bool) (a : Step Bool) : Decidable (NoSteal s a) :=
  match a with
  | .advance q _ =>
    match h : s.phase q with
    | .removing _ => decidable_of_iff (∀ p, (s.phase p).inside = false) (by simp [NoSteal, h])
    | .idle | .creating _ _ _ | .reading _ | .judging _ _ | .retaking _ | .polling _
    | .sleeping _ _ | .holding _ | .releaseReading _ | .releaseRemoving =>
      isTrue (by simp [NoSteal, h])
  | .acquire _ | .release _ | .tick _ => isTrue trivial

theorem exclusive_until_removal :
    ∃ s, s.phase true = .holding ⟨['a'], 12, 0⟩ ∧ Exclusive s ∧
      ∃ t as u, next pair limits s (told false) = some t ∧
        (lock pair limits).Run (Prompt pair) t as u ∧ ¬ Exclusive u := by
  have hrun : ((lock pair limits).execIf (fun s a => decide (NoSteal s a)) stale
      (judge true ++ judge false ++ steal true)).map
        (fun s => (s.phase true, decide (NoSteal s (told false)),
          (next pair limits s (told false)).isSome)) =
      some (.holding ⟨['a'], 12, 0⟩, false, true) := by
    decide +kernel
  obtain ⟨s, hs, hview⟩ := map_eq_some_iff.mp hrun
  simp only [Prod.mk.injEq, decide_eq_false_iff_not] at hview
  obtain ⟨htrue, hsteal, hnext⟩ := hview
  obtain ⟨t, ht⟩ := isSome_iff_exists.mp hnext
  have hreach : (lock pair limits).Reach NoSteal s :=
    ⟨stale, _, start_stale, (Machine.run_of_execIf hs).mono fun _ _ h => of_decide_eq_true h⟩
  obtain ⟨hexcl, htheft⟩ := held_alone_iff_noSteal pair limits
  obtain ⟨as, u, hrun', hu⟩ := htheft s (told false) t hreach hsteal ht
  exact ⟨s, htrue, hexcl s hreach, t, as, u, ht, hrun', hu⟩

end
end Redskilled.Landing.LandLock
