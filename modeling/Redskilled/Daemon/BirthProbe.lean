import Redskilled.Daemon.DemandLoop

/-!
# One probe

A launch that the tick performs itself keeps the half-open state to one Worker: the
plan admits a single birth, the Worker of that birth is marked behind its start, and
while it carries the mark no plan admits another. The mark does not reach a Worker
that an unattended turn starts, nor one of a tick whose plan is older than the halt.
-/
namespace Redskilled.Daemon.Demand
open Foundation Option

def Stage.holds (stage : Stage) (label : Text) : ℕ :=
  match stage with
  | .briefing birth | .starting birth | .settling birth _ =>
    if birth.projectLabel = label then 1 else 0
  | _ => 0

def Stage.settles (stage : Stage) (label workerId : Text) : Prop :=
  ∃ birth, stage = .settling birth workerId ∧ birth.projectLabel = label

structure Inv (label : Text) (s : State) : Prop where
  born : ∀ worker ∈ s.workers.values, ∀ sinceMs, worker.bornSince sinceMs → sinceMs ≤ s.nowMs
  began : ∀ tick ∈ s.tick, tick.atMs ≤ s.nowMs
  direct : ∀ worker ∈ s.workers.values, ∀ atMs, worker.origin = .direct atMs →
    atMs ≤ s.nowMs ∧ ∀ tick ∈ s.tick, atMs ≤ tick.atMs
  probe : (s.birthHealth label).probeWorkerId.isSome →
    ∃ haltUntilMs ∈ (s.birthHealth label).haltUntilMs, haltUntilMs ≤ s.nowMs ∧
      ∀ tick ∈ s.tick, haltUntilMs ≤ tick.atMs
  left : ∀ tick ∈ s.tick, ∀ haltUntilMs ∈ (s.birthHealth label).haltUntilMs,
    haltUntilMs ≤ tick.atMs →
      birthsOf label tick.births + (s.birthHealth label).probeWorkerId.isSome.toNat +
        tick.stage.holds label ≤ 1
  marks : ∀ workerId worker, s.workers.lookup workerId = some worker →
    worker.projectLabel = label → ∀ haltUntilMs ∈ (s.birthHealth label).haltUntilMs,
      worker.bornSince haltUntilMs → worker.unmarked haltUntilMs = false →
        (s.birthHealth label).probeWorkerId = some workerId ∨
          ∃ tick ∈ s.tick, tick.stage.settles label workerId
  oneProbe : OneProbe label s

variable {host : Host} {label : Text} {s t : State}

variable {birth : Birth} {haltUntilMs : ℕ} {tick : Tick} {turns : List Text} {workerId : Text}

lemma Worker.direct_of_bornSince {worker : Worker}
    (hborn : worker.bornSince haltUntilMs) (hmark : worker.unmarked haltUntilMs = false) :
    ∃ atMs, worker.origin = .direct atMs ∧ haltUntilMs ≤ atMs := by
  cases horig : worker.origin with
  | turn => simp [Worker.unmarked, hborn, horig] at hmark
  | direct atMs => exact ⟨atMs, rfl, by simpa [Worker.unmarked, hborn, horig] using hmark⟩
  | other => simp [Worker.bornSince, horig] at hborn

lemma OneProbe.mono (h : OneProbe label s) (hnow : t.nowMs = s.nowMs)
    (hhealth : t.birthHealth label = s.birthHealth label)
    (hle : ∀ sinceMs, t.beingLaunched label + t.alive label sinceMs ≤
      s.beingLaunched label + s.alive label sinceMs) : OneProbe label t := by
  intro haltUntilMs hhalt hexp
  rw [hhealth] at hhalt
  rw [hnow] at hexp
  exact (hle haltUntilMs).trans (h haltUntilMs hhalt hexp)

lemma oneProbe_of_not_halfOpen (h : (s.birthHealth label).halfOpen s.nowMs = false) :
    OneProbe label s := by
  intro haltUntilMs hhalt hexp
  rw [Bool.eq_false_iff] at h
  exact absurd (halfOpen_iff.mpr ⟨haltUntilMs, hhalt, hexp⟩) h

structure Closed (health : BirthHealth) (nowMs : ℕ) : Prop where
  probe : health.probeWorkerId = none
  halt : health.halfOpen nowMs = false

lemma closed_empty (nowMs : ℕ) : Closed emptyBirthHealth nowMs := ⟨rfl, rfl⟩

lemma closed_fold (before : BirthHealth) (lifetimeMs : Option ℕ) (nowMs : ℕ)
    (outcome : BirthOutcome) :
    Closed (foldProjectBirthHealth before lifetimeMs nowMs outcome) nowMs :=
  ⟨(fold_spec before lifetimeMs nowMs outcome).1, fold_not_halfOpen before lifetimeMs nowMs outcome⟩

lemma Closed.lt {health : BirthHealth} {nowMs : ℕ} (h : Closed health nowMs)
    (hhalt : haltUntilMs ∈ health.haltUntilMs) : nowMs < haltUntilMs := by
  by_contra hle
  have hopen := halfOpen_iff.mpr ⟨haltUntilMs, hhalt, Nat.le_of_not_lt hle⟩
  rw [h.halt] at hopen
  cases hopen

lemma Inv.closes (h : Inv label s) (hnow : t.nowMs = s.nowMs) (htick : t.tick = s.tick)
    (hworkers : ∀ workerId worker, t.workers.lookup workerId = some worker →
      s.workers.lookup workerId = some worker)
    (hclos : Closed (t.birthHealth label) s.nowMs) : Inv label t := by
  have hval : ∀ worker ∈ t.workers.values, worker ∈ s.workers.values := by
    intro worker hwork
    obtain ⟨workerId, hlook⟩ := JsMap.mem_values.mp hwork
    exact JsMap.mem_values.mpr ⟨workerId, hworkers workerId worker hlook⟩
  constructor
  · intro worker hwork
    rw [hnow]
    exact h.born worker (hval worker hwork)
  · rw [htick, hnow]
    exact h.began
  · intro worker hwork
    rw [htick, hnow]
    exact h.direct worker (hval worker hwork)
  · intro hprobe
    rw [hclos.probe] at hprobe
    cases hprobe
  · intro tick hmem haltUntilMs hhalt hexp
    rw [htick] at hmem
    have hbeg := h.began tick hmem
    have hlt := hclos.lt hhalt
    omega
  · intro workerId worker hlook _ haltUntilMs hhalt hborn _
    have hle := h.born worker (JsMap.mem_values.mpr ⟨workerId, hworkers _ _ hlook⟩) _ hborn
    have hlt := hclos.lt hhalt
    omega
  · apply oneProbe_of_not_halfOpen
    rw [hnow]
    exact hclos.halt

lemma Inv.world (h : Inv label s) (hnow : t.nowMs = s.nowMs) (htick : t.tick = s.tick)
    (hhealth : t.birthHealth label = s.birthHealth label)
    (hworkers : ∀ workerId worker, t.workers.lookup workerId = some worker →
      s.workers.lookup workerId = some worker ∨ (∀ atMs, worker.origin ≠ .direct atMs) ∧
          ∀ sinceMs, worker.bornSince sinceMs → sinceMs ≤ s.nowMs)
    (hcount : ∀ sinceMs, t.turns.count label + t.alive label sinceMs ≤
      s.turns.count label + s.alive label sinceMs) : Inv label t := by
  constructor
  · intro worker hwork sinceMs hborn
    rw [hnow]
    obtain ⟨workerId, hlook⟩ := JsMap.mem_values.mp hwork
    rcases hworkers workerId worker hlook with hheld | ⟨-, hnew⟩
    · exact h.born worker (JsMap.mem_values.mpr ⟨workerId, hheld⟩) sinceMs hborn
    · exact hnew sinceMs hborn
  · rw [htick, hnow]
    exact h.began
  · intro worker hwork atMs horig
    rw [htick, hnow]
    obtain ⟨workerId, hlook⟩ := JsMap.mem_values.mp hwork
    rcases hworkers workerId worker hlook with hheld | ⟨hnew, -⟩
    · exact h.direct worker (JsMap.mem_values.mpr ⟨workerId, hheld⟩) atMs horig
    · exact absurd horig (hnew atMs)
  · rw [hhealth, hnow, htick]
    exact h.probe
  · rw [hhealth, htick]
    exact h.left
  · intro workerId worker hlook hlab haltUntilMs hhalt hborn hmark
    rw [hhealth] at hhalt ⊢
    rw [htick]
    rcases hworkers workerId worker hlook with hheld | ⟨hnew, -⟩
    · exact h.marks workerId worker hheld hlab haltUntilMs hhalt hborn hmark
    · obtain ⟨atMs, horig, -⟩ := Worker.direct_of_bornSince hborn hmark
      exact absurd horig (hnew atMs)
  · apply h.oneProbe.mono hnow hhealth
    intro sinceMs
    have hle := hcount sinceMs
    simp only [State.beingLaunched, htick]
    omega

lemma Inv.ticks (h : Inv label s) (hmem : s.tick = some tick)
    (hstage : ∀ workerId, tick.stage.settles label workerId →
      ∀ haltUntilMs ∈ (s.birthHealth label).haltUntilMs, tick.atMs < haltUntilMs)
    (hnow : t.nowMs = s.nowMs) (hworkers : t.workers = s.workers)
    (hhealth : t.birthHealth label = s.birthHealth label)
    (hat : ∀ tick' ∈ t.tick, tick'.atMs = tick.atMs)
    (hleft : ∀ tick' ∈ t.tick, ∀ haltUntilMs ∈ (s.birthHealth label).haltUntilMs,
      haltUntilMs ≤ tick.atMs →
        birthsOf label tick'.births + (s.birthHealth label).probeWorkerId.isSome.toNat +
          tick'.stage.holds label ≤ 1)
    (hone : OneProbe label t) : Inv label t := by
  constructor
  · rw [hworkers, hnow]
    exact h.born
  · intro tick' htick'
    rw [hat tick' htick', hnow]
    exact h.began tick hmem
  · intro worker hwork atMs horig
    rw [hworkers] at hwork
    rw [hnow]
    have hdir := h.direct worker hwork atMs horig
    refine ⟨hdir.1, fun tick' htick' => ?_⟩
    rw [hat tick' htick']
    exact hdir.2 tick hmem
  · intro hset
    rw [hhealth] at hset ⊢
    obtain ⟨haltUntilMs, hhalt, hexp, hbef⟩ := h.probe hset
    rw [hnow]
    refine ⟨haltUntilMs, hhalt, hexp, fun tick' htick' => ?_⟩
    rw [hat tick' htick']
    exact hbef tick hmem
  · intro tick' htick' haltUntilMs hhalt hexp
    rw [hhealth] at hhalt ⊢
    rw [hat tick' htick'] at hexp
    exact hleft tick' htick' haltUntilMs hhalt hexp
  · intro workerId worker hlook hlab haltUntilMs hhalt hborn hmark
    rw [hhealth] at hhalt ⊢
    rw [hworkers] at hlook
    rcases h.marks workerId worker hlook hlab haltUntilMs hhalt hborn hmark with
      hprobe | ⟨tick', htick', hsettl⟩
    · exact .inl hprobe
    · obtain rfl := some.inj (hmem.symm.trans htick')
      obtain ⟨atMs, horig, hle⟩ := Worker.direct_of_bornSince hborn hmark
      have hlt := hstage workerId hsettl haltUntilMs hhalt
      have hbef := (h.direct worker (JsMap.mem_values.mpr ⟨workerId, hlook⟩) atMs horig).2
        tick hmem
      omega
  · exact hone

lemma Inv.advance (h : Inv label s) {ms : ℕ} (hguard : Marked label s (.advance ms)) :
    Inv label { s with nowMs := s.nowMs + ms } := by
  constructor
  · intro worker hwork sinceMs hborn
    exact (h.born worker hwork sinceMs hborn).trans (Nat.le_add_right _ _)
  · intro tick htick
    exact (h.began tick htick).trans (Nat.le_add_right _ _)
  · intro worker hwork atMs horig
    have hdir := h.direct worker hwork atMs horig
    exact ⟨hdir.1.trans (Nat.le_add_right _ _), hdir.2⟩
  · intro hset
    obtain ⟨haltUntilMs, hhalt, hexp, hbef⟩ := h.probe hset
    exact ⟨haltUntilMs, hhalt, hexp.trans (Nat.le_add_right _ _), hbef⟩
  · exact h.left
  · exact h.marks
  · intro haltUntilMs hhalt hexp
    by_cases hbef : haltUntilMs ≤ s.nowMs
    · exact h.oneProbe haltUntilMs hhalt hbef
    · -- the halt expires: nobody has been born since
      have hnone : s.alive label haltUntilMs = 0 := by
        apply List.countP_eq_zero.mpr
        intro worker hwork hcounted
        simp only [Bool.and_eq_true] at hcounted
        exact hbef (h.born worker hwork haltUntilMs hcounted.2)
      have hlaunch := hguard haltUntilMs hhalt (Nat.lt_of_not_le hbef) hexp
      change s.beingLaunched label + s.alive label haltUntilMs ≤ 1
      omega

lemma Inv.driveDemand (h : Inv label s) (hnone : s.tick = none) :
    Inv label { s with tick := some { atMs := s.nowMs } } := by
  constructor
  · exact h.born
  · rintro tick ⟨⟩
    exact le_rfl
  · intro worker hwork atMs horig
    have hdir := h.direct worker hwork atMs horig
    refine ⟨hdir.1, ?_⟩
    rintro tick ⟨⟩
    exact hdir.1
  · intro hset
    obtain ⟨haltUntilMs, hhalt, hexp, -⟩ := h.probe hset
    refine ⟨haltUntilMs, hhalt, hexp, ?_⟩
    rintro tick ⟨⟩
    exact hexp
  · rintro tick ⟨⟩ haltUntilMs - -
    have hprobe := Bool.toNat_le (s.birthHealth label).probeWorkerId.isSome
    simpa [birthsOf, Stage.holds] using hprobe
  · intro workerId worker hlook hlab haltUntilMs hhalt hborn hmark
    rcases h.marks workerId worker hlook hlab haltUntilMs hhalt hborn hmark with
      hprobe | ⟨tick, htick, -⟩
    · exact .inl hprobe
    · rw [hnone] at htick
      cases htick
  · refine h.oneProbe.mono ?_ ?_ ?_
    · rfl
    · rfl
    intro sinceMs
    simp only [State.beingLaunched, State.alive, hnone, Stage.launches, Option.elim]
    exact le_rfl

lemma planInput_labels (s : State) (tick : Tick) :
    ((s.planInput tick).projects.map Project.projectLabel).Nodup := by
  simp only [State.planInput, List.map_map]
  exact s.registrations.nodupKeys

lemma birthsOf_planCurrentDemand
    (h : (s.birthHealth label).haltUntilMs = some haltUntilMs) :
    birthsOf label (s.planCurrentDemand host tick) +
      (s.birthHealth label).probeWorkerId.isSome.toNat ≤ 1 :=
  plan_of_halt (planInput_labels s tick) h

lemma settles_elim {stage : Stage} {p : Prop} (hsettl : stage.settles label workerId)
    (hstage : ∀ birth workerId, stage ≠ .settling birth workerId) : p := by
  obtain ⟨birth, hsettli, -⟩ := hsettl
  exact absurd hsettli (hstage birth workerId)

lemma closeProbe_or (s : State) (atMs : ℕ) (label : Text) :
    s.closeProbe atMs label = s.birthHealth label ∨ s.closeProbe atMs label = emptyBirthHealth := by
  unfold State.closeProbe
  split
  · exact .inl rfl
  · split_ifs
    · exact .inr rfl
    · exact .inl rfl

lemma Inv.closeProbes (h : Inv label s) (atMs : ℕ) :
    Inv label { s with birthHealth := s.closeProbe atMs } := by
  rcases closeProbe_or s atMs label with hsame | hempty
  · refine h.world ?_ ?_ hsame ?_ ?_
    · rfl
    · rfl
    · intro workerId worker hlook
      exact .inl hlook
    · intro sinceMs
      exact le_rfl
  · refine h.closes ?_ ?_ ?_ ?_
    · rfl
    · rfl
    · intro workerId worker hlook
      exact hlook
    · change Closed (s.closeProbe atMs label) s.nowMs
      rw [hempty]
      exact closed_empty _

lemma Inv.swept (h : Inv label s) (hmem : s.tick = some tick)
    (hstage : tick.stage = .sweeping) : Inv label (s.swept host tick) := by
  have hclos := h.closeProbes tick.atMs
  have hleft := hclos.left tick hmem
  rw [hstage] at hleft
  apply hclos.ticks hmem
  · intro workerId hsettl
    exact settles_elim hsettl (by simp [hstage])
  · rfl
  · rfl
  · rfl
  · rintro tick' ⟨⟩
    rfl
  · rintro tick' ⟨⟩ haltUntilMs hhalt hexp
    have hle := hleft haltUntilMs hhalt hexp
    dsimp only
    split_ifs
    · exact hle
    · exact hle
  · refine hclos.oneProbe.mono ?_ ?_ ?_
    · rfl
    · rfl
    intro sinceMs
    simp only [State.beingLaunched, State.swept, hmem, hstage, State.alive, Option.elim]
    split_ifs
    · exact le_rfl
    · exact le_rfl

lemma Inv.planned (h : Inv label s) (hmem : s.tick = some tick)
    (hstage : tick.stage = .polling) : Inv label (s.planned host tick) := by
  apply h.ticks hmem
  · intro workerId hsettl
    exact settles_elim hsettl (by simp [hstage])
  · rfl
  · rfl
  · rfl
  · rintro tick' ⟨⟩
    rfl
  · rintro tick' ⟨⟩ haltUntilMs hhalt -
    exact birthsOf_planCurrentDemand hhalt
  · refine h.oneProbe.mono ?_ ?_ ?_
    · rfl
    · rfl
    intro sinceMs
    simp only [State.beingLaunched, State.planned, hmem, hstage, State.alive, Option.elim]
    exact le_rfl

lemma Inv.tickEnds (h : Inv label s) (hmem : s.tick = some tick)
    (hstage : ∀ birth workerId, tick.stage ≠ .settling birth workerId)
    (hnow : t.nowMs = s.nowMs) (hworkers : t.workers = s.workers) (hturns : t.turns = s.turns)
    (hhealth : t.birthHealth label = s.birthHealth label)
    (htick : t.tick = none ∨ t.tick = some { tick with stage := .closing }) : Inv label t := by
  have hleft := h.left tick hmem
  apply h.ticks hmem
  · intro workerId hsettl
    exact settles_elim hsettl hstage
  · exact hnow
  · exact hworkers
  · exact hhealth
  · intro tick' htick'
    rcases htick with hnone | hclosi
    · rw [hnone] at htick'
      cases htick'
    · rw [hclosi] at htick'
      cases htick'
      rfl
  · intro tick' htick' haltUntilMs hhalt hexp
    rcases htick with hnone | hclosi
    · rw [hnone] at htick'
      cases htick'
    · rw [hclosi] at htick'
      cases htick'
      have hle := hleft haltUntilMs hhalt hexp
      simp only [Stage.holds]
      omega
  · apply h.oneProbe.mono hnow hhealth
    intro sinceMs
    simp only [State.beingLaunched, State.alive, hworkers, hturns]
    rcases htick with hnone | hclosi
    · rw [hnone]
      simp
    · rw [hclosi]
      simp [Stage.launches]

/-- What the guard leaves out stands beside no birth that the loop takes up: the Worker
with the mark keeps the plan from asking for it. -/
lemma Inv.alive_eq_zero (h : Inv label s) (hmem : s.tick = some tick)
    (hstage : tick.stage = .launching) (hbirth : birthsOf label tick.births ≠ 0)
    (hhalt : haltUntilMs ∈ (s.birthHealth label).haltUntilMs)
    (hguard : ∀ worker ∈ s.workers.values, worker.projectLabel = label →
      worker.unmarked haltUntilMs = false) : s.alive label haltUntilMs = 0 := by
  apply List.countP_eq_zero.mpr
  intro worker hwork hcounted
  simp only [Bool.and_eq_true, decide_eq_true_eq] at hcounted
  have hmark := hguard worker hwork hcounted.1
  obtain ⟨workerId, hlook⟩ := JsMap.mem_values.mp hwork
  rcases h.marks workerId worker hlook hcounted.1 haltUntilMs hhalt hcounted.2 hmark with
    hprobe | ⟨tick', htick', birth, hsettli, -⟩
  · have hset : (s.birthHealth label).probeWorkerId.isSome := by rw [hprobe]; rfl
    obtain ⟨haltUntilMs', hhalt', -, hbef⟩ := h.probe hset
    have hleft := h.left tick hmem haltUntilMs' hhalt' (hbef tick hmem)
    rw [hset, Bool.toNat_true] at hleft
    omega
  · obtain rfl := some.inj (hmem.symm.trans htick')
    rw [hstage] at hsettli
    cases hsettli

lemma Inv.nextBirth (h : Inv label s) (hmem : s.tick = some tick)
    (hstage : tick.stage = .launching) (hguard : Marked label s .nextBirth) :
    Inv label (s.nextBirth host tick) := by
  have hleft := h.left tick hmem
  have hidle : ∀ birth workerId, tick.stage ≠ .settling birth workerId := by simp [hstage]
  cases hbirths : tick.births with
  | nil =>
    simp only [State.nextBirth, hbirths]
    refine h.tickEnds hmem hidle ?_ ?_ ?_ ?_ ?_
    · rfl
    · rfl
    · rfl
    · rfl
    · exact .inr (by rw [hbirths])
  | cons birth births =>
    rw [hbirths, hstage] at hleft
    simp only [State.nextBirth, hbirths]
    refine h.ticks hmem ?_ ?_ ?_ ?_ ?_ ?_ ?_
    · intro workerId hsettl
      exact settles_elim hsettl hidle
    · rfl
    · rfl
    · rfl
    · rintro tick' ⟨⟩
      rfl
    · rintro tick' ⟨⟩ haltUntilMs hhalt hexp
      have hle := hleft haltUntilMs hhalt hexp
      simp only [birthsOf, List.countP_cons, decide_eq_true_eq] at hle ⊢
      split_ifs
      all_goals simp only [Stage.holds] at hle ⊢; omega
    · intro haltUntilMs hhalt hexp
      by_cases hlab : birth.projectLabel = label
      · have hupc : s.upcoming = some label := by
          simp [State.upcoming, hmem, hbirths, hlab]
        obtain ⟨hturns, hunm⟩ := hguard haltUntilMs hhalt hupc hexp
        have hsome : birthsOf label tick.births ≠ 0 := by
          rw [hbirths, birthsOf, List.countP_cons]
          simp [hlab]
        have hzero := h.alive_eq_zero hmem hstage hsome hhalt hunm
        have hnone := List.count_eq_zero.mpr hturns
        simp only [State.beingLaunched, State.alive] at hzero ⊢
        rw [hzero, hnone, elim_some]
        split_ifs
        all_goals simp [Stage.launches, hlab]
      · have hle := h.oneProbe haltUntilMs hhalt hexp
        simp only [State.beingLaunched, State.alive, hmem, hstage, elim_some,
          Stage.launches] at hle ⊢
        split_ifs
        all_goals simpa only [hlab, if_false] using hle

lemma Inv.briefed (h : Inv label s) (hmem : s.tick = some tick)
    (hstage : tick.stage = .briefing birth) : Inv label (s.briefed tick birth) := by
  have hleft := h.left tick hmem
  refine h.ticks hmem ?_ ?_ ?_ ?_ ?_ ?_ ?_
  · intro workerId hsettl
    exact settles_elim hsettl (by simp [hstage])
  · rfl
  · rfl
  · rfl
  · rintro tick' ⟨⟩
    rfl
  · rintro tick' ⟨⟩ haltUntilMs hhalt hexp
    have hle := hleft haltUntilMs hhalt hexp
    simp only [Stage.holds]
    omega
  · refine h.oneProbe.mono ?_ ?_ ?_
    · rfl
    · rfl
    intro sinceMs
    simp only [State.beingLaunched, State.briefed, State.alive, hmem, hstage, elim_some,
      Stage.launches, List.count_cons, beq_iff_eq]
    omega

lemma Inv.started (h : Inv label s) (hmem : s.tick = some tick)
    (hstage : tick.stage = .starting birth) (workerId : Text) :
    Inv label (s.started tick birth workerId) := by
  have hbeg := h.began tick hmem
  have hval : ∀ worker ∈ (s.started tick birth workerId).workers.values, worker ∈ s.workers.values ∨
        worker = ⟨birth.projectLabel, some s.nowMs, .direct tick.atMs⟩ := by
    intro worker hwork
    obtain ⟨id, hlook⟩ := JsMap.mem_values.mp hwork
    simp only [State.started, JsMap.lookup_set] at hlook
    split_ifs at hlook
    · exact .inr (some.inj hlook).symm
    · exact .inl (JsMap.mem_values.mpr ⟨id, hlook⟩)
  constructor
  · intro worker hwork sinceMs hborn
    rcases hval worker hwork with hheld | rfl
    · exact h.born worker hheld sinceMs hborn
    · change sinceMs ≤ s.nowMs
      simpa [Worker.bornSince] using hborn
  · rintro tick' ⟨⟩
    exact hbeg
  · intro worker hwork atMs horig
    rcases hval worker hwork with hheld | rfl
    · have hdir := h.direct worker hheld atMs horig
      refine ⟨hdir.1, ?_⟩
      rintro tick' ⟨⟩
      exact hdir.2 tick hmem
    · obtain rfl := Origin.direct.inj horig
      refine ⟨hbeg, ?_⟩
      rintro tick' ⟨⟩
      exact le_rfl
  · intro hset
    obtain ⟨haltUntilMs, hhalt, hexp, hbef⟩ := h.probe hset
    refine ⟨haltUntilMs, hhalt, hexp, ?_⟩
    rintro tick' ⟨⟩
    exact hbef tick hmem
  · rintro tick' ⟨⟩ haltUntilMs hhalt hexp
    have hle := h.left tick hmem haltUntilMs hhalt hexp
    rw [hstage] at hle
    exact hle
  · intro id worker hlook hlab haltUntilMs hhalt hborn hmark
    simp only [State.started, JsMap.lookup_set] at hlook
    split_ifs at hlook with hid
    · cases hlook
      exact .inr ⟨_, rfl, birth, by rw [hid], hlab⟩
    · rcases h.marks id worker hlook hlab haltUntilMs hhalt hborn hmark with
        hprobe | ⟨tick', htick', birth', hsettli, -⟩
      · exact .inl hprobe
      · obtain rfl := some.inj (hmem.symm.trans htick')
        rw [hstage] at hsettli
        cases hsettli
  · refine h.oneProbe.mono ?_ ?_ ?_
    · rfl
    · rfl
    intro sinceMs
    have hle := JsMap.countP_values_set_le s.workers workerId
      ⟨birth.projectLabel, some s.nowMs, .direct tick.atMs⟩
      fun worker => worker.projectLabel = label && worker.bornSince sinceMs
    simp only [State.beingLaunched, State.started, State.alive, hmem, hstage, elim_some,
      Stage.launches]
    by_cases hlab : birth.projectLabel = label
    · simp only [hlab, if_true] at hle ⊢
      split_ifs at hle
      · omega
      · omega
    · simp only [hlab, decide_false, Bool.false_and, Bool.false_eq_true, if_false] at hle ⊢
      omega

lemma Inv.grantedUnmarked (h : Inv label s) (hmem : s.tick = some tick)
    (hstage : tick.stage = .settling birth workerId)
    (hhealth : (s.granted tick birth workerId).birthHealth label = s.birthHealth label)
    (hfree : birth.projectLabel = label → (s.birthHealth label).halfOpen tick.atMs = false) :
    Inv label (s.granted tick birth workerId) := by
  have hleft := h.left tick hmem
  refine h.ticks hmem ?_ ?_ ?_ hhealth ?_ ?_ ?_
  · rintro id ⟨birth', hsettli, hlab⟩ haltUntilMs hhalt
    rw [hstage] at hsettli
    cases hsettli
    by_contra hle
    have hopen := halfOpen_iff.mpr ⟨haltUntilMs, hhalt, Nat.le_of_not_lt hle⟩
    rw [hfree hlab] at hopen
    cases hopen
  · rfl
  · rfl
  · rintro tick' ⟨⟩
    rfl
  · rintro tick' ⟨⟩ haltUntilMs hhalt hexp
    have hle := hleft haltUntilMs hhalt hexp
    simp only [Stage.holds]
    omega
  · refine h.oneProbe.mono ?_ hhealth ?_
    · rfl
    intro sinceMs
    simp only [State.beingLaunched, State.granted, State.alive, hmem, hstage, elim_some]
    exact le_rfl

lemma Inv.grantedProbe (h : Inv label s) (hmem : s.tick = some tick)
    (hstage : tick.stage = .settling birth workerId)
    (hlab : birth.projectLabel = label) (hopen : (s.birthHealth label).halfOpen tick.atMs) :
    Inv label (s.granted tick birth workerId) := by
  obtain ⟨haltUntilMs, hhalt, hexp⟩ := halfOpen_iff.mp hopen
  have hbeg := h.began tick hmem
  have hleft := h.left tick hmem haltUntilMs hhalt hexp
  rw [hstage, Stage.holds, if_pos hlab] at hleft
  have huns : (s.birthHealth label).probeWorkerId = none := by
    cases hprobe : (s.birthHealth label).probeWorkerId with
    | none => rfl
    | some id =>
      simp only [hprobe, isSome_some, Bool.toNat_true] at hleft
      omega
  have hhealth : (s.granted tick birth workerId).birthHealth label =
      { s.birthHealth label with probeWorkerId := some workerId } := by
    simp [State.granted, hlab, hopen, beginBirthProbe, hhalt]
  have hsame : ((s.granted tick birth workerId).birthHealth label).haltUntilMs =
      (s.birthHealth label).haltUntilMs := by
    rw [hhealth]
  constructor
  · exact h.born
  · rintro tick' ⟨⟩
    exact hbeg
  · intro worker hwork atMs horig
    have hdir := h.direct worker hwork atMs horig
    refine ⟨hdir.1, ?_⟩
    rintro tick' ⟨⟩
    exact hdir.2 tick hmem
  · intro _
    rw [hsame]
    refine ⟨haltUntilMs, hhalt, hexp.trans hbeg, ?_⟩
    rintro tick' ⟨⟩
    exact hexp
  · rintro tick' ⟨⟩ _ - -
    rw [hhealth]
    simp only [isSome_some, Bool.toNat_true, Stage.holds]
    omega
  · intro id worker hlook hwork haltUntilMs' hhalt' hborn hmark
    rw [hsame] at hhalt'
    rw [hhealth]
    rcases h.marks id worker hlook hwork haltUntilMs' hhalt' hborn hmark with
      hprobe | ⟨tick', htick', birth', hsettli, -⟩
    · rw [huns] at hprobe
      cases hprobe
    · obtain rfl := some.inj (hmem.symm.trans htick')
      rw [hstage] at hsettli
      cases hsettli
      exact .inl rfl
  · intro haltUntilMs' hhalt' hexp'
    rw [hsame] at hhalt'
    have hle := h.oneProbe haltUntilMs' hhalt' hexp'
    simp only [State.beingLaunched, State.alive, hmem, hstage, elim_some] at hle
    exact hle

lemma Inv.granted (h : Inv label s) (hmem : s.tick = some tick)
    (hstage : tick.stage = .settling birth workerId) :
    Inv label (s.granted tick birth workerId) := by
  by_cases hlab : birth.projectLabel = label
  · cases hopen : (s.birthHealth label).halfOpen tick.atMs with
    | true => exact h.grantedProbe hmem hstage hlab hopen
    | false =>
      refine h.grantedUnmarked hmem hstage ?_ fun _ => hopen
      simp [State.granted, hlab, hopen]
  · refine h.grantedUnmarked hmem hstage ?_ fun hsame => absurd hsame hlab
    simp only [State.granted]
    split_ifs
    · exact Function.update_of_ne (Ne.symm hlab) _ _
    · rfl

lemma Inv.updates (h : Inv label s) {changed : Text} {health : BirthHealth}
    (hhealth : Closed health s.nowMs) :
    Inv label { s with birthHealth := Function.update s.birthHealth changed health } := by
  by_cases hlab : changed = label
  · refine h.closes ?_ ?_ ?_ ?_
    · rfl
    · rfl
    · intro workerId worker hlook
      exact hlook
    · subst hlab
      simpa using hhealth
  · refine h.world ?_ ?_ ?_ ?_ ?_
    · rfl
    · rfl
    · exact Function.update_of_ne (Ne.symm hlab) _ _
    · intro workerId worker hlook
      exact .inl hlook
    · intro sinceMs
      exact le_rfl

lemma Inv.joins (h : Inv label s) {worker : Worker} (hdir : ∀ atMs, worker.origin ≠ .direct atMs)
    (hborn : ∀ sinceMs, worker.bornSince sinceMs → sinceMs ≤ s.nowMs)
    (hturns : ∀ sinceMs, turns.count label +
      (if worker.projectLabel = label ∧ worker.bornSince sinceMs then 1 else 0) ≤
        s.turns.count label) :
    Inv label { s with turns, workers := s.workers.set workerId worker } := by
  refine h.world ?_ ?_ ?_ ?_ ?_
  · rfl
  · rfl
  · rfl
  · intro id held hlook
    rw [JsMap.lookup_set] at hlook
    split_ifs at hlook
    · cases hlook
      exact .inr ⟨hdir, hborn⟩
    · exact .inl hlook
  · intro sinceMs
    have hle := JsMap.countP_values_set_le s.workers workerId worker
      fun worker => worker.projectLabel = label && worker.bornSince sinceMs
    have hcount := hturns sinceMs
    simp only [Bool.and_eq_true, decide_eq_true_eq] at hle
    simp only [State.alive]
    omega

lemma Inv.leaves (h : Inv label s) {workers : JsMap Text Worker}
    (hturns : turns.count label ≤ s.turns.count label)
    (hworkers : workers = s.workers ∨ ∃ workerId, workers = s.workers.erase workerId) :
    Inv label { s with turns, workers } := by
  refine h.world ?_ ?_ ?_ ?_ ?_
  · rfl
  · rfl
  · rfl
  · intro id worker hlook
    rcases hworkers with rfl | ⟨workerId, rfl⟩
    · exact .inl hlook
    · rw [JsMap.lookup_erase_eq] at hlook
      split_ifs at hlook
      exact .inl hlook
  · intro sinceMs
    apply Nat.add_le_add hturns
    rcases hworkers with rfl | ⟨workerId, rfl⟩
    · exact le_rfl
    · exact JsMap.countP_values_erase_le s.workers workerId _

lemma count_erase_add {ended : Text} (h : ended ∈ turns) (label : Text) :
    (turns.erase ended).count label + (if ended = label then 1 else 0) = turns.count label := by
  have hperm := (List.perm_cons_erase h).count_eq label
  rw [hperm, List.count_cons]
  simp only [beq_iff_eq]

lemma Inv.step (h : Inv label s) {a : Step} (hguard : Marked label s a)
    (hnext : next host s a = some t) : Inv label t := by
  cases a with
  | advance ms =>
    cases hnext
    exact h.advance hguard
  | register _ _ | deregister _ | pollAnswer _ =>
    cases hnext
    refine h.world ?_ ?_ ?_ ?_ ?_
    · rfl
    · rfl
    · rfl
    · intro workerId worker hlook
      exact .inl hlook
    · intro sinceMs
      exact le_rfl
  | driveDemand =>
    simp only [next] at hnext
    split at hnext
    · cases hnext
      exact h
    · cases hnext
      exact h.driveDemand (by assumption)
  | swept =>
    obtain ⟨tick, hmem, hnext⟩ := bind_eq_some_iff.mp hnext
    split_ifs at hnext with hstage
    cases hnext
    exact h.swept hmem hstage
  | polled =>
    obtain ⟨tick, hmem, hnext⟩ := bind_eq_some_iff.mp hnext
    split_ifs at hnext with hstage
    cases hnext
    exact h.planned hmem hstage
  | pollFailed | tickDone =>
    obtain ⟨tick, hmem, hnext⟩ := bind_eq_some_iff.mp hnext
    split_ifs at hnext with hstage
    cases hnext
    refine h.tickEnds hmem ?_ ?_ ?_ ?_ ?_ (.inl rfl)
    · simp [hstage]
    · rfl
    · rfl
    · rfl
    · rfl
  | nextBirth =>
    obtain ⟨tick, hmem, hnext⟩ := bind_eq_some_iff.mp hnext
    split_ifs at hnext with hstage
    cases hnext
    exact h.nextBirth hmem hstage hguard
  | briefed =>
    obtain ⟨tick, hmem, hnext⟩ := bind_eq_some_iff.mp hnext
    split at hnext
    · next birth hstage =>
        cases hnext
        exact h.briefed hmem hstage
    · cases hnext
  | started workerId =>
    obtain ⟨tick, hmem, hnext⟩ := bind_eq_some_iff.mp hnext
    split at hnext
    · next birth hstage =>
        cases hnext
        exact h.started hmem hstage workerId
    · cases hnext
  | granted =>
    obtain ⟨tick, hmem, hnext⟩ := bind_eq_some_iff.mp hnext
    split at hnext
    · next birth workerId hstage =>
        cases hnext
        exact h.granted hmem hstage
    · cases hnext
  | refused retryNextCycle =>
    obtain ⟨tick, hmem, hnext⟩ := bind_eq_some_iff.mp hnext
    have hidle : ∀ birth workerId, tick.stage ≠ .settling birth workerId := by
      intro birth workerId hstage
      rw [hstage] at hnext
      cases hnext
    split at hnext
    · cases hnext
      exact h.tickEnds hmem hidle rfl rfl rfl rfl (.inr rfl)
    · cases hnext
      exact h.tickEnds hmem hidle rfl rfl rfl rfl (.inr rfl)
    · cases hnext
  | turnBorn ended workerId =>
    simp only [next] at hnext
    split_ifs at hnext with hturn
    cases hnext
    apply h.joins
    · simp
    · intro sinceMs hborn
      simpa [Worker.bornSince] using hborn
    · intro sinceMs
      have hcount := count_erase_add hturn label
      split_ifs at hcount ⊢
      all_goals first | omega | simp_all
  | turnFailed ended =>
    simp only [next] at hnext
    split_ifs at hnext with hturn
    cases hnext
    have hcount := count_erase_add hturn label
    exact h.leaves (by omega) (.inl rfl)
  | otherBorn workerId born startedAtMs =>
    cases hnext
    apply h.joins
    · simp
    · simp [Worker.bornSince]
    · simp [Worker.bornSince]
  | death workerId outcome =>
    obtain ⟨worker, -, rfl⟩ := map_eq_some_iff.mp hnext
    have hgone : Inv label { s with workers := s.workers.erase workerId } :=
      h.leaves le_rfl (.inr ⟨workerId, rfl⟩)
    exact hgone.updates (closed_fold _ _ _ _)
  | deathAgain worker outcome =>
    cases hnext
    exact h.updates (closed_fold _ _ _ _)
  | resetProjectBirthBreaker reset =>
    cases hnext
    exact h.updates (closed_empty _)

lemma Inv.of_start (h : (demandLoop host).start s) : Inv label s := by
  obtain ⟨hhealth, hturns, htick, hoth⟩ := h
  have hempty : s.birthHealth label = emptyBirthHealth := by rw [hhealth]
  have hborn : ∀ worker ∈ s.workers.values, ∀ sinceMs, ¬worker.bornSince sinceMs := by
    intro worker hwork sinceMs
    simp [Worker.bornSince, hoth worker hwork]
  constructor
  · intro worker hwork sinceMs hsince
    exact absurd hsince (hborn worker hwork sinceMs)
  · rw [htick]
    exact nofun
  · intro worker hwork atMs horig
    rw [hoth worker hwork] at horig
    cases horig
  · rw [hempty]
    exact nofun
  · rw [htick]
    exact nofun
  · rw [hempty]
    exact nofun
  · rw [OneProbe, hempty]
    exact nofun

lemma Inv.of_reach (h : (demandLoop host).Reach (Marked label) s) : Inv label s :=
  Machine.Reach.inv (Inv label) (fun _ => Inv.of_start) (fun _ _ _ hs hok hn => hs.step hok hn) h

lemma not_oneProbe_of_step {a : Step} (hguard : ¬Marked label s a)
    (hnext : next host s a = some t) : ¬OneProbe label t := by
  intro hone
  apply hguard
  intro haltUntilMs hhalt
  cases a with
  | advance ms =>
    intro _ hexp
    cases hnext
    exact (Nat.le_add_right _ _).trans (hone haltUntilMs hhalt hexp)
  | nextBirth =>
    intro hupc hexp
    obtain ⟨tick, hmem, hnext⟩ := bind_eq_some_iff.mp hnext
    split_ifs at hnext with hstage
    cases hnext
    cases hbirths : tick.births with
    | nil => simp [State.upcoming, hmem, hbirths] at hupc
    | cons birth births =>
      have hlab : birth.projectLabel = label := by
        simpa [State.upcoming, hmem, hbirths] using hupc
      have htwo : s.turns.count label + 1 + s.alive label haltUntilMs ≤ 1 := by
        simp only [State.nextBirth, hbirths] at hone
        have hle := hone haltUntilMs hhalt hexp
        simp only [State.beingLaunched, State.alive, elim_some] at hle
        split_ifs at hle
        all_goals simpa [Stage.launches, hlab, State.alive] using hle
      have hturns : s.turns.count label = 0 := by omega
      have hnone : s.alive label haltUntilMs = 0 := by omega
      refine ⟨List.count_eq_zero.mp hturns, fun worker hwork hsame => ?_⟩
      have hcounted := List.countP_eq_zero.mp hnone worker hwork
      cases hborn : worker.bornSince haltUntilMs with
      | false => simp [Worker.unmarked, hborn]
      | true => simp [hsame, hborn] at hcounted
  | _ => trivial

/-- In a run that takes up no birth next to an unmarked Worker there is one probe, and
exactly the steps of such a run keep it so. -/
theorem one_probe (h : (demandLoop host).Reach (Marked label) s) : OneProbe label s ∧
      ∀ a t, next host s a = some t → (OneProbe label t ↔ Marked label s a) := by
  have hinv := Inv.of_reach h
  refine ⟨hinv.oneProbe, fun a t hnext => ⟨fun hone => ?_, fun hguard => ?_⟩⟩
  · by_contra hguard
    exact not_oneProbe_of_step hguard hnext hone
  · exact (hinv.step hguard hnext).oneProbe

section

def controlPlane : Host := ⟨fun _ _ => true, true, 60000⟩

def atStart : State := ⟨0, ∅, [], fun _ => emptyBirthHealth, none, ∅, [], none⟩

lemma start_atStart : (demandLoop controlPlane).start atStart :=
  ⟨rfl, rfl, rfl, fun _ hwork => nomatch hwork⟩

def tickOf (birth : List Step) : List Step :=
  [Step.driveDemand, .swept, .polled, .nextBirth] ++ birth ++ [Step.nextBirth, .tickDone]

def expired (prompt : Option Text) (birth : List Step) : List Step :=
  [Step.register ['p'] { target := 2, prompt }, .pollAnswer [⟨['p'], some 1, none⟩]] ++
    (List.replicate 3 (tickOf birth ++ [Step.death ['a'] .unreported])).flatten ++
    [Step.advance birthHaltMs]

/-- The breaker of the project, the time, and how many Workers were born since then. -/
def breaker (s : State) : Option ℕ × Option Text × ℕ × ℕ :=
  ((s.birthHealth ['p']).haltUntilMs, (s.birthHealth ['p']).probeWorkerId, s.nowMs,
    s.alive ['p'] birthHaltMs)

theorem one_probe_of_direct :
    ∃ s, (demandLoop controlPlane).execIf (fun s a => decide (Marked ['p'] s a)) atStart
        (expired none [.started ['a'], .granted] ++ tickOf [.started ['a'], .granted] ++
          [.driveDemand, .swept, .nextBirth, .tickDone]) = some s ∧
      breaker s = (some birthHaltMs, some ['a'], birthHaltMs, 1) ∧ OneProbe ['p'] s := by
  have hrun : ((demandLoop controlPlane).execIf (fun s a => decide (Marked ['p'] s a)) atStart
      (expired none [.started ['a'], .granted] ++ tickOf [.started ['a'], .granted] ++
        [.driveDemand, .swept, .nextBirth, .tickDone])).map breaker =
          some (some birthHaltMs, some ['a'], birthHaltMs, 1) := by
    decide +kernel
  obtain ⟨s, hs, hbreak⟩ := map_eq_some_iff.mp hrun
  have hmark := (Machine.run_of_execIf hs).mono fun s a h => of_decide_eq_true h
  exact ⟨s, hs, hbreak, (one_probe ⟨atStart, _, start_atStart, hmark⟩).1⟩

/-- After the halt the tick sends a second probe beside the first. -/
theorem two_probes :
    ∃ s, (demandLoop controlPlane).Reach anyStep s ∧ ¬OneProbe ['p'] s ∧
      breaker s = (some birthHaltMs, none, birthHaltMs, 2) := by
  have hrun : ((demandLoop controlPlane).exec atStart
      (expired (some ['g', 'o']) [.briefed, .turnBorn ['p'] ['a']] ++
        tickOf [.briefed, .turnBorn ['p'] ['a']] ++
        tickOf [.briefed, .turnBorn ['p'] ['b']])).map breaker =
          some (some birthHaltMs, none, birthHaltMs, 2) := by
    decide +kernel
  obtain ⟨s, hs, hbreak⟩ := map_eq_some_iff.mp hrun
  refine ⟨s, Machine.reach_of_exec start_atStart hs, ?_, hbreak⟩
  intro hone
  have hhalt : birthHaltMs ∈ (s.birthHealth ['p']).haltUntilMs := congrArg Prod.fst hbreak
  have hnow : s.nowMs = birthHaltMs := congrArg (fun view => view.2.2.1) hbreak
  have halive : s.alive ['p'] birthHaltMs = 2 := congrArg (fun view => view.2.2.2) hbreak
  have hle := hone birthHaltMs hhalt hnow.ge
  omega

end
end Redskilled.Daemon.Demand
