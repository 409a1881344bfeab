import Mathlib.Data.List.Count
import Mathlib.Algebra.Order.Ring.Rat
import Mathlib.Algebra.GroupWithZero.Nat
import Redskilled.Foundation.JsText

/-!
# The demand plan and the birth breaker

What each registered project may ask for in one tick: as many Workers as its target
and its counted queue leave room for, unless a declared budget is spent, the host is
backing off, or the project's birth breaker is open. Three Workers in a row that die
early open the breaker for ten minutes. When they are over it is half-open, and the
plan admits one birth, the probe, until a death or its survival says which way it
goes.

Times are milliseconds.
-/
namespace Redskilled.Daemon.Demand
open Foundation List

def shortLifeMs : ℕ := 60000

def shortLifeStreakLimit : ℕ := 3

def birthHaltMs : ℕ := 600000

inductive BirthOutcome where
  | noEligibleWork | workReported | unreported
  deriving DecidableEq

structure BirthHealth where
  shortLifeStreak : ℕ := 0
  haltUntilMs : Option ℕ := none
  openedAtMs : Option ℕ := none
  probeWorkerId : Option Text := none
  lossOutcome : Option BirthOutcome := none

def emptyBirthHealth : BirthHealth := {}

def foldWorkerDeath (health : BirthHealth) (lifetimeMs nowMs : ℕ) (outcome : BirthOutcome) :
    BirthHealth :=
  if outcome ≠ .unreported then emptyBirthHealth
  else if shortLifeMs ≤ lifetimeMs then emptyBirthHealth
  else
    let streak := health.shortLifeStreak + 1
    let wasLatched := health.haltUntilMs.isSome || health.probeWorkerId.isSome
    if !wasLatched && streak < shortLifeStreakLimit then
      { shortLifeStreak := streak, lossOutcome := some outcome }
    else
      { shortLifeStreak := streak
        haltUntilMs := some (nowMs + birthHaltMs)
        openedAtMs := some nowMs
        lossOutcome := some outcome }

/-- A lifetime that cannot be read counts as a long one. -/
def foldProjectBirthHealth (before : BirthHealth) (lifetimeMs : Option ℕ) (nowMs : ℕ)
    (outcome : BirthOutcome) : BirthHealth :=
  match lifetimeMs with
  | none => emptyBirthHealth
  | some lifetimeMs => foldWorkerDeath before lifetimeMs nowMs outcome

def beginBirthProbe (health : BirthHealth) (workerId : Text) : BirthHealth :=
  if health.haltUntilMs.isNone then health else { health with probeWorkerId := some workerId }

def resetBirthHealth : BirthHealth := emptyBirthHealth

def BirthHealth.halfOpen (health : BirthHealth) (nowMs : ℕ) : Bool :=
  health.haltUntilMs.any (· ≤ nowMs)

lemma halfOpen_iff {health : BirthHealth} {nowMs : ℕ} :
    health.halfOpen nowMs ↔ ∃ haltUntilMs, health.haltUntilMs = some haltUntilMs ∧
      haltUntilMs ≤ nowMs := by
  cases h : health.haltUntilMs with
  | none => simp [BirthHealth.halfOpen, h]
  | some haltUntilMs => simp [BirthHealth.halfOpen, h]

lemma fold_spec (before : BirthHealth) (lifetimeMs : Option ℕ) (nowMs : ℕ)
    (outcome : BirthOutcome) :
    (foldProjectBirthHealth before lifetimeMs nowMs outcome).probeWorkerId = none ∧
      ((foldProjectBirthHealth before lifetimeMs nowMs outcome).haltUntilMs = none ∨
        (foldProjectBirthHealth before lifetimeMs nowMs outcome).haltUntilMs =
          some (nowMs + birthHaltMs)) := by
  cases lifetimeMs with
  | none => exact ⟨rfl, Or.inl rfl⟩
  | some lifetimeMs =>
    simp only [foldProjectBirthHealth, foldWorkerDeath]
    split_ifs
    · exact ⟨rfl, Or.inl rfl⟩
    · exact ⟨rfl, Or.inl rfl⟩
    · exact ⟨rfl, Or.inl rfl⟩
    · exact ⟨rfl, Or.inr rfl⟩

lemma birthHaltMs_pos : 0 < birthHaltMs := by decide

lemma fold_not_halfOpen (before : BirthHealth) (lifetimeMs : Option ℕ) (nowMs : ℕ)
    (outcome : BirthOutcome) :
    (foldProjectBirthHealth before lifetimeMs nowMs outcome).halfOpen nowMs = false := by
  have hpos := birthHaltMs_pos
  obtain ⟨-, hnone | harm⟩ := fold_spec before lifetimeMs nowMs outcome
  · rw [BirthHealth.halfOpen, hnone, Option.any_none]
  · rw [BirthHealth.halfOpen, harm, Option.any_some, decide_eq_false_iff_not]
    omega

def defaultHarvestFraction : ℚ := 7 / 10

/-- A budget that the operator declared, and when it started; an unreadable start is
`none`. -/
structure HarvestWatch where
  budgetMs : Option ℚ
  harvestFraction : Option ℚ
  startedAtMs : Option ℚ
  deriving DecidableEq

/-- `decideHarvest(watch, nowMs).admits`. -/
def harvestAdmits (watch : Option HarvestWatch) (nowMs : ℕ) : Bool :=
  match watch with
  | some ⟨some budgetMs, harvestFraction, some startedAtMs⟩ =>
    !decide (startedAtMs + budgetMs * harvestFraction.getD defaultHarvestFraction ≤ nowMs)
  | _ => true

structure Project where
  projectLabel : Text
  argv : List Text := []
  workspacePath : Text := []
  target : ℕ
  items : List Text := []
  harvest : Option HarvestWatch := none
  deriving DecidableEq

inductive Outcome where
  | asking | atTarget | queueDrained | queueUnknown | backingOff | birthHalted | halfOpenProbe
  | harvestDeadline

structure Intent where
  projectLabel : Text
  outcome : Outcome
  queueDepth : Option ℕ
  target : ℕ
  live : ℕ
  wanted : ℕ

structure Birth where
  projectLabel : Text
  index : ℕ
  argv : List Text
  workspacePath : Text
  workItem : Option Text
  deriving DecidableEq

structure PlanInput where
  projects : List Project
  /-- The depth by label: `none` is a project no poll has counted, `some none` one
  whose poll produced no depth. -/
  queue : Text → Option (Option ℕ)
  live : Text → ℕ
  nowMs : ℕ
  backoffUntilMs : Option ℕ
  birthHaltUntilMs : Text → Option ℕ
  birthHealth : Text → BirthHealth

def planProject (input : PlanInput) (project : Project) : Intent :=
  let label := project.projectLabel
  let live := input.live label
  let depth := (input.queue label).join
  let health := input.birthHealth label
  let haltUntilMs := health.haltUntilMs <|> input.birthHaltUntilMs label
  let wanted := min (project.target - live) (depth.getD 0)
  let intent (outcome : Outcome) (wanted : ℕ) : Intent :=
    ⟨label, outcome, depth, project.target, live, wanted⟩
  if !harvestAdmits project.harvest input.nowMs then intent .harvestDeadline 0
  else if input.backoffUntilMs.any (input.nowMs < ·) then intent .backingOff 0
  else if haltUntilMs.any (input.nowMs < ·) then intent .birthHalted 0
  else if health.probeWorkerId.isSome then intent .halfOpenProbe 0
  else if depth = none then intent .queueUnknown 0
  else if depth = some 0 then intent .queueDrained 0
  else if wanted = 0 then intent .atTarget 0
  else if health.halfOpen input.nowMs then intent .halfOpenProbe 1
  else intent .asking wanted

def projectBirths (project : Project) (intent : Intent) : List Birth :=
  (List.range intent.wanted).map fun index =>
    { projectLabel := project.projectLabel
      index := intent.live + index
      argv := project.argv
      workspacePath := project.workspacePath
      workItem := (project.items.drop intent.live)[index]? }

def pushRounds : List (List Birth) → List Birth → List (List Birth)
  | rounds, [] => rounds
  | [], birth :: births => [birth] :: pushRounds [] births
  | round :: rounds, birth :: births => (round ++ [birth]) :: pushRounds rounds births

structure Plan where
  intents : List Intent
  births : List Birth

/-- Births are spread one apiece before a second. The projects stand in the order of
their labels. -/
def planHostDemand (labelLe : Text → Text → Bool) (input : PlanInput) : Plan :=
  let projects := input.projects.mergeSort fun a b => labelLe a.projectLabel b.projectLabel
  { intents := projects.map (planProject input)
    births := (projects.foldl
      (fun rounds project => pushRounds rounds (projectBirths project (planProject input project)))
      []).flatten }

def birthsOf (label : Text) (births : List Birth) : ℕ := births.countP (·.projectLabel = label)

lemma birthsOf_pushRounds (label : Text) (rounds : List (List Birth)) (births : List Birth) :
    birthsOf label (pushRounds rounds births).flatten =
      birthsOf label rounds.flatten + birthsOf label births := by
  induction rounds, births using pushRounds.induct with
  | case1 rounds => simp [pushRounds, birthsOf]
  | case2 birth births ih =>
    simp only [birthsOf, pushRounds, flatten_cons, flatten_nil, countP_append,
      countP_cons, countP_nil] at ih ⊢
    omega
  | case3 round rounds birth births ih =>
    simp only [birthsOf, pushRounds, flatten_cons, countP_append, countP_cons, countP_nil] at ih ⊢
    omega

lemma birthsOf_projectBirths (label : Text) (project : Project) (intent : Intent) :
    birthsOf label (projectBirths project intent) =
      if project.projectLabel = label then intent.wanted else 0 := by
  simp only [birthsOf, projectBirths, countP_map]
  split_ifs with h
  · rw [countP_eq_length.mpr (by simp [h]), length_range]
  · simp [h]

variable {labelLe : Text → Text → Bool} {input : PlanInput}

lemma birthsOf_rounds (label : Text) (projects : List Project) (rounds : List (List Birth)) :
    birthsOf label (projects.foldl (fun rounds project =>
        pushRounds rounds (projectBirths project (planProject input project))) rounds).flatten =
      birthsOf label rounds.flatten + (projects.map fun project =>
        if project.projectLabel = label then (planProject input project).wanted else 0).sum := by
  induction projects generalizing rounds with
  | nil => simp
  | cons project projects ih =>
    rw [foldl_cons, ih, birthsOf_pushRounds, birthsOf_projectBirths, map_cons,
      sum_cons, Nat.add_assoc]

lemma wanted_add_probe_le {project : Project} {haltUntilMs : ℕ}
    (h : (input.birthHealth project.projectLabel).haltUntilMs = some haltUntilMs) :
    (planProject input project).wanted +
      (input.birthHealth project.projectLabel).probeWorkerId.isSome.toNat ≤ 1 := by
  have hprobe := Bool.toNat_le (input.birthHealth project.projectLabel).probeWorkerId.isSome
  unfold planProject
  dsimp only
  split_ifs with _ _ hhalt hset _ _ _ hhalf
  · rwa [Nat.zero_add]
  · rwa [Nat.zero_add]
  · rwa [Nat.zero_add]
  · rwa [Nat.zero_add]
  · rwa [Nat.zero_add]
  · rwa [Nat.zero_add]
  · rwa [Nat.zero_add]
  · simp [hset]
  · have hexp : haltUntilMs ≤ input.nowMs := by simpa [h] using hhalt
    exact absurd (halfOpen_iff.mpr ⟨haltUntilMs, h, hexp⟩) hhalf

lemma sum_of_one {projects : List Project} {label : Text} {wanted : Project → ℕ} {bound : ℕ}
    (hlabels : (projects.map Project.projectLabel).Nodup)
    (hbound : ∀ project ∈ projects, project.projectLabel = label → wanted project ≤ bound) :
    (projects.map fun project => if project.projectLabel = label then wanted project else 0).sum
      ≤ bound := by
  induction projects with
  | nil => exact Nat.zero_le _
  | cons project projects ih =>
    rw [map_cons, nodup_cons] at hlabels
    rw [map_cons, sum_cons]
    split_ifs with hlab
    · have hrest : (projects.map fun project =>
          if project.projectLabel = label then wanted project else 0).sum = 0 := by
        apply List.sum_eq_zero_iff_forall_eq_nat.mpr
        intro n hn
        obtain ⟨other, hoth, rfl⟩ := List.mem_map.mp hn
        rw [if_neg]
        intro hsame
        exact hlabels.1 (mem_map.mpr ⟨other, hoth, hsame.trans hlab.symm⟩)
      rw [hrest]
      exact hbound project mem_cons_self hlab
    · rw [Nat.zero_add]
      exact ih hlabels.2 fun other hoth => hbound other (mem_cons_of_mem _ hoth)

lemma birthsOf_plan_le {label : Text} {bound : ℕ}
    (hlabels : (input.projects.map Project.projectLabel).Nodup)
    (hbound : ∀ project ∈ input.projects, project.projectLabel = label →
      (planProject input project).wanted ≤ bound) :
    birthsOf label (planHostDemand labelLe input).births ≤ bound := by
  have hperm : (input.projects.mergeSort fun a b =>
      labelLe a.projectLabel b.projectLabel).Perm input.projects := mergeSort_perm _ _
  simp only [planHostDemand]
  rw [birthsOf_rounds, birthsOf, flatten_nil, countP_nil, Nat.zero_add]
  apply sum_of_one ((hperm.map _).nodup_iff.mpr hlabels)
  intro project hproj
  exact hbound project (hperm.mem_iff.mp hproj)

lemma plan_of_halt {label : Text} {haltUntilMs : ℕ}
    (hlabels : (input.projects.map Project.projectLabel).Nodup)
    (h : (input.birthHealth label).haltUntilMs = some haltUntilMs) :
    birthsOf label (planHostDemand labelLe input).births +
      (input.birthHealth label).probeWorkerId.isSome.toNat ≤ 1 := by
  have hprobe := Bool.toNat_le (input.birthHealth label).probeWorkerId.isSome
  have hbirths : birthsOf label (planHostDemand labelLe input).births ≤
      1 - (input.birthHealth label).probeWorkerId.isSome.toNat := by
    apply birthsOf_plan_le hlabels
    rintro project - rfl
    have hwant := wanted_add_probe_le h
    omega
  omega

end Redskilled.Daemon.Demand
