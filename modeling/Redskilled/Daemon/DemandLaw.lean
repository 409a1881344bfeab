import Mathlib.Data.List.Nodup
import Redskilled.Foundation.RoundRobin
import Redskilled.Daemon.DemandPlan

/-!
# What a plan gives each project

The plan serves the projects in rounds, so what one project gets can be read apart from
the others: as many births as its intent wants, no more than its target and its depth
leave room for, none at a closed gate and one behind an expired halt. While a project
waits for births, no other is more than one ahead of it.
-/
namespace Redskilled.Daemon.Demand
open Foundation List

lemma getD_pushRounds (rounds : List (List Birth)) (births : List Birth) (k : ℕ) :
    (pushRounds rounds births)[k]?.getD [] = rounds[k]?.getD [] ++ births[k]?.toList := by
  induction rounds, births using pushRounds.induct generalizing k with
  | case1 rounds => simp [pushRounds]
  | case2 birth births ih =>
    cases k with
    | zero => simp [pushRounds]
    | succ k => simpa [pushRounds] using ih k
  | case3 round rounds birth births ih =>
    cases k with
    | zero => simp [pushRounds]
    | succ k => simpa [pushRounds] using ih k

variable {labelLe : Text → Text → Bool} {input : PlanInput}

def queueOf (input : PlanInput) (project : Project) : List Birth :=
  projectBirths project (planProject input project)

lemma rounds_getD (input : PlanInput) (projects : List Project) (rounds : List (List Birth)) (k : ℕ) :
    (projects.foldl (fun rounds project => pushRounds rounds (queueOf input project))
        rounds)[k]?.getD [] =
      rounds[k]?.getD [] ++ roundAt (projects.map (queueOf input)) k := by
  induction projects generalizing rounds with
  | nil => simp [roundAt]
  | cons project projects ih =>
    rw [foldl_cons, ih, getD_pushRounds, append_assoc, map_cons, roundAt_cons]

lemma births_rounds (labelLe : Text → Text → Bool) (input : PlanInput) :
    ∃ (rounds : List (List Birth)) (projects : List Project), projects.Perm input.projects ∧
      (planHostDemand labelLe input).births = rounds.flatten ∧
      IsRounds rounds (projects.map (queueOf input)) := by
  refine ⟨_, _, mergeSort_perm input.projects fun a b =>
    labelLe a.projectLabel b.projectLabel, rfl, ?_⟩
  intro k
  have hrounds := rounds_getD input (input.projects.mergeSort fun a b =>
    labelLe a.projectLabel b.projectLabel) [] k
  rwa [getElem?_nil, Option.getD_none, nil_append] at hrounds

variable {project : Project}

lemma mem_queueOf {birth : Birth} (h : birth ∈ queueOf input project) :
    birth.projectLabel = project.projectLabel := by
  obtain ⟨index, -, rfl⟩ := mem_map.mp h
  rfl

lemma own_queueOf {projects : List Project}
    (hlabels : (projects.map Project.projectLabel).Nodup) (hmem : project ∈ projects) :
    OwnQueue (fun birth => birth.projectLabel = project.projectLabel) (queueOf input project)
      (projects.map (queueOf input)) := by
  obtain ⟨before, after, rfl⟩ := append_of_mem hmem
  refine ⟨before.map (queueOf input), after.map (queueOf input), by simp, ?_, ?_⟩
  · intro birth hbirth
    simpa using mem_queueOf hbirth
  · intro queue hqueue birth hbirth
    rw [← map_append] at hqueue
    obtain ⟨other, hoth, rfl⟩ := mem_map.mp hqueue
    rw [decide_eq_false_iff_not, mem_queueOf hbirth]
    intro hsame
    rw [map_append, map_cons, nodup_middle, nodup_cons] at hlabels
    apply hlabels.1
    rw [← map_append, ← hsame]
    exact mem_map_of_mem hoth

lemma births_of_project
    (hlabels : (input.projects.map Project.projectLabel).Nodup) (hmem : project ∈ input.projects) :
    (planHostDemand labelLe input).births.filter
      (fun birth => birth.projectLabel = project.projectLabel) = queueOf input project := by
  obtain ⟨rounds, projects, hperm, hbirths, hrounds⟩ := births_rounds labelLe input
  rw [hbirths]
  exact hrounds.filter_flatten
    (own_queueOf ((hperm.map _).nodup_iff.mpr hlabels) (hperm.mem_iff.mpr hmem))

@[simp] lemma length_queueOf (project : Project) :
    (queueOf input project).length = (planProject input project).wanted := by
  simp [queueOf, projectBirths]

lemma birthsOf_project
    (hlabels : (input.projects.map Project.projectLabel).Nodup) (hmem : project ∈ input.projects) :
    birthsOf project.projectLabel (planHostDemand labelLe input).births =
      (planProject input project).wanted := by
  rw [birthsOf, countP_eq_length_filter, births_of_project hlabels hmem, length_queueOf]

def pastHarvest (project : Project) (nowMs : ℕ) : Prop :=
  ∃ budgetMs harvestFraction startedAtMs,
    project.harvest = some ⟨some budgetMs, harvestFraction, some startedAtMs⟩ ∧
      startedAtMs + budgetMs * harvestFraction.getD defaultHarvestFraction ≤ nowMs

inductive Barred (input : PlanInput) (project : Project) : Prop
  | uncounted (h : ∀ depth, input.queue project.projectLabel ≠ some (some depth))
  | drained (h : input.queue project.projectLabel = some (some 0))
  | backingOff (backoffUntilMs : ℕ) (h : input.backoffUntilMs = some backoffUntilMs)
      (hnow : input.nowMs < backoffUntilMs)
  | halted (haltUntilMs : ℕ)
      (h : ((input.birthHealth project.projectLabel).haltUntilMs <|>
        input.birthHaltUntilMs project.projectLabel) = some haltUntilMs)
      (hnow : input.nowMs < haltUntilMs)
  | probing (workerId : Text)
      (h : (input.birthHealth project.projectLabel).probeWorkerId = some workerId)
  | harvesting (h : pastHarvest project input.nowMs)

lemma harvestAdmits_false {nowMs : ℕ} (h : pastHarvest project nowMs) :
    harvestAdmits project.harvest nowMs = false := by
  obtain ⟨budgetMs, harvestFraction, startedAtMs, hharv, hspent⟩ := h
  simp [harvestAdmits, hharv, hspent]

lemma join_of_uncounted
    (h : ∀ depth, input.queue project.projectLabel ≠ some (some depth)) :
    (input.queue project.projectLabel).join = none := by
  cases hqueue : input.queue project.projectLabel with
  | none => rfl
  | some counted =>
    cases counted with
    | none => rfl
    | some depth => exact absurd hqueue (h depth)

lemma wanted_of_barred (h : Barred input project) : (planProject input project).wanted = 0 := by
  by_contra hwant
  revert hwant
  unfold planProject
  dsimp only
  split_ifs with hharv hback hhalt hprobe hdepth hzero hroom hhalf
  all_goals first | (intro hwant; exact absurd rfl hwant) | skip
  all_goals
    intro _
    cases h with
    | uncounted h => exact hdepth (join_of_uncounted h)
    | drained h => exact hzero (by rw [h]; rfl)
    | backingOff backoffUntilMs h hnow => exact hback (by simp [h, hnow])
    | halted haltUntilMs h hnow => exact hhalt (by simp [h, hnow])
    | probing workerId h => exact hprobe (by simp [h])
    | harvesting h => exact hharv (by simp [harvestAdmits_false h])

lemma wanted_le (project : Project) : (planProject input project).wanted ≤
      min (project.target - input.live project.projectLabel)
        ((input.queue project.projectLabel).join.getD 0) := by
  unfold planProject
  dsimp only
  split_ifs with _ _ _ _ _ _ hroom
  all_goals first | exact Nat.zero_le _ | skip
  · exact Nat.one_le_iff_ne_zero.mpr hroom
  · exact le_rfl

lemma wanted_of_halfOpen {haltUntilMs : ℕ}
    (h : (input.birthHealth project.projectLabel).haltUntilMs = some haltUntilMs) :
    (planProject input project).wanted ≤ 1 := by
  have hprobe := @wanted_add_probe_le input project haltUntilMs h
  omega

lemma getElem?_range {α : Type*} (items : List α) (wanted : ℕ) :
    (List.range wanted).filterMap (fun index => items[index]?) = items.take wanted := by
  induction wanted with
  | zero => simp
  | succ wanted ih =>
    rw [range_succ, filterMap_append, ih, take_add_one]
    cases hget : items[wanted]? <;> simp [hget]

lemma items_of_queue (project : Project) : (queueOf input project).filterMap Birth.workItem =
      (project.items.drop (planProject input project).live).take
        (planProject input project).wanted := by
  rw [queueOf, projectBirths, filterMap_map]
  exact getElem?_range _ _

/-- What a plan gives one project. -/
structure Served (labelLe : Text → Text → Bool) (input : PlanInput) (project : Project) : Prop where
  exact : ∀ intent ∈ (planHostDemand labelLe input).intents,
    intent.projectLabel = project.projectLabel →
      birthsOf project.projectLabel (planHostDemand labelLe input).births = intent.wanted
  asked : ∃ intent ∈ (planHostDemand labelLe input).intents,
    intent.projectLabel = project.projectLabel
  within : birthsOf project.projectLabel (planHostDemand labelLe input).births ≤
    project.target - input.live project.projectLabel
  counted : ∀ depth, input.queue project.projectLabel = some (some depth) →
    birthsOf project.projectLabel (planHostDemand labelLe input).births ≤ depth
  gated : Barred input project →
    birthsOf project.projectLabel (planHostDemand labelLe input).births = 0
  probed : (∃ haltUntilMs, (input.birthHealth project.projectLabel).haltUntilMs =
      some haltUntilMs ∧ haltUntilMs ≤ input.nowMs) →
    birthsOf project.projectLabel (planHostDemand labelLe input).births ≤ 1
  unshared : project.items.Nodup → (((planHostDemand labelLe input).births.filter
      (fun birth => birth.projectLabel = project.projectLabel)).filterMap Birth.workItem).Nodup
  waited : ∀ other ∈ input.projects, ∀ served,
    served <+: (planHostDemand labelLe input).births → birthsOf project.projectLabel served <
        birthsOf project.projectLabel (planHostDemand labelLe input).births →
      birthsOf other.projectLabel served ≤ birthsOf project.projectLabel served + 1

lemma label_planProject (project : Project) :
    (planProject input project).projectLabel = project.projectLabel := by
  unfold planProject
  dsimp only
  split_ifs <;> rfl

lemma mem_intents {intent : Intent} : intent ∈ (planHostDemand labelLe input).intents ↔
      ∃ project ∈ input.projects, planProject input project = intent := by
  rw [planHostDemand, mem_map]
  exact exists_congr fun project => and_congr_left' mem_mergeSort

lemma eq_of_label {other : Project}
    (hlabels : (input.projects.map Project.projectLabel).Nodup) (hmem : project ∈ input.projects)
    (hoth : other ∈ input.projects) (h : other.projectLabel = project.projectLabel) :
    other = project :=
  inj_on_of_nodup_map hlabels hoth hmem h

/-- In rounds, no project runs more than one birth ahead of one that still waits. -/
lemma births_fair {other : Project} {served : List Birth}
    (hlabels : (input.projects.map Project.projectLabel).Nodup) (hmem : project ∈ input.projects)
    (hoth : other ∈ input.projects)
    (hserv : served <+: (planHostDemand labelLe input).births)
    (hleft : birthsOf project.projectLabel served <
      birthsOf project.projectLabel (planHostDemand labelLe input).births) :
    birthsOf other.projectLabel served ≤ birthsOf project.projectLabel served + 1 := by
  rw [birthsOf_project hlabels hmem, ← length_queueOf] at hleft
  obtain ⟨rounds, projects, hperm, hbirths, hrounds⟩ := births_rounds labelLe input
  have hnod : (projects.map Project.projectLabel).Nodup := (hperm.map _).nodup_iff.mpr hlabels
  rw [hbirths] at hserv
  exact hrounds.fair (own_queueOf hnod (hperm.mem_iff.mpr hoth))
    (own_queueOf hnod (hperm.mem_iff.mpr hmem)) hserv hleft

def wide : Project := { projectLabel := ['a'], target := 3, items := [['1'], ['2'], ['3']] }

def narrow : Project := { projectLabel := ['b'], target := 1, items := [['7']] }

def pair : PlanInput where
  projects := [wide, narrow]
  queue label := if label = ['a'] then some (some 3) else some (some 1)
  live label := if label = ['a'] then 1 else 0
  nowMs := 1000
  backoffUntilMs := none
  birthHaltUntilMs _ := none
  birthHealth _ := {}

end Redskilled.Daemon.Demand
