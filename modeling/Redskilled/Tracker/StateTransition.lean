import Mathlib.Data.List.Sort
import Redskilled.Foundation.NumericText

/-!
# State transitions

An issue carries one state role. A caller names the transition it wants; the planner
works out the labels to add and to remove, replays them, and refuses a mutation that
would leave no role or two.

The replay counts roles and nothing else. Two families of labels are told by how they
start: the blocked reasons and the dependency edges. A label may be in both, and then
the rule for the reasons takes an edge away. And a park may give as its reason the
dependency wait, which is itself a role: the issue that has it loses it and is parked
for no reason.

The issues of a dependency block are numbers that are only ever printed, so any type
with a printing will do.
-/
namespace Redskilled.Tracker
open Foundation List Option

structure StateTransitionLabels where
  ready : Text
  running : Text
  human : Text
  needsTriage : Text
  needsInfo : Text
  quarantine : Text
  dependencyBlocked : Text
  blockedPrefix : Text
  reqPrefix : Text
  hitlTypes : List Text

inductive StateTransition (ν : Type) where
  | queue
  | park (reason : Text)
  | human
  | dependencyBlock (reqs : List ν)
  | quarantine (diagnosis : Text)
  | needsInfo
  | triage
  | promote
  | close

structure TransitionPlan where
  add : List Text
  remove : List Text
  appendBody : Option Text

namespace TransitionPlan

/-- The labels after the mutation: what is removed goes, then what is added arrives. -/
def applied (plan : TransitionPlan) (current : List Text) : List Text :=
  (current.filter (· ∉ plan.remove) ++ plan.add).eraseDups

lemma mem_applied {plan : TransitionPlan} {current : List Text} {l : Text} :
    l ∈ plan.applied current ↔ (l ∈ current ∧ l ∉ plan.remove) ∨ l ∈ plan.add := by
  simp [applied]

end TransitionPlan

namespace StateTransition
variable {ν : Type}

/-- The role count that the replay demands. -/
def expectedRoles : StateTransition ν → ℕ
  | .close => 0
  | _ => 1

def appendBody : StateTransition ν → Option Text
  | .quarantine diagnosis => if Text.trim diagnosis = [] then none else some diagnosis
  | _ => none

def reason? : StateTransition ν → Option Text
  | .park reason => some reason
  | _ => none

def consumes : StateTransition ν → Bool
  | .promote => true
  | .close => true
  | _ => false

def requested : StateTransition ν → List ν
  | .dependencyBlock reqs => reqs
  | _ => []

end StateTransition

namespace StateTransitionLabels
variable {ν : Type} (print : ν → Text) (labels : StateTransitionLabels) (current : List Text)

def hitlTypesIn : List Text := labels.hitlTypes.filter (· ∈ current)

def stateRoleLabels : List Text :=
  [labels.ready, labels.human, labels.needsTriage, labels.needsInfo, labels.quarantine,
    labels.dependencyBlocked]

def stateRolesOf : List Text := labels.stateRoleLabels.filter (· ∈ current)

def targetRole : StateTransition ν → Option Text
  | .close => none
  | .promote => some (if labels.hitlTypesIn current = [] then labels.ready else labels.human)
  | .queue => some labels.ready
  | .park _ => some labels.human
  | .human => some labels.human
  | .dependencyBlock _ => some labels.dependencyBlocked
  | .quarantine _ => some labels.quarantine
  | .needsInfo => some labels.needsInfo
  | .triage => some labels.needsTriage

def IsEdge (l : Text) : Prop := labels.reqPrefix <+: l

def IsModifier (l : Text) : Prop := labels.blockedPrefix <+: l ∧ l ≠ labels.dependencyBlocked

instance : DecidablePred labels.IsEdge := fun l => inferInstanceAs (Decidable (_ <+: l))

instance : DecidablePred labels.IsModifier := fun l =>
  inferInstanceAs (Decidable (_ <+: l ∧ l ≠ _))

def reqLabels : List Text := current.filter labels.IsEdge

def blockedPresent : List Text := current.filter labels.IsModifier

def byIssue (l : Text) : Signed :=
  (Text.toNumber (l.drop labels.reqPrefix.length)).getD .zero

def sortedReqLabels (reqLabels : List Text) : List Text :=
  reqLabels.insertionSort fun a b => (labels.byIssue a).le (labels.byIssue b)

def refusal : StateTransition ν → Option Text
  | .park reason =>
    if labels.blockedPrefix <+: reason then none
    else
      some ("park reason must be a ".toList ++ labels.blockedPrefix ++
        "* label, got \"".toList ++ reason ++ "\"".toList)
  | .dependencyBlock [] => some "dependency-block requires at least one req issue".toList
  | .queue =>
    if labels.reqLabels current = [] then none
    else
      some ("queue refused while dependency edges remain (".toList ++
        List.intercalate ", ".toList (labels.reqLabels current) ++
        "); use promote to consume them or clear the edges first".toList)
  | _ => none

def edge (req : ν) : Text := labels.reqPrefix ++ print req

def additions (t : StateTransition ν) : List Text :=
  (labels.targetRole current t).toList.filter (· ∉ current) ++
    match t with
    | .park reason => if reason ∈ current then [] else [reason]
    | .dependencyBlock reqs => (reqs.map (labels.edge print)).filter (· ∉ current)
    | _ => []

def removals (t : StateTransition ν) : List Text :=
  (labels.stateRoleLabels.filter fun role =>
      some role ≠ labels.targetRole current t ∧ role ∈ current) ++
    (if labels.running ∈ current then [labels.running] else []) ++
    match t with
    | .park reason => (labels.blockedPresent current).filter (· ≠ reason)
    | .promote => labels.blockedPresent current ++ labels.sortedReqLabels (labels.reqLabels current)
    | .close => labels.blockedPresent current ++ labels.sortedReqLabels (labels.reqLabels current)
    | _ => labels.blockedPresent current

def mutation (t : StateTransition ν) : TransitionPlan where
  add := (labels.additions print current t).eraseDups
  remove := (labels.removals current t).eraseDups
  appendBody := t.appendBody

def planTransition (t : StateTransition ν) : Except Text TransitionPlan :=
  match labels.refusal current t with
  | some reason => .error reason
  | none =>
    let plan := labels.mutation print current t
    let roles := labels.stateRolesOf (plan.applied current)
    if roles.length = t.expectedRoles then .ok plan
    else
      .error ("transition would leave ".toList ++ Text.number roles.length ++
        " state roles (".toList ++
        (if roles = [] then "none".toList else List.intercalate ", ".toList roles) ++
        "), expected ".toList ++ Text.number t.expectedRoles)

/-- The labels are told apart: a role is no other role and not `running`, and none of
them is an edge or a blocked reason. -/
structure Proper : Prop where
  distinct : (labels.stateRoleLabels ++ [labels.running]).Nodup
  blocked : labels.blockedPrefix <+: labels.dependencyBlocked
  notEdge : ∀ l ∈ labels.stateRoleLabels ++ [labels.running], ¬ labels.IsEdge l
  notModifier : ∀ l ∈ labels.stateRoleLabels ++ [labels.running], ¬ labels.IsModifier l

variable {print labels current} {t : StateTransition ν} {l : Text} {plan : TransitionPlan}

lemma mem_additions : l ∈ labels.additions print current t ↔
    l ∉ current ∧ (labels.targetRole current t = some l ∨ t.reason? = some l ∨
      l ∈ t.requested.map (labels.edge print)) := by
  cases t <;>
    simp [additions, StateTransition.reason?, StateTransition.requested, targetRole] <;> grind

lemma mem_removals : l ∈ labels.removals current t ↔
    l ∈ current ∧ ((l ∈ labels.stateRoleLabels ∧ labels.targetRole current t ≠ some l) ∨
      l = labels.running ∨ (labels.IsModifier l ∧ t.reason? ≠ some l) ∨
      (labels.IsEdge l ∧ t.consumes)) := by
  cases t <;>
    simp [removals, StateTransition.reason?, StateTransition.consumes, targetRole, blockedPresent,
      reqLabels, sortedReqLabels] <;> grind

lemma planTransition_ok_iff : labels.planTransition print current t = .ok plan ↔
    labels.refusal current t = none ∧
      (labels.stateRolesOf ((labels.mutation print current t).applied current)).length =
        t.expectedRoles ∧
      labels.mutation print current t = plan := by
  unfold planTransition
  cases hrefusal : labels.refusal current t with
  | some reason => simp
  | none =>
    simp only [true_and]
    split_ifs with hrol
    · simp [hrol]
    · simp [hrol]

lemma mem_mutation : l ∈ (labels.mutation print current t).applied current ↔
    (l ∈ current ∧ l ∉ labels.removals current t) ∨ l ∈ labels.additions print current t := by
  simp [TransitionPlan.mem_applied, mutation]

lemma target_mem (h : labels.targetRole current t = some l) : l ∈ labels.stateRoleLabels := by
  cases t <;> simp only [targetRole, some.injEq, reduceCtorEq] at h <;> subst h <;>
    simp only [stateRoleLabels] <;> try split_ifs
  all_goals simp

lemma reason_blocked (h : labels.refusal current t = none) (hreas : t.reason? = some l) :
    labels.blockedPrefix <+: l := by
  cases t with
  | park reason =>
    obtain rfl : reason = l := some.inj hreas
    simp only [refusal, ite_eq_left_iff, reduceCtorEq, imp_false, not_not] at h
    exact h
  | _ => cases hreas

lemma isEdge_of_requested (h : l ∈ t.requested.map (labels.edge print)) : labels.IsEdge l := by
  obtain ⟨req, -, rfl⟩ := mem_map.mp h
  exact prefix_append _ _

lemma consumes_of_reason (h : t.reason? = some l) : t.consumes = false := by
  cases t <;> first | rfl | cases h

lemma consumes_of_requested {req : ν} (h : req ∈ t.requested) : t.consumes = false := by
  cases t <;> first | rfl | cases h

lemma reason_eq (hrefusal : labels.refusal current t = none) (hreas : t.reason? = some l)
    (h : ¬ labels.IsModifier l) : l = labels.dependencyBlocked := by
  by_contra hne
  exact h ⟨reason_blocked hrefusal hreas, hne⟩

section
variable (hlabels : labels.Proper) (hrefusal : labels.refusal current t = none)
include hlabels

lemma Proper.role (h : l ∈ labels.stateRoleLabels) :
    l ≠ labels.running ∧ ¬ labels.IsEdge l ∧ ¬ labels.IsModifier l := by
  have hin : l ∈ labels.stateRoleLabels ++ [labels.running] := mem_append_left _ h
  refine ⟨?_, hlabels.notEdge l hin, hlabels.notModifier l hin⟩
  exact (nodup_append.mp hlabels.distinct).2.2 l h _ mem_cons_self

lemma Proper.running : labels.running ∉ labels.stateRoleLabels ∧ ¬ labels.IsEdge labels.running ∧
      ¬ labels.IsModifier labels.running := by
  have hin : labels.running ∈ labels.stateRoleLabels ++ [labels.running] :=
    mem_append_right _ mem_cons_self
  exact ⟨fun h => (hlabels.role h).1 rfl, hlabels.notEdge _ hin, hlabels.notModifier _ hin⟩

lemma Proper.human_ne : labels.human ≠ labels.dependencyBlocked := by
  have hrol := (nodup_append.mp hlabels.distinct).1
  intro heq
  simp [stateRoleLabels, heq] at hrol

lemma role_mem (hl : l ∈ labels.stateRoleLabels) :
    l ∈ (labels.mutation print current t).applied current ↔
      labels.targetRole current t = some l ∨ (t.reason? = some l ∧ l ∉ current) := by
  obtain ⟨hrunn, hedge, hmod⟩ := hlabels.role hl
  have hrequest : l ∉ t.requested.map (labels.edge print) := fun h =>
    hedge (isEdge_of_requested h)
  rw [mem_mutation, mem_additions, mem_removals]
  simp only [hl, hrunn, hedge, hmod, hrequest]
  tauto

include hrefusal

lemma running_notMem : labels.running ∉ (labels.mutation print current t).applied current := by
  obtain ⟨hrole, hedge, hmod⟩ := hlabels.running
  have hrequest : labels.running ∉ t.requested.map (labels.edge print) := fun h =>
    hedge (isEdge_of_requested h)
  have htarg : labels.targetRole current t ≠ some labels.running := fun h =>
    hrole (target_mem h)
  have hreas : t.reason? ≠ some labels.running := by
    intro h
    apply hrole
    rw [reason_eq hrefusal h hmod]
    simp [stateRoleLabels]
  rw [mem_mutation, mem_additions, mem_removals]
  tauto

omit hrefusal in
lemma modifier_mem (hl : labels.IsModifier l) :
    l ∈ (labels.mutation print current t).applied current ↔
      t.reason? = some l ∨ (l ∉ current ∧ l ∈ t.requested.map (labels.edge print)) := by
  have hrole : l ∉ labels.stateRoleLabels := fun h => (hlabels.role h).2.2 hl
  have hrunn : l ≠ labels.running := by
    rintro rfl
    exact hlabels.running.2.2 hl
  have htarg : labels.targetRole current t ≠ some l := fun h => hrole (target_mem h)
  have hcons : t.reason? = some l → t.consumes = false := consumes_of_reason
  rw [mem_mutation, mem_additions, mem_removals]
  simp only [hl, hrole, hrunn, htarg]
  grind

lemma edge_mem (hl : labels.IsEdge l) (hmod : ¬ labels.IsModifier l) :
    l ∈ (labels.mutation print current t).applied current ↔
      (l ∈ current ∧ t.consumes = false) ∨ l ∈ t.requested.map (labels.edge print) := by
  have hrole : l ∉ labels.stateRoleLabels := fun h => (hlabels.role h).2.1 hl
  have hrunn : l ≠ labels.running := by
    rintro rfl
    exact hlabels.running.2.1 hl
  have htarg : labels.targetRole current t ≠ some l := fun h => hrole (target_mem h)
  have hreas : t.reason? ≠ some l := by
    intro h
    apply hrole
    rw [reason_eq hrefusal h hmod]
    simp [stateRoleLabels]
  have hcons : l ∈ t.requested.map (labels.edge print) → t.consumes = false := by
    intro h
    obtain ⟨req, hreq, -⟩ := mem_map.mp h
    exact consumes_of_requested hreq
  rw [mem_mutation, mem_additions, mem_removals]
  simp only [hl, hrole, hrunn, htarg, hreas, hmod]
  grind

omit hlabels in
lemma other_mem (hrole : l ∉ labels.stateRoleLabels) (hrunn : l ≠ labels.running)
    (hmod : ¬ labels.IsModifier l) (hedge : ¬ labels.IsEdge l) :
    l ∈ (labels.mutation print current t).applied current ↔ l ∈ current := by
  have htarg : labels.targetRole current t ≠ some l := fun h => hrole (target_mem h)
  have hrequest : l ∉ t.requested.map (labels.edge print) := fun h =>
    hedge (isEdge_of_requested h)
  have hreas : t.reason? ≠ some l := by
    intro h
    apply hrole
    rw [reason_eq hrefusal h hmod]
    simp [stateRoleLabels]
  rw [mem_mutation, mem_additions, mem_removals]
  tauto

end

lemma filter_eq_toList {α : Type*} {p : α → Prop} [DecidablePred p] {xs : List α}
    (hxs : xs.Nodup) {o : Option α} (ho : ∀ x, o = some x → x ∈ xs)
    (hp : ∀ x ∈ xs, p x ↔ o = some x) : xs.filter p = o.toList := by
  classical
  cases o with
  | none => simpa using hp
  | some a =>
    have hcongr : xs.filter p = xs.filter (· = a) := by
      apply filter_congr
      intro x hx
      simpa [eq_comm] using hp x hx
    rw [hcongr, filter_eq, count_eq_one_of_mem hxs (ho a rfl)]
    rfl

lemma expectedRoles_eq : t.expectedRoles = (labels.targetRole current t).toList.length := by
  cases t <;> rfl

section
variable (hlabels : labels.Proper)
include hlabels

lemma stateRolesOf_mutation
    (h : ∀ l, t.reason? = some l → l ∈ labels.stateRoleLabels → l ∈ current) :
    labels.stateRolesOf ((labels.mutation print current t).applied current) =
      (labels.targetRole current t).toList := by
  apply filter_eq_toList (nodup_append.mp hlabels.distinct).1 fun l => target_mem
  intro l hl
  rw [role_mem hlabels hl]
  have := h l
  tauto

lemma planTransition_eq (hrefusal : labels.refusal current t = none)
    (h : ∀ l, t.reason? = some l → l ∈ labels.stateRoleLabels → l ∈ current) :
    labels.planTransition print current t = .ok (labels.mutation print current t) := by
  rw [planTransition_ok_iff, stateRolesOf_mutation hlabels h]
  exact ⟨hrefusal, expectedRoles_eq.symm, rfl⟩

lemma planTransition_ne_ok (h : labels.dependencyBlocked ∉ current) :
    labels.planTransition print current (.park labels.dependencyBlocked) ≠ .ok plan := by
  intro hok
  obtain ⟨-, hcount, -⟩ := planTransition_ok_iff.mp hok
  obtain ⟨role, hone⟩ := length_eq_one_iff.mp hcount
  have hmem : ∀ l ∈ labels.stateRoleLabels,
      l = labels.human ∨ l = labels.dependencyBlocked → l = role := by
    intro l hl heq
    rw [← mem_singleton, ← hone]
    apply mem_filter.mpr
    refine ⟨hl, decide_eq_true ((role_mem hlabels hl).mpr ?_)⟩
    rcases heq with rfl | rfl
    · exact .inl rfl
    · exact .inr ⟨rfl, h⟩
  apply hlabels.human_ne
  rw [hmem labels.human (by simp [stateRoleLabels]) (.inl rfl),
    hmem labels.dependencyBlocked (by simp [stateRoleLabels]) (.inr rfl)]

end

structure OneState (print : ν → Text) (labels : StateTransitionLabels) (current : List Text)
    (t : StateTransition ν) (plan : TransitionPlan) : Prop where
  disjoint : ∀ l ∈ plan.add, l ∉ plan.remove
  role : labels.stateRolesOf (plan.applied current) = (labels.targetRole current t).toList
  running : labels.running ∉ plan.applied current
  modifiers : ∀ l, l ∈ plan.applied current ∧ labels.IsModifier l ↔ t.reason? = some l
  edges : ∀ l, l ∈ plan.applied current ∧ labels.IsEdge l ↔
    l ∈ current ∧ labels.IsEdge l ∧ t.consumes = false ∨ l ∈ t.requested.map (labels.edge print)
  others : ∀ l, l ∉ labels.stateRoleLabels → l ≠ labels.running → ¬ labels.IsModifier l →
    ¬ labels.IsEdge l → (l ∈ plan.applied current ↔ l ∈ current)
  again : t ≠ .promote → ∃ replan,
    labels.planTransition print (plan.applied current) t = .ok replan ∧
      replan.add = [] ∧ replan.remove = []

/-- No label of the issue or of the request is both an edge and a blocked reason, and no
issue that waits for its dependencies is parked with that wait as the reason. -/
def Clear (print : ν → Text) (labels : StateTransitionLabels) (current : List Text) :
    StateTransition ν → Prop
  | .park reason => labels.blockedPrefix <+: reason →
      if reason = labels.dependencyBlocked then reason ∉ current
      else ∀ l ∈ reason :: current, labels.IsEdge l → labels.IsModifier l → l = reason ∧ l ∈ current
  | .dependencyBlock reqs => reqs ≠ [] →
      ∀ l ∈ current ++ reqs.map (labels.edge print), labels.IsEdge l → ¬ labels.IsModifier l
  | .queue => True
  | .promote => True
  | .close => True
  | _ => ∀ l ∈ current, labels.IsEdge l → ¬ labels.IsModifier l

lemma not_isEdge_of_queue (h : labels.refusal current (.queue : StateTransition ν) = none)
    (hl : l ∈ current) : ¬ labels.IsEdge l := by
  intro hedge
  simp only [refusal, ite_eq_left_iff, reduceCtorEq, imp_false, not_not] at h
  have hin : l ∈ labels.reqLabels current := mem_filter.mpr ⟨hl, decide_eq_true hedge⟩
  rw [h] at hin
  exact absurd hin not_mem_nil

lemma refusal_congr {after : List Text} (h : labels.refusal current t = none)
    (haft : ∀ l ∈ after, labels.IsEdge l → l ∈ current ∨ l ∈ t.requested.map (labels.edge print)) :
    labels.refusal after t = none := by
  cases t with
  | queue =>
    simp only [refusal, ite_eq_left_iff, reduceCtorEq, imp_false, not_not]
    apply filter_eq_nil_iff.mpr
    intro l hl hedge
    have hedge : labels.IsEdge l := of_decide_eq_true hedge
    rcases haft l hl hedge with hcurr | hnone
    · exact not_isEdge_of_queue h hcurr hedge
    · exact absurd hnone not_mem_nil
  | dependencyBlock reqs =>
    cases reqs with
    | nil => cases h
    | cons req reqs => rfl
  | park reason => exact h
  | _ => rfl

section
variable (hlabels : labels.Proper) (hclear : labels.Clear print current t)

lemma isModifier_of_reason (hrefusal : labels.refusal current t = none)
    (hwait : t.reason? ≠ some labels.dependencyBlocked) (hreas : t.reason? = some l) :
    labels.IsModifier l := by
  by_contra hno
  rw [reason_eq hrefusal hreas hno] at hreas
  exact hwait hreas

include hclear

lemma Clear.reason (hrefusal : labels.refusal current t = none)
    (hwait : t.reason? ≠ some labels.dependencyBlocked) (hcons : t.consumes = false)
    (hedge : labels.IsEdge l) (hmod : labels.IsModifier l)
    (h : l ∈ current ∨ l ∈ t.requested.map (labels.edge print) ∨ t.reason? = some l) :
    t.reason? = some l ∧ l ∈ current := by
  cases t with
  | queue =>
    rcases h with hl | hl | hl
    · exact absurd hedge (not_isEdge_of_queue hrefusal hl)
    · exact absurd hl not_mem_nil
    · cases hl
  | park reason =>
    have hne : reason ≠ labels.dependencyBlocked := fun heq => hwait (congrArg some heq)
    have hblock := hclear (reason_blocked hrefusal rfl)
    rw [if_neg hne] at hblock
    have hin : l ∈ reason :: current := by
      rcases h with hl | hl | hl
      · exact mem_cons_of_mem _ hl
      · exact absurd hl not_mem_nil
      · rw [some.inj hl]
        exact mem_cons_self
    obtain ⟨rfl, hcurr⟩ := hblock l hin hedge hmod
    exact ⟨rfl, hcurr⟩
  | dependencyBlock reqs =>
    have hne : reqs ≠ [] := by
      rintro rfl
      cases hrefusal
    have hin : l ∈ current ++ reqs.map (labels.edge print) := by
      rcases h with hl | hl | hl
      · exact mem_append_left _ hl
      · exact mem_append_right _ hl
      · cases hl
    exact absurd hmod (hclear hne l hin hedge)
  | promote => cases hcons
  | close => cases hcons
  | _ =>
    rcases h with hl | hl | hl
    · exact absurd hmod (hclear l hl hedge)
    · exact absurd hl not_mem_nil
    · cases hl

include hlabels

lemma Clear.modifiers (hrefusal : labels.refusal current t = none)
    (hwait : t.reason? ≠ some labels.dependencyBlocked) (l : Text) :
    l ∈ (labels.mutation print current t).applied current ∧ labels.IsModifier l ↔
      t.reason? = some l := by
  constructor
  · rintro ⟨hin, hmod⟩
    rcases (modifier_mem hlabels hmod).mp hin with hreas | ⟨hnew, hrequest⟩
    · exact hreas
    · have hedge : labels.IsEdge l := isEdge_of_requested hrequest
      obtain ⟨req, hreq, -⟩ := mem_map.mp hrequest
      have hcons : t.consumes = false := consumes_of_requested hreq
      exact (hclear.reason hrefusal hwait hcons hedge hmod (.inr (.inl hrequest))).1
  · intro hreas
    have hmod : labels.IsModifier l := isModifier_of_reason hrefusal hwait hreas
    exact ⟨(modifier_mem hlabels hmod).mpr (.inl hreas), hmod⟩

lemma Clear.edges (hrefusal : labels.refusal current t = none)
    (hwait : t.reason? ≠ some labels.dependencyBlocked) (l : Text) :
    l ∈ (labels.mutation print current t).applied current ∧ labels.IsEdge l ↔
      l ∈ current ∧ labels.IsEdge l ∧ t.consumes = false ∨
        l ∈ t.requested.map (labels.edge print) := by
  by_cases hedge : labels.IsEdge l
  · by_cases hmod : labels.IsModifier l
    · rw [modifier_mem hlabels hmod]
      have hreas : t.reason? = some l → l ∈ current ∧ t.consumes = false := fun h =>
        have hcons := consumes_of_reason h
        ⟨(hclear.reason hrefusal hwait hcons hedge hmod (.inr (.inr h))).2, hcons⟩
      have hcurr : l ∈ current → t.consumes = false → t.reason? = some l := fun h hcons =>
        (hclear.reason hrefusal hwait hcons hedge hmod (.inl h)).1
      have hrequest : l ∈ t.requested.map (labels.edge print) → t.reason? = some l := by
        intro h
        obtain ⟨req, hreq, -⟩ := mem_map.mp h
        exact (hclear.reason hrefusal hwait (consumes_of_requested hreq) hedge hmod
          (.inr (.inl h))).1
      tauto
    · rw [edge_mem hlabels hrefusal hedge hmod]
      tauto
  · have hrequest : l ∉ t.requested.map (labels.edge print) := fun h =>
      hedge (isEdge_of_requested h)
    tauto

lemma wait_of_clear (hplan : labels.planTransition print current t = .ok plan) :
    t.reason? ≠ some labels.dependencyBlocked := by
  cases t with
  | park reason =>
    intro h
    obtain rfl : reason = labels.dependencyBlocked := some.inj h
    have hnone : labels.dependencyBlocked ∉ current := by
      simpa using hclear hlabels.blocked
    exact planTransition_ne_ok hlabels hnone hplan
  | _ =>
    intro h
    cases h

lemma oneState_of_clear (hplan : labels.planTransition print current t = .ok plan) :
    OneState print labels current t plan := by
  have hwait := wait_of_clear hlabels hclear hplan
  obtain ⟨hrefusal, -, rfl⟩ := planTransition_ok_iff.mp hplan
  have hmodif := hclear.modifiers hlabels hrefusal hwait
  have hedg := hclear.edges hlabels hrefusal hwait
  have hnoR : ∀ l, t.reason? = some l → l ∉ labels.stateRoleLabels := fun l hreas hrole =>
    (hlabels.role hrole).2.2 (isModifier_of_reason hrefusal hwait hreas)
  have hrole : labels.stateRolesOf ((labels.mutation print current t).applied current) =
      (labels.targetRole current t).toList :=
    stateRolesOf_mutation hlabels fun l hreas hin => absurd hin (hnoR l hreas)
  have hrunn : labels.running ∉ (labels.mutation print current t).applied current :=
    running_notMem hlabels hrefusal
  refine ⟨?_, hrole, hrunn, hmodif, hedg, ?_, ?_⟩
  · intro l hadd hrem
    simp only [mutation, mem_eraseDups] at hadd hrem
    exact (mem_additions.mp hadd).1 (mem_removals.mp hrem).1
  · intro l hl hne hmod hedge
    exact other_mem hrefusal hl hne hmod hedge
  · intro hprom
    have htarg : ∀ after, labels.targetRole after t = labels.targetRole current t := by
      intro after
      cases t <;> first | rfl | exact absurd rfl hprom
    set after := (labels.mutation print current t).applied current with haft
    have hagain : labels.refusal after t = none := by
      apply refusal_congr hrefusal
      intro l hl hedge
      rcases (hedg l).mp ⟨hl, hedge⟩ with ⟨hcurr, -⟩ | hrequest
      · exact .inl hcurr
      · exact .inr hrequest
    refine ⟨_, planTransition_eq hlabels hagain fun l hreas hin =>
      absurd hin (hnoR l hreas), ?_, ?_⟩
    · have hadd : labels.additions print after t = [] := by
        apply eq_nil_iff_forall_not_mem.mpr
        intro l hl
        obtain ⟨hnew, htarg' | hreas | hrequest⟩ := mem_additions.mp hl
        · rw [htarg] at htarg'
          have hin : l ∈ labels.stateRolesOf after := by
            rw [hrole, htarg']
            exact mem_singleton_self l
          exact hnew (of_decide_eq_true (mem_filter.mp hin).2)
        · exact hnew ((hmodif l).mpr hreas).1
        · exact hnew ((hedg l).mpr (.inr hrequest)).1
      simp only [mutation, hadd, eraseDups_nil]
    · have hrem : labels.removals after t = [] := by
        apply eq_nil_iff_forall_not_mem.mpr
        intro l hl
        obtain ⟨hin, ⟨hl, hne⟩ | rfl | ⟨hmod, hne⟩ | ⟨hedge, hcons⟩⟩ := mem_removals.mp hl
        · have hrol : l ∈ labels.stateRolesOf after :=
            mem_filter.mpr ⟨hl, decide_eq_true hin⟩
          rw [hrole, mem_toList] at hrol
          rw [htarg] at hne
          exact hne hrol
        · exact hrunn hin
        · exact hne ((hmodif l).mp ⟨hin, hmod⟩)
        · rcases (hedg l).mp ⟨hin, hedge⟩ with ⟨-, -, hno⟩ | hrequest
          · rw [hno] at hcons
            cases hcons
          · obtain ⟨req, hreq, -⟩ := mem_map.mp hrequest
            rw [consumes_of_requested hreq] at hcons
            cases hcons
      simp only [mutation, hrem, eraseDups_nil]

end

lemma OneState.reason (h : OneState print labels current t plan) (hcons : t.consumes = false)
    (hl : l ∈ current ++ t.requested.map (labels.edge print)) (hedge : labels.IsEdge l)
    (hmod : labels.IsModifier l) : t.reason? = some l := by
  apply (h.modifiers l).mp
  refine ⟨((h.edges l).mpr ?_).1, hmod⟩
  rcases mem_append.mp hl with hcurr | hrequest
  · exact .inl ⟨hcurr, hedge, hcons⟩
  · exact .inr hrequest

lemma clear_of_oneState (hlabels : labels.Proper)
    (h : ∀ plan, labels.planTransition print current t = .ok plan →
      OneState print labels current t plan) : labels.Clear print current t := by
  have hplain : labels.refusal current t = none → t.reason? = none → t.consumes = false →
      ∀ l ∈ current ++ t.requested.map (labels.edge print), labels.IsEdge l →
        ¬ labels.IsModifier l := by
    intro hrefusal hnone hcons l hl hedge hmod
    have hok : labels.planTransition print current t = .ok (labels.mutation print current t) :=
      planTransition_eq hlabels hrefusal fun l hreas => by
        rw [hnone] at hreas
        cases hreas
    have hreas := (h _ hok).reason hcons hl hedge hmod
    rw [hnone] at hreas
    cases hreas
  cases t with
  | park reason =>
    intro hblock
    have hrefusal : labels.refusal current (.park reason : StateTransition ν) = none :=
      if_pos hblock
    split_ifs with hwait
    · subst hwait
      intro hcurr
      have hok : labels.planTransition print current (.park labels.dependencyBlocked) = .ok _ :=
        planTransition_eq hlabels hrefusal fun l hreas hrole => by
          rw [← some.inj hreas]
          exact hcurr
      exact (((h _ hok).modifiers _).mpr rfl).2.2 rfl
    · intro l hl hedge hmod
      have hreas : labels.IsModifier reason := ⟨hblock, hwait⟩
      have hok : labels.planTransition print current (.park reason) = .ok _ :=
        planTransition_eq hlabels hrefusal fun l hl hrole => by
          rw [← some.inj hl] at hrole
          exact absurd hreas (hlabels.role hrole).2.2
      have hone := h _ hok
      rcases mem_cons.mp hl with rfl | hcurr
      · have haft := ((hone.modifiers l).mpr rfl).1
        rcases (hone.edges l).mp ⟨haft, hedge⟩ with ⟨hcurr, -⟩ | hnone
        · exact ⟨rfl, hcurr⟩
        · exact absurd hnone not_mem_nil
      · have heq := hone.reason rfl (mem_append_left _ hcurr) hedge hmod
        exact ⟨(some.inj heq).symm, hcurr⟩
  | dependencyBlock reqs =>
    intro hne l hl
    have hrefusal : labels.refusal current (.dependencyBlock reqs) = none := by
      cases reqs with
      | nil => exact absurd rfl hne
      | cons req reqs => rfl
    exact hplain hrefusal rfl rfl l hl
  | queue => trivial
  | promote => trivial
  | close => trivial
  | _ =>
    intro l hl
    exact hplain rfl rfl rfl l (mem_append_left _ hl)

/-- An accepted transition leaves one state, and every other park is accepted, exactly
where the labels are clear. -/
theorem leaves_one_state_iff (hlabels : labels.Proper) :
    ((∀ plan, labels.planTransition print current t = .ok plan →
        OneState print labels current t plan) ∧
      ∀ reason, t = .park reason → labels.blockedPrefix <+: reason →
        reason ≠ labels.dependencyBlocked →
        ∃ plan, labels.planTransition print current t = .ok plan) ↔
      labels.Clear print current t := by
  constructor
  · rintro ⟨h, -⟩
    exact clear_of_oneState hlabels h
  · intro hclear
    refine ⟨fun plan hplan => oneState_of_clear hlabels hclear hplan, ?_⟩
    rintro reason rfl hblock hne
    have hreas : labels.IsModifier reason := ⟨hblock, hne⟩
    have hrefusal : labels.refusal current (.park reason : StateTransition ν) = none :=
      if_pos hblock
    refine ⟨_, planTransition_eq hlabels hrefusal fun l hl hrole => ?_⟩
    rw [← some.inj hl] at hrole
    exact absurd hreas (hlabels.role hrole).2.2

def engineDefaults : StateTransitionLabels where
  ready := "ready-for-agent".toList
  running := "running".toList
  human := "ready-for-human".toList
  needsTriage := "needs-triage".toList
  needsInfo := "needs-info".toList
  quarantine := "quarantine".toList
  dependencyBlocked := "blocked:dependency".toList
  blockedPrefix := "blocked:".toList
  reqPrefix := "req:".toList
  hitlTypes := []

lemma engineDefaults_proper : engineDefaults.Proper where
  distinct := by decide +kernel
  blocked := by decide +kernel
  notEdge := by decide +kernel
  notModifier := by decide +kernel

/-- An issue that waits for #7 is parked with the wait as the reason: the plan is accepted
and the reason is gone. -/
theorem parked_for_no_reason : ∃ plan, engineDefaults.planTransition Text.number
        ["blocked:dependency".toList, "req:7".toList] (.park "blocked:dependency".toList) = .ok plan ∧
      plan.applied ["blocked:dependency".toList, "req:7".toList] =
        ["req:7".toList, "ready-for-human".toList] ∧
      ¬ OneState Text.number engineDefaults ["blocked:dependency".toList, "req:7".toList]
        (.park "blocked:dependency".toList) plan := by
  refine ⟨⟨["ready-for-human".toList], ["blocked:dependency".toList], none⟩, rfl, ?_, ?_⟩
  · decide +kernel
  · intro h
    have hreas := (h.modifiers "blocked:dependency".toList).mpr rfl
    exact hreas.2.2 rfl

theorem quarantined_with_one_state :
    let current := ["ready-for-agent".toList, "running".toList, "blocked:ci".toList, "req:7".toList]
    ∀ plan, engineDefaults.planTransition Text.number current (.quarantine "two roles".toList) =
        .ok plan →
      OneState Text.number engineDefaults current (.quarantine "two roles".toList) plan := by
  intro current
  have hclear : engineDefaults.Clear Text.number current (.quarantine "two roles".toList) := by
    change ∀ l ∈ current, engineDefaults.IsEdge l → ¬ engineDefaults.IsModifier l
    decide +kernel
  exact ((leaves_one_state_iff engineDefaults_proper).mpr hclear).1

end StateTransitionLabels
end Redskilled.Tracker
