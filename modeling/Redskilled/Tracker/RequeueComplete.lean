import Redskilled.Tracker.Requeue

/-!
# A requeue that is complete

A plan is sound where it leaves the issue executable, keeps within its authority, keeps what
it does not clear, and may fail and be run again. This is so exactly where what it keeps of
the body holds no other blocker and a machine does not clear what it may only retry.
-/
namespace Redskilled.Tracker
open Foundation Foundation.Text Foundation.Dialogue

namespace RequeueInput
variable (input : RequeueInput)

structure MachineMay : Prop where
  one : (blockedLabelsIn input.labels).length ≤ 1
  label : ∀ label ∈ blockedLabelsIn input.labels, ∀ kind, blockedKindOf label = some kind →
    kind ∈ requeueSupportedKinds
  active : ∀ blocker, input.activeBlocker = some blocker →
    blocker.kind ∈ mechanicalBlockerKinds ∨ blocker.kind ∈ requeueSupportedKinds
  matching : ∀ blocker, input.activeBlocker = some blocker →
    ∀ label ∈ blockedLabelsIn input.labels, blockedKindOf label = some blocker.kind

/-- The issue is parked, for a reason that the authority covers and not for its edges. -/
structure Accepted : Prop where
  parked : input.isParked
  authority : input.authorityOf = .machine → input.MachineMay
  edges : input.hasReqEdges → input.authorityOf = .human

/-- What clearing keeps of the body holds no blocker of its own. -/
def KeepsNoBlocker (blocker : CurrentBlocker) : Prop :=
  let entry := resolvedEntry (input.resolvedOf blocker)
  if cutAt blockerOpen entry = none ∧ cutAt blockerClose entry = none then
    parseCurrentBlocker (keptOf input.body) = none
  else
    parseCurrentBlocker (appendResolvedBlocker (keptOf input.body) (input.resolvedOf blocker)) = none

/-- No machine clears a blocker that it may only retry. -/
def Within (blocker : CurrentBlocker) : Prop :=
  input.authorityOf = .machine → blocker.kind ∉ mechanicalBlockerKinds

variable {input}

lemma blockedLabel_kind {label : Text} (h : label ∈ blockedLabelsIn input.labels) :
    ∃ kind, blockedKindOf label = some kind :=
  Option.isSome_iff_exists.mp (List.mem_filter.mp h).2

lemma labelKind_eq_some (h : (blockedLabelsIn input.labels).length ≤ 1) {kind : Text} :
    input.labelKind = some kind ↔
      ∃ label ∈ blockedLabelsIn input.labels, blockedKindOf label = some kind := by
  unfold labelKind
  match hblocked : blockedLabelsIn input.labels with
  | [] => simp
  | [label] => simp
  | label :: second :: rest =>
    rw [hblocked] at h
    simp at h

lemma machineRefusal_eq_none : input.machineRefusal = none ↔ input.MachineMay := by
  have hlab : ∀ kind, labelRefusal kind = none ↔ kind ∈ requeueSupportedKinds := by
    intro kind
    unfold labelRefusal
    split_ifs with h <;> simp [h]
  have hact : ∀ blocker, activeRefusal blocker = none ↔
      (blocker.kind ∈ mechanicalBlockerKinds ∨ blocker.kind ∈ requeueSupportedKinds) := by
    intro blocker
    unfold activeRefusal
    split_ifs with h
    · simp [h]
    · exact ⟨fun _ => by tauto, fun _ => rfl⟩
  have hmism : ∀ kind blocker, mismatchRefusal kind blocker = none ↔ blocker.kind = kind := by
    intro kind blocker
    unfold mismatchRefusal
    split_ifs with h
    · exact ⟨by rintro ⟨⟩, fun heq => absurd heq h⟩
    · exact ⟨fun _ => not_not.mp h, fun _ => rfl⟩
  unfold machineRefusal
  dsimp only
  by_cases hone : (blockedLabelsIn input.labels).length ≤ 1
  · rw [if_neg (by omega)]
    simp only [Option.or_eq_none_iff, Option.bind_eq_none_iff, hlab, hact, hmism,
      labelKind_eq_some hone]
    constructor
    · rintro ⟨hsupp, hfine, hsame⟩
      refine ⟨hone, ?_, hfine, ?_⟩
      · intro label hmem kind hkind
        exact hsupp kind ⟨label, hmem, hkind⟩
      · intro blocker hblock label hmem
        obtain ⟨kind, hkind⟩ := blockedLabel_kind hmem
        rw [hkind, hsame blocker hblock kind ⟨label, hmem, hkind⟩]
    · rintro ⟨-, hsupp, hfine, hsame⟩
      refine ⟨?_, hfine, ?_⟩
      · rintro kind ⟨label, hmem, hkind⟩
        exact hsupp label hmem kind hkind
      · rintro blocker hblock kind ⟨label, hmem, hkind⟩
        have hsame := hsame blocker hblock label hmem
        rw [hkind] at hsame
        exact (Option.some.inj hsame).symm
  · rw [if_pos (by omega)]
    constructor
    · rintro ⟨⟩
    · intro hmay
      exact absurd hmay.one hone

lemma transition_refusal : hostStateTransitionLabels.refusal input.labels input.transition = none ↔
      (input.hasReqEdges → input.authorityOf = .human) := by
  have hedg : hostStateTransitionLabels.reqLabels input.labels = [] ↔ ¬ input.hasReqEdges := by
    unfold StateTransitionLabels.reqLabels hasReqEdges
    rw [List.filter_eq_nil_iff]
    constructor
    · rintro hnone ⟨label, hlab, hedge⟩
      exact hnone label hlab (decide_eq_true hedge)
    · intro hnone label hlab hedge
      exact hnone ⟨label, hlab, of_decide_eq_true hedge⟩
  unfold transition
  split_ifs with hprom
  · exact ⟨fun _ _ => hprom.1, fun _ => rfl⟩
  · constructor
    · intro h hreq
      unfold StateTransitionLabels.refusal at h
      dsimp only at h
      split_ifs at h with hnone
      exact absurd hreq (hedg.mp hnone)
    · intro h
      have hnone : ¬ input.hasReqEdges := fun hreq => hprom ⟨h hreq, hreq⟩
      exact if_pos (hedg.mpr hnone)

lemma transition_plain : input.transition.reason? = none ∧
    hostStateTransitionLabels.targetRole input.labels input.transition =
      some hostStateTransitionLabels.ready := by
  unfold transition
  split_ifs
  · exact ⟨rfl, rfl⟩
  · exact ⟨rfl, rfl⟩

def mutation (input : RequeueInput) : TransitionPlan :=
  hostStateTransitionLabels.mutation number input.labels input.transition

lemma planTransition_ok
    (h : hostStateTransitionLabels.refusal input.labels input.transition = none) :
    hostStateTransitionLabels.planTransition number input.labels input.transition =
      .ok input.mutation := by
  apply StateTransitionLabels.planTransition_eq hostLabels_proper h
  intro l hreas
  rw [transition_plain.1] at hreas
  cases hreas

lemma planRequeue_cases (input : RequeueInput) :
    (¬ input.Accepted ∧ input.planRequeue.requeueable = false) ∨
      (input.Accepted ∧ input.planRequeue =
        { requeueable := true
          refuseForHitl := false
          reason := none
          activeBlocker := input.activeBlocker
          body := input.requeuedBody
          bodyChanged := input.requeuedBody ≠ input.body
          addLabels := input.mutation.add
          removeLabels := input.mutation.remove }) := by
  unfold planRequeue
  by_cases hpark : input.isParked
  · rw [if_neg (not_not_intro hpark)]
    cases hmach : (if input.authorityOf = .machine then input.machineRefusal else none) with
    | some reason =>
      left
      refine ⟨?_, rfl⟩
      intro hacc
      split_ifs at hmach with hauth
      rw [machineRefusal_eq_none.mpr (hacc.authority hauth)] at hmach
      cases hmach
    | none =>
      have hmay : input.authorityOf = .machine → input.MachineMay := by
        intro hauth
        rw [if_pos hauth] at hmach
        exact machineRefusal_eq_none.mp hmach
      by_cases hrefusal : hostStateTransitionLabels.refusal input.labels input.transition = none
      · right
        refine ⟨⟨hpark, hmay, transition_refusal.mp hrefusal⟩, ?_⟩
        rw [planTransition_ok hrefusal]
      · left
        constructor
        · intro hacc
          exact hrefusal (transition_refusal.mpr hacc.edges)
        · obtain ⟨reason, hreas⟩ := Option.ne_none_iff_exists'.mp hrefusal
          have herr : hostStateTransitionLabels.planTransition number input.labels
              input.transition = .error reason := by
            unfold StateTransitionLabels.planTransition
            rw [hreas]
          rw [herr]
          rfl
  · rw [if_pos hpark]
    exact .inl ⟨fun hacc => hpark hacc.parked, rfl⟩

lemma requeuedBody_of_none (h : input.activeBlocker = none) : input.requeuedBody = input.body := by
  unfold requeuedBody
  rw [h]

lemma requeuedBody_of_some {blocker : CurrentBlocker} (h : input.activeBlocker = some blocker) :
    input.requeuedBody =
      appendResolvedBlocker (withoutBlocker input.body) (input.resolvedOf blocker) := by
  have hparse : parseCurrentBlocker input.body = some blocker := h
  unfold requeuedBody clearCurrentBlocker
  rw [h, hparse]

/-- The planned body has no blocker exactly where nothing that is kept has one. -/
lemma parse_requeuedBody : parseCurrentBlocker input.requeuedBody = none ↔
    ∀ blocker, input.activeBlocker = some blocker → input.KeepsNoBlocker blocker := by
  cases hact : input.activeBlocker with
  | none =>
    rw [requeuedBody_of_none hact]
    constructor
    · rintro - blocker ⟨⟩
    · exact fun _ => hact
  | some blocker =>
    rw [requeuedBody_of_some hact, parse_cleared_iff]
    have hkeeps : input.KeepsNoBlocker blocker ↔ parseCurrentBlocker
        (appendResolvedBlocker (keptOf input.body) (input.resolvedOf blocker)) = none := by
      unfold KeepsNoBlocker
      dsimp only
      split_ifs with hplain
      · exact (parse_appendResolvedBlocker hplain.1 hplain.2).symm
      · exact Iff.rfl
    rw [← hkeeps]
    constructor
    · rintro h other hoth
      rwa [← Option.some.inj hoth]
    · exact fun h => h blocker rfl

lemma mutation_spec (input : RequeueInput) :
    hostStateTransitionLabels.ready ∈ input.mutation.applied input.labels ∧
      ∀ l ∈ input.mutation.remove, l ∈ input.labels := by
  constructor
  · have hready : hostStateTransitionLabels.ready ∈ hostStateTransitionLabels.stateRoleLabels := by
      simp [StateTransitionLabels.stateRoleLabels]
    exact (StateTransitionLabels.role_mem hostLabels_proper hready).mpr (.inl transition_plain.2)
  · intro l hl
    have hrem : l ∈ hostStateTransitionLabels.removals input.labels input.transition :=
      List.mem_eraseDups.mp hl
    exact (StateTransitionLabels.mem_removals.mp hrem).1

end RequeueInput

def RequeueInput.on (input : RequeueInput) (s : TrackedIssue) : RequeueInput :=
  { input with body := s.body, labels := s.labels }

/-- A run of the requeue on the issue, up to its end or to where it was stopped. -/
def Attempt (issue : ℕ) (input : RequeueInput) (s t : TrackedIssue) : Prop :=
  ∃ trace outcome, Run (applyRequeue issue (input.on s)) trace outcome ∧
    Leads TrackedIssue.Steps s trace t

structure Wrote (plan : RequeuePlan) (s t : TrackedIssue)
    (trace : List (Exchange RequeueOp RequeueOp.Answer)) (outcome : Outcome ApplyRequeueResult) :
    Prop where
  body : t.body = s.body ∨ t.body = plan.body
  returned : ∀ result, outcome = .returned result → result.applied = true ∧ t.body = plan.body ∧
    ∀ l, l ∈ t.labels ↔ (l ∈ s.labels ∧ l ∉ plan.removeLabels) ∨ l ∈ plan.addLabels
  failed : outcome = .failed → ∃ e ∈ trace, e.answer = none

section
variable {issue : ℕ} {plan : RequeuePlan} {s t u : TrackedIssue} {guidance : Text}
  {freshness : RequeueFreshnessResult} {e : Exchange RequeueOp RequeueOp.Answer}
  {trace : List (Exchange RequeueOp RequeueOp.Answer)} {outcome : Outcome ApplyRequeueResult}

lemma leads_nil (h : Leads TrackedIssue.Steps s [] t) : t = s := by
  cases h
  rfl

lemma leads_cons {e : Exchange RequeueOp RequeueOp.Answer}
    (h : Leads TrackedIssue.Steps s (e :: trace) t) :
    ∃ u, s.Steps e u ∧ Leads TrackedIssue.Steps u trace t := by
  cases h with
  | cons hstep hrest => exact ⟨_, hstep, hrest⟩

lemma wrote_of_waiting (hbody : t.body = s.body ∨ t.body = plan.body)
    (houtc : outcome = .waiting) : Wrote plan s t trace outcome := by
  subst houtc
  exact ⟨hbody, by rintro result ⟨⟩, by rintro ⟨⟩⟩

lemma wrote_of_none {q : RequeueOp} (hbody : t.body = s.body ∨ t.body = plan.body)
    (hends : outcome = .waiting ∨ outcome = .failed) : Wrote plan s t [⟨q, none⟩] outcome := by
  rcases hends with rfl | rfl
  · exact wrote_of_waiting hbody rfl
  · exact ⟨hbody, by rintro result ⟨⟩, fun _ => ⟨_, List.mem_singleton_self _, rfl⟩⟩

lemma Wrote.before (h : Wrote plan u t trace outcome)
    (hbody : u.body = s.body ∨ u.body = plan.body) (hlabels : u.labels = s.labels) :
    Wrote plan s t (e :: trace) outcome := by
  refine ⟨?_, ?_, ?_⟩
  · rcases h.body with hu | hu
    · rwa [hu]
    · exact .inr hu
  · intro result hres
    rw [← hlabels]
    exact h.returned result hres
  · intro hfail
    obtain ⟨e, he, hnone⟩ := h.failed hfail
    exact ⟨e, List.mem_cons_of_mem _ he, hnone⟩

lemma wrote_labels (hbody : s.body = plan.body) {result : ApplyRequeueResult}
    (hres : result.applied = true)
    (hrun : Run (do need (RequeueOp.editLabels issue plan.removeLabels plan.addLabels); pure result)
      trace outcome)
    (hleads : Leads TrackedIssue.Steps s trace t) : Wrote plan s t trace outcome := by
  rcases hrun.need_ends with ⟨rfl, hwait⟩ | ⟨rfl, hends⟩ | ⟨a, rest, rfl, hrest⟩
  · obtain rfl := leads_nil hleads
    exact wrote_of_waiting (.inl rfl) hwait
  · obtain ⟨u, ⟨hsame, -⟩, hlast⟩ := leads_cons hleads
    obtain rfl := leads_nil hlast
    exact wrote_of_none (.inl hsame) hends
  · obtain ⟨u, ⟨hsame, hlabels⟩, hlast⟩ := leads_cons hleads
    cases hrest with
    | stop =>
      obtain rfl := leads_nil hlast
      exact wrote_of_waiting (.inl hsame) rfl
    | done =>
      obtain rfl := leads_nil hlast
      refine ⟨.inl hsame, ?_, by rintro ⟨⟩⟩
      rintro other ⟨⟩
      exact ⟨hres, hsame.trans hbody, hlabels⟩

lemma wrote_comment (hbody : s.body = plan.body) {directive : Text} {result : ApplyRequeueResult}
    (hres : result.applied = true)
    (hrun : Run (do
      need (RequeueOp.comment issue directive)
      need (RequeueOp.editLabels issue plan.removeLabels plan.addLabels)
      pure result) trace outcome)
    (hleads : Leads TrackedIssue.Steps s trace t) : Wrote plan s t trace outcome := by
  rcases hrun.need_ends with ⟨rfl, hwait⟩ | ⟨rfl, hends⟩ | ⟨a, rest, rfl, hrest⟩
  · obtain rfl := leads_nil hleads
    exact wrote_of_waiting (.inl rfl) hwait
  · obtain ⟨u, hstep, hlast⟩ := leads_cons hleads
    have hstep : u = s ∨ u = { s with comments := s.comments ++ [directive] } := hstep
    obtain rfl := leads_nil hlast
    apply wrote_of_none (.inl _) hends
    rcases hstep with rfl | rfl
    · rfl
    · rfl
  · obtain ⟨u, hstep, hlast⟩ := leads_cons hleads
    have hu : u = { s with comments := s.comments ++ [directive] } := hstep
    have hsame : u.body = s.body := by rw [hu]
    have hlabels : u.labels = s.labels := by rw [hu]
    exact (wrote_labels (hsame.trans hbody) hres hrest hlast).before (.inl hsame) hlabels

lemma wrote_writes (hbody : plan.bodyChanged = false → s.body = plan.body)
    (hrun : Run (requeueWrites issue plan guidance freshness) trace outcome)
    (hleads : Leads TrackedIssue.Steps s trace t) : Wrote plan s t trace outcome := by
  rcases hrun.need_ends with ⟨rfl, hwait⟩ | ⟨rfl, hends⟩ | ⟨claims, rest, rfl, hrest⟩
  · obtain rfl := leads_nil hleads
    exact wrote_of_waiting (.inl rfl) hwait
  · obtain ⟨u, ⟨hsame, -⟩, hlast⟩ := leads_cons hleads
    obtain rfl := leads_nil hlast
    exact wrote_of_none (.inl hsame) hends
  · obtain ⟨u, ⟨hsame, hlabels⟩, hlast⟩ := leads_cons hleads
    refine Wrote.before ?_ (.inl hsame) hlabels
    cases hchang : plan.bodyChanged with
    | false =>
      simp only [hchang, Bool.false_eq_true, if_false] at hrest
      exact wrote_comment (hsame.trans (hbody hchang)) rfl hrest hlast
    | true =>
      simp only [hchang, if_true] at hrest
      rcases hrest.need_ends with ⟨rfl, hwait⟩ | ⟨rfl, hends⟩ | ⟨written, later, rfl, hlat⟩
      · obtain rfl := leads_nil hlast
        exact wrote_of_waiting (.inl rfl) hwait
      · obtain ⟨v, hstep, hnil⟩ := leads_cons hlast
        have hstep : v = u ∨ v = { u with body := plan.body } := hstep
        obtain rfl := leads_nil hnil
        apply wrote_of_none _ hends
        rcases hstep with rfl | rfl
        · exact .inl rfl
        · exact .inr rfl
      · obtain ⟨v, hstep, hend⟩ := leads_cons hlast
        have hv : v = { u with body := plan.body } := hstep
        have hplann : v.body = plan.body := by rw [hv]
        have hkept : v.labels = u.labels := by rw [hv]
        exact (wrote_comment hplann rfl hlat hend).before (.inr hplann) hkept

end

namespace RequeueInput
variable {issue : ℕ} {input : RequeueInput} {s t : TrackedIssue}

structure Leaves (plan : RequeuePlan) (s t : TrackedIssue)
    (trace : List (Exchange RequeueOp RequeueOp.Answer)) (outcome : Outcome ApplyRequeueResult) :
    Prop where
  body : t.body = s.body ∨ (plan.requeueable = true ∧ t.body = plan.body)
  refused : ∀ result, outcome = .returned result → result.applied = false →
    t.body = s.body ∧ t.labels = s.labels
  applied : ∀ result, outcome = .returned result → result.applied = true →
    plan.requeueable = true ∧ t.body = plan.body ∧
      ∀ l, l ∈ t.labels ↔ (l ∈ s.labels ∧ l ∉ plan.removeLabels) ∨ l ∈ plan.addLabels
  failed : outcome = .failed → ∃ e ∈ trace, e.answer = none

lemma leaves_of_wrote {plan : RequeuePlan}
    {trace : List (Exchange RequeueOp RequeueOp.Answer)} {outcome : Outcome ApplyRequeueResult}
    (hrequeueable : plan.requeueable = true) (h : Wrote plan s t trace outcome) :
    Leaves plan s t trace outcome := by
  refine ⟨h.body.imp_right fun hbody => ⟨hrequeueable, hbody⟩, ?_, ?_, h.failed⟩
  · intro result hres hno
    rw [(h.returned result hres).1] at hno
    cases hno
  · intro result hres _
    exact ⟨hrequeueable, (h.returned result hres).2⟩

lemma leaves_of_returned {plan : RequeuePlan} {result : ApplyRequeueResult}
    (hres : result.applied = false) (trace : List (Exchange RequeueOp RequeueOp.Answer)) :
    Leaves plan s s trace (.returned result) := by
  refine ⟨.inl rfl, fun _ _ _ => ⟨rfl, rfl⟩, ?_, by rintro ⟨⟩⟩
  rintro other ⟨⟩ hyes
  rw [hres] at hyes
  cases hyes

lemma leaves_applyRequeue {trace : List (Exchange RequeueOp RequeueOp.Answer)}
    {outcome : Outcome ApplyRequeueResult} (hinp : input.body = s.body)
    (hrun : Run (applyRequeue issue input) trace outcome)
    (hleads : Leads TrackedIssue.Steps s trace t) :
    Leaves input.planRequeue s t trace outcome := by
  have hwait : ∀ trace, Leaves input.planRequeue s s trace .waiting := fun trace =>
    ⟨.inl rfl, by rintro result ⟨⟩, by rintro result ⟨⟩, by rintro ⟨⟩⟩
  unfold applyRequeue at hrun
  dsimp only at hrun
  split_ifs at hrun with hrequeueable
  · rcases hrun.need_ends with ⟨rfl, rfl⟩ | ⟨rfl, hends⟩ | ⟨freshness, rest, rfl, hrest⟩
    · obtain rfl := leads_nil hleads
      exact hwait _
    · obtain ⟨u, rfl, hlast⟩ := leads_cons hleads
      obtain rfl := leads_nil hlast
      exact leaves_of_wrote hrequeueable (wrote_of_none (.inl rfl) hends)
    · obtain ⟨u, hstep, hlast⟩ := leads_cons hleads
      obtain rfl : u = s := hstep
      split_ifs at hrest with hfresh
      · apply leaves_of_wrote hrequeueable
        apply Wrote.before _ (.inl rfl) rfl
        apply wrote_writes _ hrest hlast
        intro hchang
        rcases planRequeue_cases input with ⟨-, hno⟩ | ⟨-, hplan⟩
        · rw [hrequeueable] at hno
          cases hno
        · rw [hplan] at hchang ⊢
          rw [← hinp]
          exact (by simpa using hchang : input.requeuedBody = input.body).symm
      · cases hrest with
        | stop =>
          obtain rfl := leads_nil hlast
          exact hwait _
        | done =>
          obtain rfl := leads_nil hlast
          exact leaves_of_returned rfl _
  · cases hrun with
    | stop =>
      obtain rfl := leads_nil hleads
      exact hwait _
    | done =>
      obtain rfl := leads_nil hleads
      exact leaves_of_returned rfl _

/-- The blocker that the input had is still there, or its line is archived. -/
def Recorded (input : RequeueInput) (t : TrackedIssue) : Prop :=
  ∀ blocker, input.activeBlocker = some blocker → parseCurrentBlocker t.body = some blocker ∨
      resolvedEntry (input.resolvedOf blocker) ∈ lines t.body

/-- Run again on the issue, the requeue completes or refuses; it fails only with a call. -/
def Completes (issue : ℕ) (input : RequeueInput) (t : TrackedIssue) : Prop :=
  ∀ trace outcome u, Run (applyRequeue issue (input.on t)) trace outcome →
    Leads TrackedIssue.Steps t trace u →
    (∀ result, outcome = .returned result →
      (result.applied = true ∧ isRequeueComplete u.body u.labels = true ∧
        parseCurrentBlocker u.body = none) ∨
      (result.applied = false ∧ u.body = t.body ∧ u.labels = t.labels)) ∧
    (outcome = .failed → ∃ e ∈ trace, e.answer = none)

def kept (input : RequeueInput) : Text :=
  match input.activeBlocker with
  | some _ => keptOf input.body
  | none => input.body

structure Sound (input : RequeueInput) : Prop where
  complete : input.planRequeue.requeueable = true → isRequeueComplete input.planRequeue.body
      ((⟨input.planRequeue.addLabels, input.planRequeue.removeLabels, none⟩ :
        TransitionPlan).applied input.labels) = true ∧
      parseCurrentBlocker input.planRequeue.body = none
  within : input.planRequeue.requeueable = true → input.authorityOf = .machine →
    (∀ label ∈ input.planRequeue.removeLabels, ∀ kind, blockedKindOf label = some kind →
      kind ∈ requeueSupportedKinds) ∧
    ∀ blocker, input.planRequeue.activeBlocker = some blocker → blocker.kind ∈ requeueSupportedKinds
  keeps : input.planRequeue.requeueable = true → KeptIn input.kept input.planRequeue.body ∧
    ∀ blocker, input.activeBlocker = some blocker →
      resolvedEntry (input.resolvedOf blocker) ∈ lines input.planRequeue.body
  again : ∀ issue s, s.body = input.body → s.labels = input.labels →
    ∀ t, Relation.ReflTransGen (Attempt issue input) s t → input.Recorded t ∧ Completes issue input t

lemma on_eq (hbody : s.body = input.body) (hlabels : s.labels = input.labels) :
    input.on s = input := by
  unfold on
  rw [hbody, hlabels]

lemma requeuedBody_on (hbody : s.body = input.body) :
    (input.on s).requeuedBody = input.requeuedBody := by
  unfold requeuedBody activeBlocker on
  rw [hbody]
  rfl

lemma keeps_of_plan (input : RequeueInput) : KeptIn input.kept input.requeuedBody ∧
    ∀ blocker, input.activeBlocker = some blocker →
      resolvedEntry (input.resolvedOf blocker) ∈ lines input.requeuedBody := by
  unfold kept
  cases hact : input.activeBlocker with
  | none =>
    rw [requeuedBody_of_none hact]
    exact ⟨KeptIn.refl _, by rintro blocker ⟨⟩⟩
  | some blocker =>
    rw [requeuedBody_of_some hact]
    refine ⟨keptIn_cleared.1, ?_⟩
    rintro other hoth
    rw [← Option.some.inj hoth]
    exact keptIn_cleared.2

lemma attempts_refused (hno : input.planRequeue.requeueable = false)
    (hbody : s.body = input.body) (hlabels : s.labels = input.labels)
    (h : Relation.ReflTransGen (Attempt issue input) s t) : t = s := by
  induction h with
  | refl => rfl
  | tail _ hlast ih =>
    subst ih
    obtain ⟨trace, outcome, hrun, hleads⟩ := hlast
    rw [on_eq hbody hlabels] at hrun
    unfold applyRequeue at hrun
    dsimp only at hrun
    rw [hno] at hrun
    cases hrun with
    | stop => exact leads_nil hleads
    | done => exact leads_nil hleads

lemma attempts_body (hclear : parseCurrentBlocker input.requeuedBody = none)
    (hbody : s.body = input.body) (h : Relation.ReflTransGen (Attempt issue input) s t) :
    t.body = input.body ∨ t.body = input.requeuedBody := by
  induction h with
  | refl => exact .inl hbody
  | @tail t u _ hlast ih =>
    obtain ⟨trace, outcome, hrun, hleads⟩ := hlast
    rcases (leaves_applyRequeue rfl hrun hleads).body with hsame | ⟨hrequeueable, hplann⟩
    · rwa [hsame]
    · rcases planRequeue_cases (input.on t) with ⟨-, hno⟩ | ⟨-, hplan⟩
      · rw [hrequeueable] at hno
        cases hno
      · rw [hplan] at hplann
        right
        rcases ih with ih | ih
        · rw [hplann, requeuedBody_on ih]
        · have hnone : (input.on t).activeBlocker = none := by
            change parseCurrentBlocker t.body = none
            rw [ih, hclear]
          rw [hplann, requeuedBody_of_none hnone]
          exact ih

lemma complete_of_parse {body : Text} {labels : List Text}
    (hready : hostStateTransitionLabels.ready ∈ labels) (h : parseCurrentBlocker body = none) :
    isRequeueComplete body labels = true := by
  unfold isRequeueComplete
  rw [h, Bool.and_true]
  exact List.contains_iff_mem.mpr hready

lemma completes_of_body (hclear : parseCurrentBlocker input.requeuedBody = none)
    (hbody : t.body = input.body ∨ t.body = input.requeuedBody) : Completes issue input t := by
  intro trace outcome u hrun hleads
  have hleav := leaves_applyRequeue rfl hrun hleads
  refine ⟨?_, hleav.failed⟩
  intro result hres
  cases happl : result.applied with
  | false => exact .inr ⟨rfl, hleav.refused result hres happl⟩
  | true =>
    left
    obtain ⟨hrequeueable, hplann, hlabels⟩ := hleav.applied result hres happl
    rcases planRequeue_cases (input.on t) with ⟨-, hno⟩ | ⟨-, hplan⟩
    · rw [hrequeueable] at hno
      cases hno
    · rw [hplan] at hplann hlabels
      have hnone : parseCurrentBlocker u.body = none := by
        rcases hbody with hbody | hbody
        · rw [hplann, requeuedBody_on hbody, hclear]
        · have hact : (input.on t).activeBlocker = none := by
            change parseCurrentBlocker t.body = none
            rw [hbody, hclear]
          rw [hplann, requeuedBody_of_none hact]
          exact hact
      refine ⟨rfl, complete_of_parse ?_ hnone, hnone⟩
      apply (hlabels _).mpr
      exact TransitionPlan.mem_applied.mp (mutation_spec (input.on t)).1

lemma recorded_of_body (hbody : t.body = input.body ∨ t.body = input.requeuedBody) :
    input.Recorded t := by
  intro blocker hact
  rcases hbody with hbody | hbody
  · left
    rw [hbody]
    exact hact
  · right
    rw [hbody]
    exact (keeps_of_plan input).2 blocker hact

lemma supported_notMem_mechanical :
    ∀ kind ∈ requeueSupportedKinds, kind ∉ mechanicalBlockerKinds := by decide +kernel

/-- A requeue is sound exactly where an accepted blocker leaves none behind and, with a
machine, is none that it may only retry. -/
theorem sound_iff (input : RequeueInput) : input.Sound ↔ (input.Accepted →
    ∀ blocker, input.activeBlocker = some blocker →
      input.KeepsNoBlocker blocker ∧ input.Within blocker) := by
  constructor
  · rintro hsound hacc blocker hact
    rcases planRequeue_cases input with ⟨hno, -⟩ | ⟨-, hplan⟩
    · exact absurd hacc hno
    · have hrequeueable : input.planRequeue.requeueable = true := by rw [hplan]
      have hnone := (hsound.complete hrequeueable).2
      have hwith := hsound.within hrequeueable
      rw [hplan] at hnone hwith
      refine ⟨parse_requeuedBody.mp hnone blocker hact, ?_⟩
      intro hmach
      exact supported_notMem_mechanical _ ((hwith hmach).2 blocker hact)
  · intro h
    rcases planRequeue_cases input with ⟨-, hno⟩ | ⟨hacc, hplan⟩
    · have hnev : ¬ input.planRequeue.requeueable = true := by
        rw [hno]
        exact Bool.false_ne_true
      refine ⟨fun hyes => absurd hyes hnev, fun hyes => absurd hyes hnev,
        fun hyes => absurd hyes hnev, ?_⟩
      intro issue s hbody hlabels t hatt
      obtain rfl := attempts_refused hno hbody hlabels hatt
      refine ⟨recorded_of_body (.inl hbody), ?_⟩
      intro trace outcome u hrun hleads
      have hleav := leaves_applyRequeue rfl hrun hleads
      refine ⟨?_, hleav.failed⟩
      intro result hres
      cases happl : result.applied with
      | false => exact .inr ⟨rfl, hleav.refused result hres happl⟩
      | true =>
        obtain ⟨hyes, -⟩ := hleav.applied result hres happl
        rw [on_eq hbody hlabels] at hyes
        exact absurd hyes hnev
    · have hclear : parseCurrentBlocker input.requeuedBody = none :=
        parse_requeuedBody.mpr fun blocker hact => (h hacc blocker hact).1
      refine ⟨?_, ?_, ?_, ?_⟩
      · intro _
        rw [hplan]
        exact ⟨complete_of_parse (mutation_spec input).1 hclear, hclear⟩
      · intro _ hmach
        rw [hplan]
        have hmay := hacc.authority hmach
        constructor
        · intro label hlab kind hkind
          have hmem : label ∈ blockedLabelsIn input.labels := by
            apply List.mem_filter.mpr
            refine ⟨(mutation_spec input).2 label hlab, ?_⟩
            rw [hkind]
            rfl
          exact hmay.label label hmem kind hkind
        · intro blocker hact
          exact (hmay.active blocker hact).resolve_left
            ((h hacc blocker hact).2 hmach)
      · intro _
        rw [hplan]
        exact keeps_of_plan input
      · intro issue s hbody _ t hatt
        have ht := attempts_body hclear hbody hatt
        exact ⟨recorded_of_body ht, completes_of_body hclear ht⟩

/-- The blocker stands before its heading: the section is cleared, and the blocker stays. -/
def misplaced : RequeueInput where
  authority := some .machine
  body := "<!-- red:blocker-state v1 -->\nstatus: blocked\nkind: spec\nsummary: a\nnext: b\n".toList ++
    "<!-- /red:blocker-state -->\n\n## Current blocker\n\nNone\n".toList
  labels := ["blocked:spec".toList]
  guidance := some "Clear now.".toList

/-- The requeue flips the labels, and the blocker stays in the body. -/
theorem flipped_labels_only : ¬ misplaced.Sound := by
  intro h
  have hrequeueable : misplaced.planRequeue.requeueable = true := by decide +kernel
  have hstays : (parseCurrentBlocker misplaced.planRequeue.body).isSome = true := by decide +kernel
  rw [(h.complete hrequeueable).2] at hstays
  cases hstays

end RequeueInput
end Redskilled.Tracker
