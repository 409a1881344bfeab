import Redskilled.Pool.CastleSelection

/-!
# The drain of a worker

A worker boots, selects its issues, asks the trust gate about each, and processes those that the
gate admits one after the other until one of its reasons to stop holds. What the world answers is
stated with the drain: the gate by the issue it is asked about, the rest by the turn of the loop.
A call that throws ends the drain, which then returns nothing.

The lines that the drain prints and what it tells its hooks are left out.
-/
namespace Redskilled.Pool.WorkerDrain
open Foundation CastleSelection List

inductive Runner where
  | claude
  | codex
  | hermes
  | opencode
  | claudeMinimax
  deriving DecidableEq

inductive CastleWorkerOutcome where
  | done
  | claimLost
  | hookAborted
  | exhausted
  | runnerTransient
  | hostConfig
  | other (text : Text)
  deriving DecidableEq

structure CastleWorkerProcessResult where
  outcome : CastleWorkerOutcome
  reason : Option Text

inductive CastleIssueEligibility where
  | eligible
  | held (reason repair : Text) (repairReason : Option Text)
  deriving DecidableEq

structure CastleIssueHold where
  issue : ℕ
  reason : Text
  repair : Text
  repairReason : Option Text

structure BudgetSnapshot where
  used : ℕ
  cap : ℕ

inductive StopReason where
  | drainEmpty
  | lifetimeCap
  | budgetCap
  | supervisorKill
  | gracefulRetirement
  | iterCap
  | once
  | runnerUnavailable
  | hostConfig
  | exhausted

inductive SessionHook where
  | preSession
  | prePick
  | postPick
  | onIdle
  | postSession

inductive HookAnswer where
  | passed
  | aborted
  | threw
  deriving DecidableEq

structure DrainContext where
  runner : Runner
  /-- Not stated, or zero, for no cap. -/
  iterCap : Option ℕ
  once : Bool
  alternate : Bool
  bootOnly : Bool
  maxIssues : Option ℕ
  maxRuntimeMs : Option ℕ
  hostRunners : List Runner

/-- What the policy and the ports answer in one turn of the loop. -/
structure Turn where
  supervisorKilled : Bool
  budget : Option BudgetSnapshot
  elapsedMs : ℕ
  /-- None where the question throws; no circuit is a closed one. -/
  circuitOpen : Option Bool
  /-- None where processing throws. -/
  result : Option CastleWorkerProcessResult
  shouldRetire : Bool

structure World where
  /-- None where the boot throws. -/
  precheck : Option Bool
  quarantinedIssues : List ℕ
  hook : SessionHook → HookAnswer
  listed : Bool
  /-- None where the gate throws; without a gate all are eligible. -/
  classifyEligibility : CastleIssueCandidate → Option CastleIssueEligibility
  turn : ℕ → Turn

structure Processed where
  issue : ℕ
  outcome : CastleWorkerOutcome
  reason : Option Text

structure Summary where
  done : ℕ
  blocked : ℕ
  failed : ℕ
  total : ℕ
  heldForSummon : ℕ
  held : List CastleIssueHold
  processed : List Processed
  drained : Bool
  exhausted : Bool
  runnerTransient : Bool
  hostConfig : Bool
  stopReason : Option StopReason

def Summary.empty : Summary := ⟨0, 0, 0, 0, 0, [], [], false, false, false, false, none⟩

/-- The issues that were given to `processIssue`, and what the drain returned. -/
structure DrainRun where
  calls : List ℕ
  returned : Option Summary

def otherRunner (runner initial : Runner) : Runner :=
  if runner ≠ initial then initial
  else
    match initial with
    | .claudeMinimax => .claude
    | .claude => .codex
    | _ => .claude

inductive Bucket where
  | done
  | blocked
  | failed
  deriving DecidableEq

def classify : CastleWorkerOutcome → Bucket
  | .done => .done
  | .claimLost => .failed
  | .hookAborted => .failed
  | _ => .blocked

def budgetSpent : Option BudgetSnapshot → Bool
  | none => false
  | some snapshot => 0 < snapshot.cap && snapshot.cap ≤ snapshot.used

structure Loop where
  calls : List ℕ
  processed : List Processed
  done : ℕ
  blocked : ℕ
  failed : ℕ
  exhaustedStop : Bool
  runnerTransientStop : Bool
  hostConfigStop : Bool
  stopReason : Option StopReason
  activeRunner : Runner
  threw : Bool

section
variable (ctx : DrainContext) (world : World)

def Loop.start : Loop := ⟨[], [], 0, 0, 0, false, false, false, none, ctx.runner, false⟩

def stopBefore (cap i processed : ℕ) : Option StopReason :=
  if (world.turn i).supervisorKilled then some .supervisorKill
  else if budgetSpent (world.turn i).budget then some .budgetCap
  else if ctx.maxRuntimeMs.any (· ≤ (world.turn i).elapsedMs) then some .lifetimeCap
  else if ctx.maxIssues.any (· ≤ processed) then some .lifetimeCap
  else if cap ≤ i then some .iterCap
  else none

def Loop.record (l : Loop) (issue : ℕ) (result : CastleWorkerProcessResult) : Loop :=
  { l with
    calls := l.calls ++ [issue]
    processed := l.processed ++ [⟨issue, result.outcome, result.reason.filter (· ≠ [])⟩]
    done := l.done + if classify result.outcome = .done then 1 else 0
    blocked := l.blocked + if classify result.outcome = .blocked then 1 else 0
    failed := l.failed + if classify result.outcome = .failed then 1 else 0 }

def stopAfter (l : Loop) (i : ℕ) (outcome : CastleWorkerOutcome) : Option Loop :=
  if outcome = .exhausted then
    some { l with exhaustedStop := true, stopReason := some .exhausted }
  else if outcome = .runnerTransient then
    some { l with runnerTransientStop := true, stopReason := some .runnerUnavailable }
  else if outcome = .hostConfig then
    some { l with hostConfigStop := true, stopReason := some .hostConfig }
  else if ctx.once = true ∧ outcome ≠ .claimLost then some { l with stopReason := some .once }
  else if (world.turn i).shouldRetire then some { l with stopReason := some .gracefulRetirement }
  else none

def issueRunner (l : Loop) : Runner := if ctx.alternate then l.activeRunner else ctx.runner

def Loop.rotate (l : Loop) : Loop :=
  if ctx.alternate then { l with activeRunner := otherRunner l.activeRunner ctx.runner } else l

/-- An issue is given to `processIssue`. The loop goes on where the second part says so. -/
def processTurn (i : ℕ) (candidate : CastleIssueCandidate) (l : Loop) : Loop × Bool :=
  match (world.turn i).result with
  | none => ({ l with calls := l.calls ++ [candidate.number], threw := true }, false)
  | some result =>
    let l := l.record candidate.number result
    match stopAfter ctx world l i result.outcome with
    | some l => (l, false)
    | none => (l.rotate ctx, true)

def turnLoop (cap i : ℕ) (candidate : CastleIssueCandidate) (l : Loop) : Loop × Bool :=
  match stopBefore ctx world cap i l.processed.length with
  | some reason => ({ l with stopReason := some reason }, false)
  | none =>
    if issueRunner ctx l ∉ ctx.hostRunners then
      ({ l with stopReason := some .runnerUnavailable }, false)
    else
      match (world.turn i).circuitOpen with
      | none => ({ l with threw := true }, false)
      | some true =>
        ({ l with runnerTransientStop := true, stopReason := some .runnerUnavailable }, false)
      | some false => processTurn ctx world i candidate l

def loop (cap : ℕ) : ℕ → List CastleIssueCandidate → Loop → Loop
  | _, [], l => l
  | i, candidate :: queue, l =>
    if (turnLoop ctx world cap i candidate l).2 then
      loop cap (i + 1) queue (turnLoop ctx world cap i candidate l).1
    else (turnLoop ctx world cap i candidate l).1

def holdOf (c : CastleIssueCandidate) : Option CastleIssueHold :=
  match world.classifyEligibility c with
  | some (.held reason repair repairReason) => some ⟨c.number, reason, repair, repairReason⟩
  | _ => none

def eligible (selected : List CastleIssueCandidate) : List CastleIssueCandidate :=
  selected.filter fun c => world.classifyEligibility c = some .eligible

def cap (total : ℕ) : ℕ :=
  match ctx.iterCap with
  | some n => if 0 < n then n else total
  | none => total

def Loop.summary (l : Loop) (total : ℕ) (held : List CastleIssueHold) : Summary where
  done := l.done
  blocked := l.blocked
  failed := l.failed
  total := total
  heldForSummon := held.length
  held := held
  processed := l.processed
  drained := false
  exhausted := l.exhaustedStop
  runnerTransient := l.runnerTransientStop
  hostConfig := l.hostConfigStop
  stopReason := l.stopReason

def drainQueue (queue : List CastleIssueCandidate) (held : List CastleIssueHold) : DrainRun :=
  let l := loop ctx world (cap ctx queue.length) 0 queue (.start ctx)
  ⟨l.calls, if l.threw = true ∨ world.hook .postSession = .threw then none
    else some (l.summary queue.length held)⟩

def drainIdle (held : List CastleIssueHold) : DrainRun :=
  ⟨[], if world.hook .onIdle = .threw ∨ world.hook .postSession = .threw then none
    else
      some
        { Summary.empty with
          heldForSummon := held.length
          held := held
          drained := true
          stopReason := some .drainEmpty }⟩

def drainSelected (selected : List CastleIssueCandidate) : DrainRun :=
  if (selected.any fun c => world.classifyEligibility c = none) = true ∨
      world.hook .postPick = .threw then ⟨[], none⟩
  else if eligible world selected = [] then drainIdle world (selected.filterMap (holdOf world))
  else drainQueue ctx world (eligible world selected) (selected.filterMap (holdOf world))

variable (toLowerCase : Text → Text) (labels : CastleSelectionLabels)
  (poolLabel declaredLane : Text)

def selectedOf (candidates : List CastleIssueCandidate) (filter : CastleSelectionFilter) :
    Except CastleIssueSelectionError (List CastleIssueCandidate) :=
  selectCastleIssues toLowerCase labels poolLabel declaredLane
    (candidates.filter fun c => !world.quarantinedIssues.contains c.number) filter

def runCastleWorkerDrain (candidates : List CastleIssueCandidate)
    (filter : CastleSelectionFilter) : DrainRun :=
  match world.precheck with
  | none => ⟨[], none⟩
  | some false => ⟨[], some .empty⟩
  | some true =>
    if ctx.bootOnly then ⟨[], some .empty⟩
    else
      match world.hook .preSession with
      | .threw => ⟨[], none⟩
      | .aborted => ⟨[], some .empty⟩
      | .passed =>
        if world.hook .prePick = .threw ∨ world.listed = false then ⟨[], none⟩
        else
          match selectedOf world toLowerCase labels poolLabel declaredLane candidates
              filter with
          | .error _ => ⟨[], none⟩
          | .ok selected => drainSelected ctx world selected

/-- What a drain does with a selection: each eligible issue once, in order, up to its stop. -/
structure Drains (selected : List CastleIssueCandidate) (run : DrainRun) : Prop where
  nodup : run.calls.Nodup
  inOrder : run.calls <+: (eligible world selected).map (·.number)
  notHeld : ∀ c ∈ selected, world.classifyEligibility c ≠ some .eligible → c.number ∉ run.calls
  notQuarantined : ∀ number ∈ run.calls, number ∉ world.quarantinedIssues
  counted : ∀ summary ∈ run.returned,
    summary.done + summary.blocked + summary.failed = summary.processed.length ∧
      summary.processed.map Processed.issue = run.calls

def DrainsOnce (candidates : List CastleIssueCandidate) (filter : CastleSelectionFilter) : Prop :=
  match selectedOf world toLowerCase labels poolLabel declaredLane candidates filter with
  | .error _ => (runCastleWorkerDrain ctx world toLowerCase labels poolLabel declaredLane
      candidates filter).calls = []
  | .ok selected => Drains world selected (runCastleWorkerDrain ctx world toLowerCase labels
      poolLabel declaredLane candidates filter)

end

section
variable {ctx : DrainContext} {world : World}

structure Balanced (l : Loop) : Prop where
  counts : l.done + l.blocked + l.failed = l.processed.length
  issues : l.processed.map Processed.issue = l.calls

lemma Balanced.record {l : Loop} (h : Balanced l) (issue : ℕ)
    (result : CastleWorkerProcessResult) : Balanced (l.record issue result) := by
  have hcounts := h.counts
  constructor
  · simp only [Loop.record, length_append, length_singleton]
    cases classify result.outcome with
    | done => simp; omega
    | blocked => simp; omega
    | failed => simp; omega
  · simp [Loop.record, h.issues]

lemma stopAfter_spec {l l' : Loop} {i : ℕ} {outcome : CastleWorkerOutcome}
    (h : stopAfter ctx world l i outcome = some l') :
    l'.calls = l.calls ∧ (Balanced l → Balanced l') := by
  unfold stopAfter at h
  split_ifs at h
  all_goals
    cases h
    exact ⟨rfl, fun hl => ⟨hl.counts, hl.issues⟩⟩

lemma Balanced.rotate {l : Loop} (h : Balanced l) : Balanced (l.rotate ctx) := by
  unfold Loop.rotate
  split_ifs
  · exact ⟨h.counts, h.issues⟩
  · exact h

lemma rotate_calls (l : Loop) : (l.rotate ctx).calls = l.calls := by
  unfold Loop.rotate
  split_ifs
  · rfl
  · rfl

/-- A turn gives its own issue to `processIssue` or none, and one that goes on has given it. -/
structure Turns (candidate : CastleIssueCandidate) (l : Loop) (r : Loop × Bool) : Prop where
  calls : r.1.calls = l.calls ∨ r.1.calls = l.calls ++ [candidate.number]
  goesOn : r.2 = true → r.1.calls = l.calls ++ [candidate.number] ∧ (Balanced l → Balanced r.1)
  balanced : Balanced l → r.1.threw = false → Balanced r.1

lemma turns_processTurn (i : ℕ) (candidate : CastleIssueCandidate) (l : Loop) :
    Turns candidate l (processTurn ctx world i candidate l) := by
  unfold processTurn
  cases (world.turn i).result with
  | none =>
    constructor
    · exact .inr rfl
    · intro h
      cases h
    · intro _ hthr
      cases hthr
  | some result =>
    simp only
    cases hstop : stopAfter ctx world (l.record candidate.number result) i result.outcome with
    | some l' =>
      obtain ⟨hcalls, hbal⟩ := stopAfter_spec hstop
      constructor
      · exact .inr hcalls
      · intro h
        cases h
      · intro hl _
        exact hbal (hl.record _ _)
    | none =>
      constructor
      · exact .inr (rotate_calls _)
      · intro _
        exact ⟨rotate_calls _, fun hl => (hl.record _ _).rotate⟩
      · intro hl _
        exact (hl.record _ _).rotate

variable (ctx world) in
lemma turns_turnLoop (cap i : ℕ) (candidate : CastleIssueCandidate) (l : Loop) :
    Turns candidate l (turnLoop ctx world cap i candidate l) := by
  have hstopp : ∀ l' : Loop, l'.calls = l.calls → (Balanced l → l'.threw = false → Balanced l') →
      Turns candidate l (l', false) := by
    intro l' hcalls hbal
    constructor
    · exact .inl hcalls
    · intro h
      cases h
    · exact hbal
  unfold turnLoop
  cases stopBefore ctx world cap i l.processed.length with
  | some reason => exact hstopp _ rfl fun hl _ => ⟨hl.counts, hl.issues⟩
  | none =>
    simp only
    by_cases hrunn : issueRunner ctx l ∉ ctx.hostRunners
    · rw [if_pos hrunn]
      exact hstopp _ rfl fun hl _ => ⟨hl.counts, hl.issues⟩
    rw [if_neg hrunn]
    cases (world.turn i).circuitOpen with
    | none => exact hstopp _ rfl fun _ hthr => by cases hthr
    | some isOpen =>
      cases isOpen with
      | true => exact hstopp _ rfl fun hl _ => ⟨hl.counts, hl.issues⟩
      | false => exact turns_processTurn i candidate l

variable (ctx world) in
lemma loop_spec (cap i : ℕ) (queue : List CastleIssueCandidate) (l : Loop) :
    (∃ k : ℕ, (loop ctx world cap i queue l).calls = l.calls ++ (queue.take k).map (·.number)) ∧
      (Balanced l → (loop ctx world cap i queue l).threw = false →
        Balanced (loop ctx world cap i queue l)) := by
  induction queue generalizing i l with
  | nil => exact ⟨⟨0, by simp [loop]⟩, fun hl _ => hl⟩
  | cons candidate queue ih =>
    have hturn := turns_turnLoop ctx world cap i candidate l
    rw [loop]
    split_ifs with hgoes
    · obtain ⟨⟨k, hk⟩, hbal⟩ := ih (i + 1) (turnLoop ctx world cap i candidate l).1
      obtain ⟨hcalls, hturned⟩ := hturn.goesOn hgoes
      constructor
      · refine ⟨k + 1, ?_⟩
        rw [hk, hcalls]
        simp
      · intro hl
        exact hbal (hturned hl)
    · constructor
      · rcases hturn.calls with hcalls | hcalls
        · exact ⟨0, by simp [hcalls]⟩
        · exact ⟨1, by simp [hcalls]⟩
      · exact hturn.balanced

lemma balanced_start : Balanced (.start ctx) := ⟨rfl, rfl⟩

variable (ctx world) in
lemma drainSelected_spec (selected : List CastleIssueCandidate) :
    (drainSelected ctx world selected).calls <+: (eligible world selected).map (·.number) ∧
      ∀ summary ∈ (drainSelected ctx world selected).returned,
        summary.done + summary.blocked + summary.failed = summary.processed.length ∧
          summary.processed.map Processed.issue = (drainSelected ctx world selected).calls := by
  unfold drainSelected
  split_ifs with hthr hqueue
  · refine ⟨List.nil_prefix, ?_⟩
    intro summary h
    cases h
  · refine ⟨List.nil_prefix, ?_⟩
    intro summary h
    unfold drainIdle at h
    split_ifs at h
    · cases h
    · cases h
      exact ⟨rfl, rfl⟩
  · obtain ⟨⟨k, hk⟩, hbal⟩ := loop_spec ctx world
      (cap ctx (eligible world selected).length) 0 (eligible world selected) (.start ctx)
    constructor
    · have hcalls : (drainQueue ctx world (eligible world selected)
          (selected.filterMap (holdOf world))).calls =
            ((eligible world selected).take k).map (·.number) := hk
      rw [hcalls]
      exact (List.take_prefix k (eligible world selected)).map _
    · intro summary h
      unfold drainQueue at h
      simp only at h
      split_ifs at h with hloop
      · cases h
      · cases h
        obtain ⟨hcounts, hiss⟩ := hbal balanced_start
          (Bool.eq_false_of_not_eq_true (not_or.mp hloop).1)
        exact ⟨hcounts, hiss⟩

end

section
variable {ctx : DrainContext} {world : World} {toLowerCase : Text → Text}
  {labels : CastleSelectionLabels} {poolLabel declaredLane : Text}
  {candidates : List CastleIssueCandidate} {filter : CastleSelectionFilter}

lemma givenOnce_filter (p : CastleIssueCandidate → Bool)
    (h : GivenOnce toLowerCase labels poolLabel candidates filter) :
    GivenOnce toLowerCase labels poolLabel (candidates.filter p) filter := by
  cases filter with
  | all => trivial
  | spec spec => trivial
  | selector selector => trivial
  | issues numbers =>
    rcases h with ⟨number, hnumb, hnone⟩ | honce
    · exact .inl ⟨number, hnumb, fun c hc => hnone c (mem_filter.mp hc).1⟩
    · exact .inr fun c hc => honce c (mem_filter.mp hc).1

lemma drains_of_selects {selected : List CastleIssueCandidate} {run : DrainRun}
    (hsel : Selects toLowerCase labels poolLabel
      (candidates.filter fun c => !world.quarantinedIssues.contains c.number) filter selected)
    (hord : run.calls <+: (eligible world selected).map (·.number))
    (hcount : ∀ summary ∈ run.returned,
      summary.done + summary.blocked + summary.failed = summary.processed.length ∧
        summary.processed.map Processed.issue = run.calls) :
    Drains world selected run := by
  have hsubl : run.calls.Sublist (selected.map (·.number)) :=
    hord.sublist.trans (filter_sublist.map _)
  constructor
  · exact hsel.nodup.sublist hsubl
  · exact hord
  · intro c hc hheld hcalled
    obtain ⟨c', hc', hnumb⟩ := mem_map.mp (hord.subset hcalled)
    obtain ⟨hmem, heligible⟩ := mem_filter.mp hc'
    have heq : c' = c := numbers_injective hsel.nodup hmem hc hnumb
    subst heq
    exact hheld (by simpa using heligible)
  · intro number hcalled hquar
    obtain ⟨c, hc, rfl⟩ := mem_map.mp (hsubl.subset hcalled)
    have hkept := (mem_filter.mp (hsel.consulted c hc).1).2
    simp [hquar] at hkept
  · exact hcount

lemma run_cases (ctx : DrainContext) (world : World) (toLowerCase : Text → Text)
    (labels : CastleSelectionLabels) (poolLabel declaredLane : Text)
    (candidates : List CastleIssueCandidate) (filter : CastleSelectionFilter) :
    (∃ returned : Option Summary, (returned = none ∨ returned = some .empty) ∧
        runCastleWorkerDrain ctx world toLowerCase labels poolLabel declaredLane candidates
          filter = ⟨[], returned⟩) ∨
      ∃ selected, selectedOf world toLowerCase labels poolLabel declaredLane candidates filter =
          .ok selected ∧
        runCastleWorkerDrain ctx world toLowerCase labels poolLabel declaredLane candidates
          filter = drainSelected ctx world selected := by
  unfold runCastleWorkerDrain
  cases world.precheck with
  | none => exact .inl ⟨_, .inl rfl, rfl⟩
  | some ok =>
    cases ok with
    | false => exact .inl ⟨_, .inr rfl, rfl⟩
    | true =>
      simp only
      by_cases hboot : ctx.bootOnly = true
      · rw [if_pos hboot]
        exact .inl ⟨_, .inr rfl, rfl⟩
      rw [if_neg hboot]
      cases world.hook .preSession with
      | threw => exact .inl ⟨_, .inl rfl, rfl⟩
      | aborted => exact .inl ⟨_, .inr rfl, rfl⟩
      | passed =>
        simp only
        by_cases hlist : world.hook .prePick = .threw ∨ world.listed = false
        · rw [if_pos hlist]
          exact .inl ⟨_, .inl rfl, rfl⟩
        rw [if_neg hlist]
        cases selectedOf world toLowerCase labels poolLabel declaredLane candidates
            filter with
        | error error => exact .inl ⟨_, .inl rfl, rfl⟩
        | ok selected => exact .inr ⟨selected, rfl, rfl⟩

lemma drainsOnce_of_given (hcandidates : (candidates.map (·.number)).Nodup)
    (hgiv : GivenOnce toLowerCase labels poolLabel candidates filter) :
    DrainsOnce ctx world toLowerCase labels poolLabel declaredLane candidates filter := by
  have hkept : ((candidates.filter fun c =>
      !world.quarantinedIssues.contains c.number).map (·.number)).Nodup :=
    hcandidates.sublist (filter_sublist.map _)
  have hsel := (selects_iff declaredLane hkept).mpr
    (givenOnce_filter _ hgiv)
  have hrun := run_cases ctx world toLowerCase labels poolLabel declaredLane candidates filter
  unfold DrainsOnce
  cases hselect : selectedOf world toLowerCase labels poolLabel declaredLane candidates
      filter with
  | error error =>
    rcases hrun with ⟨returned, -, hrun⟩ | ⟨selected, hsel', -⟩
    · simp only
      rw [hrun]
    · rw [hselect] at hsel'
      cases hsel'
  | ok selected =>
    simp only
    have hright := hsel selected hselect
    rcases hrun with ⟨returned, hret, hrun⟩ | ⟨selected', hsel', hrun⟩
    · rw [hrun]
      apply drains_of_selects hright nil_prefix
      intro summary h
      rcases hret with rfl | rfl
      · cases h
      · cases h
        exact ⟨rfl, rfl⟩
    · obtain rfl := Except.ok.inj (hselect.symm.trans hsel')
      obtain ⟨hord, hcount⟩ := drainSelected_spec ctx world selected
      rw [hrun]
      exact drains_of_selects hright hord hcount

end

/-- The right issues are selected and each is processed at most once, in order, if and only if
the filter gives no issue twice that it selects and that is not urgent. -/
theorem drains_right_iff (toLowerCase : Text → Text) (labels : CastleSelectionLabels)
    (poolLabel declaredLane : Text) (candidates : List CastleIssueCandidate)
    (filter : CastleSelectionFilter) (hcandidates : (candidates.map (·.number)).Nodup) :
    ((∀ selected, selectCastleIssues toLowerCase labels poolLabel declaredLane candidates
          filter = .ok selected →
        Selects toLowerCase labels poolLabel candidates filter selected) ∧
      ∀ (ctx : DrainContext) (world : World),
        DrainsOnce ctx world toLowerCase labels poolLabel declaredLane candidates filter) ↔
      GivenOnce toLowerCase labels poolLabel candidates filter := by
  constructor
  · intro h
    exact (selects_iff declaredLane hcandidates).mp h.1
  · intro hgiv
    exact ⟨(selects_iff declaredLane hcandidates).mpr hgiv, fun ctx world =>
      drainsOnce_of_given hcandidates hgiv⟩

def plainLabels : CastleSelectionLabels := ⟨['s'], ['u'], ['h'], []⟩

def plainCandidate (number : ℕ) : CastleIssueCandidate := ⟨number, [], [], none⟩

theorem drains_five_and_six :
    ((∀ selected, selectCastleIssues id plainLabels [] [] [plainCandidate 5, plainCandidate 6]
          (.issues [6, 5]) = .ok selected →
        Selects id plainLabels [] [plainCandidate 5, plainCandidate 6] (.issues [6, 5])
          selected) ∧
      ∀ (ctx : DrainContext) (world : World),
        DrainsOnce ctx world id plainLabels [] [] [plainCandidate 5, plainCandidate 6]
          (.issues [6, 5])) := by
  refine (drains_right_iff id plainLabels [] [] [plainCandidate 5, plainCandidate 6]
    (.issues [6, 5]) (by decide)).mpr (.inr ?_)
  intro c _ _ _
  have hnod : ([6, 5] : List ℕ).Nodup := by decide
  exact nodup_iff_count_le_one.mp hnod c.number

/-- A number that is listed twice in the filter is selected twice. -/
theorem given_twice_selected_twice :
    ¬ ∀ (toLowerCase : Text → Text) (labels : CastleSelectionLabels)
      (poolLabel declaredLane : Text) (candidates : List CastleIssueCandidate)
      (filter : CastleSelectionFilter), (candidates.map (·.number)).Nodup →
        (∀ selected, selectCastleIssues toLowerCase labels poolLabel declaredLane candidates
            filter = .ok selected →
          Selects toLowerCase labels poolLabel candidates filter selected) ∧
        ∀ (ctx : DrainContext) (world : World),
          DrainsOnce ctx world toLowerCase labels poolLabel declaredLane candidates filter := by
  intro h
  have hsel := (h id plainLabels [] [] [plainCandidate 5] (.issues [5, 5]) (by decide)).1
    [plainCandidate 5, plainCandidate 5] (by decide +kernel)
  exact absurd hsel.nodup (by decide)

end Redskilled.Pool.WorkerDrain
