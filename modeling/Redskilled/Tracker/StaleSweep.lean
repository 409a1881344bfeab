import Mathlib.Algebra.Order.Ring.Rat
import Redskilled.Tracker.ClaimStaleness

/-!
# The sweep of stale claims

An issue goes back to the pool when no live claim holds it. A claim is stale when its owner is
proven dead on this host, or when its last marker is older than the staleness window and the
owner is not proven alive. A commit on the attempt branch inside the protection window keeps an
issue whose claims are stale by age alone. An issue whose workers have all conceded goes back
whatever its branch says: it is only its label that still calls it claimed.
-/
namespace Redskilled.Tracker.StaleSweep
open Foundation Foundation.Text ClaimMarker ClaimReconcile ClaimStaleness

structure ClaimStalenessConfig where
  refreshCadenceS : ℚ
  tolerance : ℚ

structure ClaimReaperConfig extends ClaimStalenessConfig where
  claimGraceS : ℚ
  recentCommitProtectionS : ℚ

def defaultClaimReaper : ClaimReaperConfig where
  refreshCadenceS := 270
  tolerance := 3
  claimGraceS := 270
  recentCommitProtectionS := 2700

inductive ClaimFreshness where
  | fresh | stale
  deriving DecidableEq

def staleWindowS (config : ClaimStalenessConfig) : ℚ :=
  config.refreshCadenceS * (config.tolerance + 1)

structure ClaimedIssue where
  issue : Nat
  records : List ClaimRecord
  attemptBranchCommitS : Option ℚ := none
  deadOwners : List Text := []
  liveOwners : List Text := []

structure StaleClaimRelease where
  issue : Nat
  staleOwners : List Text
  concededOwners : Option (List Text) := none
  deriving DecidableEq

def isRecentAttemptCommit (commitS : Option ℚ) (nowS windowS : ℚ) : Bool :=
  commitS.any fun commitS => nowS - commitS ≤ windowS

section
/-! `parse` is `Date.parse`; `none` is what it answers with `NaN`. -/
variable (parse : Text → Option ℤ)

def recordEpochS (record : ClaimRecord) : Option ℤ :=
  (truthy record.createdAt).bind fun createdAt => (parse createdAt).map (· / 1000)

/-- A staleness policy that is not a reaper's has no grace. -/
def classifyClaim (record : ClaimRecord) (nowS : ℚ) (config : ClaimStalenessConfig)
    (claimGraceS : Option ℚ) : ClaimFreshness :=
  match recordEpochS parse record with
  | none => .fresh
  | some ts =>
    if claimGraceS.any (nowS - ts ≤ ·) then .fresh
    else if nowS - ts ≤ staleWindowS config then .fresh
    else .stale

def makeStaleClaimPredicate (nowS : ℚ) (config : ClaimReaperConfig) (record : ClaimRecord) : Bool :=
  classifyClaim parse record nowS config.toClaimStalenessConfig (some config.claimGraceS) = .stale

variable (nowS : ℚ) (config : ClaimReaperConfig)

/-- The staleness of one issue's records: what this host knows of a process goes before age. -/
def isStaleOn (c : ClaimedIssue) (record : ClaimRecord) : Bool :=
  if record.worker ∈ c.liveOwners then false
  else record.worker ∈ c.deadOwners || makeStaleClaimPredicate parse nowS config record

def planRelease (c : ClaimedIssue) : Option StaleClaimRelease :=
  let state := classifyIssueClaims (isStaleOn parse nowS config c) c.records
  if state.liveOwner = none ∧ state.staleOwners ≠ [] then
    let hasDeadOwner := state.staleOwners.any fun owner => owner ∈ c.deadOwners
    if !hasDeadOwner && isRecentAttemptCommit c.attemptBranchCommitS nowS
        config.recentCommitProtectionS then none
    else some { issue := c.issue, staleOwners := state.staleOwners }
  else if state.liveOwner = none ∧ state.staleOwners = [] ∧ state.concededOwners ≠ [] then
    some { issue := c.issue, staleOwners := [], concededOwners := some state.concededOwners }
  else none

def planStaleClaimSweep (claimed : List ClaimedIssue) : List StaleClaimRelease :=
  claimed.filterMap (planRelease parse nowS config)

end

def Claims (records : List ClaimRecord) (w : Text) (r : ClaimRecord) : Prop :=
  w ≠ [] ∧ Latest records w r ∧ r.kind = .claim

section
variable {parse : Text → Option ℤ} {nowS : ℚ} {config : ClaimReaperConfig} {c : ClaimedIssue}
  {release : StaleClaimRelease} {isStale : ClaimRecord → Bool} {records : List ClaimRecord}
  {w : Text} {r : ClaimRecord}

lemma Claims.stands (h : Claims records w r) : ∃ id, Stands records w r id := by
  obtain ⟨-, hlat, hkind⟩ := h
  obtain ⟨id, hid⟩ := exists_earliest hlat.mem hlat.worker hkind
  exact ⟨id, hlat, hkind, hid⟩

lemma stale_of_claims (hlive : (classifyIssueClaims isStale records).liveOwner = none)
    (h : Claims records w r) : isStale r = true := by
  obtain ⟨id, hstands⟩ := h.stands
  by_contra hfresh
  exact liveOwner_none.mp hlive w id ⟨h.1, r, hstands, by simpa using hfresh⟩

lemma mem_staleOwners : w ∈ (classifyIssueClaims isStale records).staleOwners ↔
    ∃ r, Claims records w r ∧ isStale r = true := by
  rw [classifyIssueClaims, mem_sortOwners, mem_scan_stale]
  constructor
  · rintro ⟨f, id, hf, hid, hstale⟩
    have hlook : (foldRecords records).lookup w = some f := AList.mem_lookup_iff.mpr hf
    have hw : w ≠ [] := by
      rintro rfl
      exact foldRecords_unnamed hlook
    obtain ⟨hlat, hkind, -⟩ := (lookup_iff hw).mp ⟨f, hlook, hid, rfl⟩
    exact ⟨f.latestRecord, ⟨hw, hlat, hkind⟩, hstale⟩
  · rintro ⟨r, hclaims, hstale⟩
    obtain ⟨id, hstands⟩ := hclaims.stands
    obtain ⟨f, hf, hid, rfl⟩ := (lookup_iff hclaims.1).mpr hstands
    exact ⟨f, id, AList.mem_lookup_iff.mp hf, hid, hstale⟩

lemma planRelease_cases (h : planRelease parse nowS config c = some release) :
    release.issue = c.issue ∧
      (classifyIssueClaims (isStaleOn parse nowS config c) c.records).liveOwner = none ∧
      (((∃ w r, Claims c.records w r ∧ w ∈ c.deadOwners) ∨
          isRecentAttemptCommit c.attemptBranchCommitS nowS config.recentCommitProtectionS = false) ∨
        ∀ w r, ¬ Claims c.records w r) := by
  unfold planRelease at h
  dsimp only at h
  split_ifs at h with hheld hrec hconc
  · cases h
    refine ⟨rfl, hheld.1, Or.inl ?_⟩
    rw [Bool.not_eq_true, Bool.and_eq_false_iff] at hrec
    rcases hrec with hdead | hquiet
    · rw [Bool.not_eq_false', List.any_eq_true] at hdead
      obtain ⟨owner, howner, hdead⟩ := hdead
      obtain ⟨r, hclaims, -⟩ := mem_staleOwners.mp howner
      exact Or.inl ⟨owner, r, hclaims, of_decide_eq_true hdead⟩
    · exact Or.inr hquiet
  · cases h
    obtain ⟨hlive, hstale, -⟩ := hconc
    refine ⟨rfl, hlive, Or.inr ?_⟩
    intro w r hclaims
    have hmem := mem_staleOwners.mpr ⟨r, hclaims, stale_of_claims hlive hclaims⟩
    rw [hstale] at hmem
    exact absurd hmem List.not_mem_nil

lemma next_wins (hlive : (classifyIssueClaims isStale records).liveOwner = none)
    {claimant : ClaimSelf} (hnam : claimant.worker ≠ [])
    (hnew : ∀ r ∈ records, r.commentId < claimant.commentId) :
    ∃ d, reconcileClaim isStale records claimant = .ok d ∧ d.verdict = .won := by
  have hfresh : selfPostedFresh records claimant = true := by
    rw [selfPostedFresh, List.all_eq_true]
    intro r hr
    exact decide_eq_true (hnew r hr).le
  have hlat : Latest (records ++ [claimant.record]) claimant.worker claimant.record :=
    latest_snoc fun a ha _ => (hnew a ha).le
  have hown : ∀ d ∈ contenders isStale records claimant, d.worker = claimant.worker := by
    intro d hd
    by_contra hne
    obtain ⟨f, hf, hid, hkeep⟩ := mem_contendersOf.mp hd
    have hfold : folds records claimant = ingest (foldRecords records) claimant.record := by
      simp [folds, foldRecords, List.foldl_append]
    rw [hfold, lookup_ingest, if_neg fun h => hne h.2] at hf
    have hw : d.worker ≠ [] := by
      intro hw
      rw [hw] at hf
      exact foldRecords_unnamed hf
    have hliv : isStale f.latestRecord = false := by simpa [isDropped, hne] using hkeep
    exact liveOwner_none.mp hlive d.worker d.claimId
      ⟨hw, f.latestRecord, (lookup_iff hw).mp ⟨f, hf, hid, rfl⟩, hliv⟩
  have hmem : ∃ id, (⟨claimant.worker, id⟩ : Contender) ∈ contenders isStale records claimant := by
    have hclaims : Claims (records ++ [claimant.record]) claimant.worker claimant.record :=
      ⟨hnam, hlat, rfl⟩
    obtain ⟨id, hstands⟩ := hclaims.stands
    obtain ⟨f, hf, hid, -⟩ := (lookup_iff hnam).mpr hstands
    exact ⟨id, mem_contendersOf.mpr ⟨f, hf, hid, by simp [isDropped, hfresh]⟩⟩
  obtain ⟨id, hmem⟩ := hmem
  cases hsort : (contenders isStale records claimant).insertionSort Contender.precedes with
  | nil =>
    rw [← List.mem_insertionSort Contender.precedes, hsort] at hmem
    exact absurd hmem List.not_mem_nil
  | cons winner rest =>
    have hwinn := hown winner (head_contenders hsort).1
    unfold reconcileClaim
    rw [if_neg hnam, hsort]
    dsimp only
    rw [if_pos hwinn]
    exact ⟨_, rfl, rfl⟩

end

/-- What the sweep keeps to in releasing an issue. -/
structure Unrobbed (parse : Text → Option ℤ) (nowS : ℚ) (config : ClaimReaperConfig)
    (c : ClaimedIssue) : Prop where
  /-- Whoever stands by a claim is not proven alive, and dead or past the window. -/
  gone : ∀ w r, Claims c.records w r → w ∉ c.liveOwners ∧
    (w ∈ c.deadOwners ∨ classifyClaim parse r nowS config.toClaimStalenessConfig
      (some config.claimGraceS) = .stale)
  /-- Where a claim stands and no owner is dead, the branch is quiet. -/
  quiet : (∃ w r, Claims c.records w r) → (∃ w r, Claims c.records w r ∧ w ∈ c.deadOwners) ∨
    ∀ commitS, c.attemptBranchCommitS = some commitS →
      config.recentCommitProtectionS < nowS - commitS
  /-- The next claimant wins. -/
  next : ∀ claimant : ClaimSelf, claimant.worker ≠ [] →
    (∀ r ∈ c.records, r.commentId < claimant.commentId) →
    ∃ d, reconcileClaim (isStaleOn parse nowS config c) c.records claimant = .ok d ∧
      d.verdict = .won

/-- Every release that a sweep plans is for an issue that it takes from nobody. -/
theorem sweep_robs_nobody (parse : Text → Option ℤ) (nowS : ℚ) (config : ClaimReaperConfig)
    (claimed : List ClaimedIssue) :
    ∀ release ∈ planStaleClaimSweep parse nowS config claimed,
      ∃ c ∈ claimed, release.issue = c.issue ∧ Unrobbed parse nowS config c := by
  intro release hrel
  obtain ⟨c, hc, hplan⟩ := List.mem_filterMap.mp hrel
  obtain ⟨hiss, hlive, hwhy⟩ := planRelease_cases hplan
  refine ⟨c, hc, hiss, ⟨?_, ?_, ?_⟩⟩
  · intro w r hclaims
    have hstale := stale_of_claims hlive hclaims
    have hwork : r.worker = w := hclaims.2.1.worker
    unfold isStaleOn at hstale
    split_ifs at hstale with halive
    rw [hwork] at halive hstale
    simp only [Bool.or_eq_true, decide_eq_true_eq, makeStaleClaimPredicate] at hstale
    exact ⟨halive, hstale⟩
  · rintro ⟨w, r, hclaims⟩
    rcases hwhy with (hdead | hquiet) | hnob
    · exact Or.inl hdead
    · refine Or.inr ?_
      intro commitS hcomm
      rw [isRecentAttemptCommit, hcomm, Option.any_some, decide_eq_false_iff_not, not_le] at hquiet
      exact hquiet
    · exact absurd hclaims (hnob w r)
  · intro claimant hnam hnew
    exact next_wins hlive hnam hnew

section

def concedeOf (worker : Text) (id : Nat) : ClaimRecord :=
  { commentId := id, worker, kind := .concede, runner := none, createdAt := none }

def abandoned : ClaimedIssue :=
  { issue := 7, records := [concedeOf ['a'] 1], attemptBranchCommitS := some 5000 }

/-- All claims are conceded, and the label goes although a commit is recent. -/
theorem conceded_while_moving :
    ¬ ∀ parse nowS config claimed, ∀ release ∈ planStaleClaimSweep parse nowS config claimed,
      ∃ c ∈ claimed, release.issue = c.issue ∧ ((∃ w r, Claims c.records w r ∧ w ∈ c.deadOwners) ∨
          ∀ commitS, c.attemptBranchCommitS = some commitS →
            config.recentCommitProtectionS < nowS - commitS) := by
  intro h
  have hplan : planStaleClaimSweep (fun _ => none) 5000 defaultClaimReaper [abandoned] =
      [{ issue := 7, staleOwners := [], concededOwners := some [['a']] }] := by
    decide +kernel
  obtain ⟨c, hc, -, hwhy⟩ := h (fun _ => none) 5000 defaultClaimReaper [abandoned] _
    (by rw [hplan]; exact List.mem_singleton_self _)
  obtain rfl := List.mem_singleton.mp hc
  rcases hwhy with ⟨w, r, -, hdead⟩ | hquiet
  · exact absurd hdead List.not_mem_nil
  · have hlt := hquiet 5000 rfl
    exact absurd hlt (by decide +kernel)

def ghost : ClaimedIssue where
  issue := 8
  records := [{ commentId := 3, worker := ['a'], kind := .claim, runner := none, createdAt := none }]
  attemptBranchCommitS := some 5000
  deadOwners := [['a']]

theorem ghost_released :
    ∃ release ∈ planStaleClaimSweep (fun _ => none) 5000 defaultClaimReaper [ghost],
      ∃ c ∈ [ghost], release.issue = c.issue ∧
        Unrobbed (fun _ => none) 5000 defaultClaimReaper c := by
  have hplan : planStaleClaimSweep (fun _ => none) 5000 defaultClaimReaper [ghost] =
      [{ issue := 8, staleOwners := [['a']] }] := by
    decide +kernel
  have hmem : ({ issue := 8, staleOwners := [['a']] } : StaleClaimRelease) ∈
      planStaleClaimSweep (fun _ => none) 5000 defaultClaimReaper [ghost] := by
    rw [hplan]
    exact List.mem_singleton_self _
  exact ⟨_, hmem, sweep_robs_nobody (fun _ => none) 5000 defaultClaimReaper [ghost] _ hmem⟩

end

end Redskilled.Tracker.StaleSweep
