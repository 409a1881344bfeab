import Redskilled.Foundation.JsMap
import Redskilled.Foundation.Machine
import Redskilled.Tracker.StateTransition

/-!
# The quarantine curator

A sweep lists the open issues under quarantine and checks each. A coherent one is released, one
that is incoherent is counted, and parked for a human when the count has reached the limit. The
counts are stored between the sweeps. Closed issues that still carry a state lose it, and with it
their count.

A sweep is stated with what the tracker and the store answer it. Between two sweeps the tracker
may change in any way, so nothing ties one listing to the next. An issue is counted by its number,
of which the keys of the store are the texts.
-/
namespace Redskilled.Tracker.QuarantineCurator
open Foundation List

structure TrackerIssue where
  number : ℕ
  body : Text
  labels : List Text

structure Failure where
  count : ℕ
  lastCheckedAt : Text

abbrev FailedChecks := JsMap ℕ Failure

/-- A listed issue, and whether the tracker takes the edits that are asked for it. -/
structure Listed where
  issue : TrackerIssue
  bodyEdited : Bool
  labelsEdited : Bool

structure SweepInput where
  time : Text
  recheckLimit : ℕ
  /-- Absent where the store cannot be read, or the tracker cannot list. -/
  listing : Option (List Listed)
  bodies : Bool
  /-- The closed issues with a state; none where they cannot be listed. -/
  closed : List Listed
  written : Bool

inductive Edit where
  | body (issue : ℕ) (text : Text)
  | labels (issue : ℕ) (plan : TransitionPlan)

structure Sweep where
  failedChecks : FailedChecks
  edits : List Edit
  released : List ℕ
  parked : List ℕ
  reconciled : List ℕ

def Sweep.start (stored : FailedChecks) : Sweep := ⟨stored, [], [], [], []⟩

section
variable (labels : StateTransitionLabels) (hasActiveCurrentBlocker : Text → Bool)

def incoherentStateLabels : List Text :=
  [labels.ready, labels.human, labels.running, labels.needsTriage]

def quarantineIncoherence (issue : TrackerIssue) : List Text :=
  (if hasActiveCurrentBlocker issue.body then ["active-current-blocker".toList] else []) ++
    (issue.labels.filter fun label =>
      label ∈ incoherentStateLabels labels ∨ labels.blockedPrefix <+: label).map
        fun label => "state-label:".toList ++ label

def releaseMarker (number : ℕ) : Text :=
  "<!-- afk:quarantine-release v1 issue=#".toList ++ Text.number number ++ " -->".toList

def appendReleaseNote (issue : TrackerIssue) (time : Text) : Text :=
  if releaseMarker issue.number <:+: issue.body then issue.body
  else
    issue.body.rdropWhile Text.isWhitespace ++ "\n\n".toList ++ releaseMarker issue.number ++
      "\n🤖 Quarantine curator auto-released after coherence was restored (".toList ++ time ++
      ").\n".toList

def plan (issue : TrackerIssue) (t : StateTransition ℕ) : Except Text TransitionPlan :=
  labels.planTransition Text.number issue.labels t

def release (s : SweepInput) (l : Listed) (sweep : Sweep) : Sweep :=
  match plan labels l.issue .queue with
  | .error _ => sweep
  | .ok release =>
    if s.bodies = true ∧ l.bodyEdited = true then
      let edits := sweep.edits ++ [Edit.body l.issue.number (appendReleaseNote l.issue s.time)]
      if l.labelsEdited then
        { sweep with
          failedChecks := sweep.failedChecks.erase l.issue.number
          edits := edits ++ [Edit.labels l.issue.number release]
          released := sweep.released ++ [l.issue.number] }
      else { sweep with edits := edits }
    else sweep

def countOf (failedChecks : FailedChecks) (issue : ℕ) : ℕ :=
  ((failedChecks.lookup issue).map Failure.count).getD 0

def park (s : SweepInput) (l : Listed) (sweep : Sweep) : Sweep :=
  let count := countOf sweep.failedChecks l.issue.number + 1
  let failedChecks := sweep.failedChecks.set l.issue.number ⟨count, s.time⟩
  if count < s.recheckLimit then { sweep with failedChecks := failedChecks }
  else
    match plan labels l.issue .human with
    | .error _ => { sweep with failedChecks := failedChecks }
    | .ok park =>
      if l.labelsEdited then
        { sweep with
          failedChecks := failedChecks.erase l.issue.number
          edits := sweep.edits ++ [Edit.labels l.issue.number park]
          parked := sweep.parked ++ [l.issue.number] }
      else { sweep with failedChecks := failedChecks }

def check (s : SweepInput) (sweep : Sweep) (l : Listed) : Sweep :=
  if quarantineIncoherence labels hasActiveCurrentBlocker l.issue = [] then
    release labels s l sweep
  else park labels s l sweep

def residue (issue : TrackerIssue) : Option TransitionPlan :=
  match plan labels issue .close with
  | .error _ => none
  | .ok close => if close.remove = [] ∧ close.add = [] then none else some close

def reconcile (sweep : Sweep) (l : Listed) : Sweep :=
  match residue labels l.issue with
  | none => sweep
  | some close =>
    if l.labelsEdited then
      { sweep with
        failedChecks := sweep.failedChecks.erase l.issue.number
        edits := sweep.edits ++ [Edit.labels l.issue.number close]
        reconciled := sweep.reconciled ++ [l.issue.number] }
    else sweep

/-- Absent where the sweep fails before it has a listing. -/
def runIssueStateCurator (stored : FailedChecks) (s : SweepInput) : Option Sweep :=
  s.listing.map fun listing =>
    s.closed.foldl (reconcile labels)
      (listing.foldl (check labels hasActiveCurrentBlocker s) (.start stored))

def parkedBy (stored : FailedChecks) (s : SweepInput) : List ℕ :=
  ((runIssueStateCurator labels hasActiveCurrentBlocker stored s).map Sweep.parked).getD []

def storedAfter (stored : FailedChecks) (s : SweepInput) : FailedChecks :=
  match runIssueStateCurator labels hasActiveCurrentBlocker stored s with
  | none => stored
  | some sweep => if s.written then sweep.failedChecks else stored

structure Swept where
  input : SweepInput
  parked : List ℕ

structure State where
  stored : FailedChecks
  past : List Swept

def curator : Machine State SweepInput where
  start s := s.stored = ∅ ∧ s.past = []
  next s p := some
    { stored := storedAfter labels hasActiveCurrentBlocker s.stored p
      past := ⟨p, parkedBy labels hasActiveCurrentBlocker s.stored p⟩ :: s.past }

def Incoherent (l : Listed) : Prop :=
  quarantineIncoherence labels hasActiveCurrentBlocker l.issue ≠ []

instance (l : Listed) : Decidable (Incoherent labels hasActiveCurrentBlocker l) :=
  inferInstanceAs (Decidable (_ ≠ _))

def failures (issue : ℕ) (listing : List Listed) : ℕ :=
  listing.countP fun l => l.issue.number = issue ∧ Incoherent labels hasActiveCurrentBlocker l

def failuresIn (issue : ℕ) (s : SweepInput) : ℕ :=
  (s.listing.map (failures labels hasActiveCurrentBlocker issue)).getD 0

/-- The sweep has listed the issue under quarantine and found it incoherent. -/
def Failed (issue : ℕ) (s : SweepInput) : Prop :=
  0 < failuresIn labels hasActiveCurrentBlocker issue s

instance (issue : ℕ) (s : SweepInput) : Decidable (Failed labels hasActiveCurrentBlocker issue s) :=
  inferInstanceAs (Decidable (_ < _))

def ParksInTheEnd (s : State) : Prop :=
  ∀ (newer : List Swept) (swept : Swept) (older : List Swept), s.past = newer ++ swept :: older →
    ∀ issue ∈ swept.parked, Failed labels hasActiveCurrentBlocker issue swept.input ∧
        swept.input.recheckLimit - 1 ≤ older.length ∧
        ∀ before ∈ older.take (swept.input.recheckLimit - 1),
          Failed labels hasActiveCurrentBlocker issue before.input

/-- A count is cleared for good: the issue is listed and released, or is closed and loses its
state, and the store is written. -/
def Cleared (issue : ℕ) (s : SweepInput) : Prop :=
  s.written = true ∧ ∃ listing ∈ s.listing,
    (∃ l ∈ listing, l.issue.number = issue ∧ ¬ Incoherent labels hasActiveCurrentBlocker l ∧
      (plan labels l.issue .queue).isOk = true ∧
        s.bodies = true ∧ l.bodyEdited = true ∧ l.labelsEdited = true) ∨
      ∃ l ∈ s.closed, l.issue.number = issue ∧ (residue labels l.issue).isSome = true ∧
        l.labelsEdited = true

/-- No issue fails twice in one listing, and one with a count fails again or is cleared. -/
def SweepMet (s : State) (p : SweepInput) : Prop :=
  (∀ issue, failuresIn labels hasActiveCurrentBlocker issue p ≤ 1) ∧
    ∀ issue, 0 < countOf s.stored issue → Failed labels hasActiveCurrentBlocker issue p ∨
        Cleared labels hasActiveCurrentBlocker issue p

end

section
variable {labels : StateTransitionLabels} {hasActiveCurrentBlocker : Text → Bool}
  {s : SweepInput} {issue : ℕ}

@[simp] lemma countOf_erase_self (failedChecks : FailedChecks) (issue : ℕ) :
    countOf (failedChecks.erase issue) issue = 0 := by
  simp [countOf]

lemma countOf_erase_ne (failedChecks : FailedChecks) {other : ℕ} (h : issue ≠ other) :
    countOf (failedChecks.erase other) issue = countOf failedChecks issue := by
  simp [countOf, h]

lemma countOf_erase_le (failedChecks : FailedChecks) (other : ℕ) :
    countOf (failedChecks.erase other) issue ≤ countOf failedChecks issue := by
  by_cases h : issue = other
  · subst h
    simp
  · rw [countOf_erase_ne failedChecks h]

lemma countOf_set (failedChecks : FailedChecks) (other : ℕ) (failure : Failure) :
    countOf (failedChecks.set other failure) issue =
      if issue = other then failure.count else countOf failedChecks issue := by
  unfold countOf
  rw [JsMap.lookup_set]
  split_ifs <;> rfl

variable (labels s issue) in
lemma release_spec (l : Listed) (sweep : Sweep) : (release labels s l sweep).parked = sweep.parked ∧
      countOf (release labels s l sweep).failedChecks issue ≤ countOf sweep.failedChecks issue := by
  unfold release
  cases plan labels l.issue .queue with
  | error reason => exact ⟨rfl, le_rfl⟩
  | ok plan =>
    simp only
    split_ifs
    · exact ⟨rfl, countOf_erase_le _ _⟩
    · exact ⟨rfl, le_rfl⟩
    · exact ⟨rfl, le_rfl⟩

lemma release_clears {l : Listed} (hplan : (plan labels l.issue .queue).isOk = true)
    (hbod : s.bodies = true) (hbody : l.bodyEdited = true) (hlabels : l.labelsEdited = true)
    (sweep : Sweep) :
    countOf (release labels s l sweep).failedChecks l.issue.number = 0 := by
  unfold release
  cases hp : plan labels l.issue .queue with
  | error reason =>
    rw [hp] at hplan
    cases hplan
  | ok plan => simp [hbod, hbody, hlabels]

variable (labels s) in
lemma park_other {l : Listed} (h : issue ≠ l.issue.number) (sweep : Sweep) :
    (issue ∈ (park labels s l sweep).parked → issue ∈ sweep.parked) ∧
      countOf (park labels s l sweep).failedChecks issue = countOf sweep.failedChecks issue := by
  have hset : ∀ failure : Failure, countOf (sweep.failedChecks.set l.issue.number failure) issue =
        countOf sweep.failedChecks issue := by
    intro failure
    rw [countOf_set, if_neg h]
  unfold park
  by_cases hlim : countOf sweep.failedChecks l.issue.number + 1 < s.recheckLimit
  · rw [if_pos hlim]
    exact ⟨id, hset _⟩
  rw [if_neg hlim]
  cases plan labels l.issue .human with
  | error reason => exact ⟨id, hset _⟩
  | ok plan =>
    simp only
    split_ifs
    · constructor
      · intro hmem
        rcases mem_append.mp hmem with hmem | hmem
        · exact hmem
        · exact absurd (mem_singleton.mp hmem) h
      · rw [countOf_erase_ne _ h]
        exact hset _
    · exact ⟨id, hset _⟩

variable (labels s) in
lemma park_self {l : Listed} (h : l.issue.number = issue) (sweep : Sweep) :
    (issue ∈ (park labels s l sweep).parked →
        issue ∈ sweep.parked ∨ s.recheckLimit ≤ countOf sweep.failedChecks issue + 1) ∧
      countOf (park labels s l sweep).failedChecks issue ≤
        countOf sweep.failedChecks issue + 1 := by
  subst h
  have hset : countOf (sweep.failedChecks.set l.issue.number
        ⟨countOf sweep.failedChecks l.issue.number + 1, s.time⟩) l.issue.number =
      countOf sweep.failedChecks l.issue.number + 1 := by
    rw [countOf_set, if_pos rfl]
  unfold park
  by_cases hlim : countOf sweep.failedChecks l.issue.number + 1 < s.recheckLimit
  · rw [if_pos hlim]
    exact ⟨.inl, hset.le⟩
  rw [if_neg hlim]
  cases plan labels l.issue .human with
  | error reason => exact ⟨.inl, hset.le⟩
  | ok plan =>
    simp only
    split_ifs
    · constructor
      · intro _
        exact .inr (by omega)
      · rw [countOf_erase_self]
        exact Nat.zero_le _
    · exact ⟨.inl, hset.le⟩

variable (labels hasActiveCurrentBlocker s issue) in
lemma check_spec (l : Listed) (sweep : Sweep) :
    (issue ∈ (check labels hasActiveCurrentBlocker s sweep l).parked → issue ∈ sweep.parked ∨
          0 < failures labels hasActiveCurrentBlocker issue [l] ∧
            s.recheckLimit ≤ countOf sweep.failedChecks issue + 1) ∧
      countOf (check labels hasActiveCurrentBlocker s sweep l).failedChecks issue ≤
        countOf sweep.failedChecks issue +
          failures labels hasActiveCurrentBlocker issue [l] := by
  unfold check
  split_ifs with hcoh
  · obtain ⟨hpark, hcount⟩ := release_spec labels s issue l sweep
    constructor
    · intro hmem
      rw [hpark] at hmem
      exact .inl hmem
    · omega
  · by_cases hiss : l.issue.number = issue
    · have hone : failures labels hasActiveCurrentBlocker issue [l] = 1 := by
        simp [failures, Incoherent, hiss, hcoh]
      obtain ⟨hpark, hcount⟩ := park_self labels s hiss sweep
      rw [hone]
      constructor
      · intro hmem
        exact (hpark hmem).imp_right fun hlim => ⟨Nat.one_pos, hlim⟩
      · exact hcount
    · obtain ⟨hpark, hcount⟩ := park_other labels s
        (fun heq => hiss heq.symm) sweep
      constructor
      · intro hmem
        exact .inl (hpark hmem)
      · omega

lemma failures_cons (l : Listed) (listing : List Listed) :
    failures labels hasActiveCurrentBlocker issue (l :: listing) =
      failures labels hasActiveCurrentBlocker issue [l] +
        failures labels hasActiveCurrentBlocker issue listing := by
  unfold failures
  rw [← countP_append, singleton_append]

variable (labels hasActiveCurrentBlocker s issue) in
lemma checks_spec (listing : List Listed) (sweep : Sweep) :
    (issue ∈ (listing.foldl (check labels hasActiveCurrentBlocker s) sweep).parked →
        issue ∈ sweep.parked ∨ 0 < failures labels hasActiveCurrentBlocker issue listing ∧
            s.recheckLimit ≤ countOf sweep.failedChecks issue +
              failures labels hasActiveCurrentBlocker issue listing) ∧
      countOf (listing.foldl (check labels hasActiveCurrentBlocker s) sweep).failedChecks issue ≤
        countOf sweep.failedChecks issue +
          failures labels hasActiveCurrentBlocker issue listing := by
  induction listing generalizing sweep with
  | nil => exact ⟨.inl, le_rfl⟩
  | cons l listing ih =>
    obtain ⟨hpark, hcount⟩ := check_spec labels
      hasActiveCurrentBlocker s issue l sweep
    obtain ⟨hpark', hcount'⟩ := ih (check labels hasActiveCurrentBlocker s sweep l)
    rw [foldl_cons, failures_cons]
    constructor
    · intro hmem
      rcases hpark' hmem with hmem | ⟨hpos, hlim⟩
      · exact (hpark hmem).imp_right fun ⟨hpos, hlim⟩ => ⟨by omega, by omega⟩
      · exact .inr ⟨by omega, by omega⟩
    · omega

lemma checks_clear {listing : List Listed} {l : Listed} (hl : l ∈ listing)
    (hiss : l.issue.number = issue)
    (hcoh : ¬ Incoherent labels hasActiveCurrentBlocker l)
    (hplan : (plan labels l.issue .queue).isOk = true) (hbod : s.bodies = true)
    (hbody : l.bodyEdited = true) (hlabels : l.labelsEdited = true)
    (hnone : failures labels hasActiveCurrentBlocker issue listing = 0) (sweep : Sweep) :
    countOf (listing.foldl (check labels hasActiveCurrentBlocker s) sweep).failedChecks issue =
      0 := by
  induction listing generalizing sweep with
  | nil => cases hl
  | cons head listing ih =>
    rw [failures_cons] at hnone
    rcases mem_cons.mp hl with rfl | hl
    · have hcheck : check labels hasActiveCurrentBlocker s sweep l = release labels s l sweep :=
        if_pos (not_not.mp hcoh)
      have hzero := release_clears (s := s) hplan hbod hbody hlabels sweep
      have hrest := (checks_spec labels hasActiveCurrentBlocker s issue listing
        (release labels s l sweep)).2
      rw [hiss] at hzero
      rw [foldl_cons, hcheck]
      omega
    · exact ih hl (by omega) _

variable (labels issue) in
lemma reconcile_spec (l : Listed) (sweep : Sweep) :
    (reconcile labels sweep l).parked = sweep.parked ∧
      countOf (reconcile labels sweep l).failedChecks issue ≤ countOf sweep.failedChecks issue := by
  unfold reconcile
  cases residue labels l.issue with
  | none => exact ⟨rfl, le_rfl⟩
  | some close =>
    simp only
    split_ifs
    · exact ⟨rfl, countOf_erase_le _ _⟩
    · exact ⟨rfl, le_rfl⟩

variable (labels issue) in
lemma reconciles_spec (closed : List Listed) (sweep : Sweep) :
    (closed.foldl (reconcile labels) sweep).parked = sweep.parked ∧
      countOf (closed.foldl (reconcile labels) sweep).failedChecks issue ≤
        countOf sweep.failedChecks issue := by
  induction closed generalizing sweep with
  | nil => exact ⟨rfl, le_rfl⟩
  | cons l closed ih =>
    obtain ⟨hpark, hcount⟩ := reconcile_spec labels issue l sweep
    obtain ⟨hpark', hcount'⟩ := ih (reconcile labels sweep l)
    exact ⟨hpark'.trans hpark, hcount'.trans hcount⟩

lemma reconciles_clear {closed : List Listed} {l : Listed} (hl : l ∈ closed)
    (hiss : l.issue.number = issue) (hres : (residue labels l.issue).isSome = true)
    (hlabels : l.labelsEdited = true) (sweep : Sweep) :
    countOf (closed.foldl (reconcile labels) sweep).failedChecks issue = 0 := by
  induction closed generalizing sweep with
  | nil => cases hl
  | cons head closed ih =>
    rcases mem_cons.mp hl with rfl | hl
    · have hzero : countOf (reconcile labels sweep l).failedChecks issue = 0 := by
        obtain ⟨close, hclose⟩ := Option.isSome_iff_exists.mp hres
        simp [reconcile, hclose, hlabels, hiss]
      have hrest := (reconciles_spec labels issue closed
        (reconcile labels sweep l)).2
      rw [foldl_cons]
      omega
    · exact ih hl _

lemma parkedBy_spec {stored : FailedChecks}
    (h : issue ∈ parkedBy labels hasActiveCurrentBlocker stored s) :
    Failed labels hasActiveCurrentBlocker issue s ∧ s.recheckLimit ≤ countOf stored issue +
        failuresIn labels hasActiveCurrentBlocker issue s := by
  unfold Failed failuresIn
  unfold parkedBy runIssueStateCurator at h
  cases hlist : s.listing with
  | none =>
    rw [hlist] at h
    cases h
  | some listing =>
    rw [hlist] at h
    have hmem : issue ∈ (s.closed.foldl (reconcile labels)
        (listing.foldl (check labels hasActiveCurrentBlocker s) (.start stored))).parked := h
    rw [(reconciles_spec labels issue _ _).1] at hmem
    rcases (checks_spec _ _ _ _ _ _).1 hmem with hnone | hfail
    · cases hnone
    · exact hfail

variable (labels hasActiveCurrentBlocker) in
lemma countOf_storedAfter_le (stored : FailedChecks) (s : SweepInput) (issue : ℕ) :
    countOf (storedAfter labels hasActiveCurrentBlocker stored s) issue ≤
      countOf stored issue + failuresIn labels hasActiveCurrentBlocker issue s := by
  unfold storedAfter runIssueStateCurator failuresIn
  cases s.listing with
  | none => exact le_rfl
  | some listing =>
    have hchecks := (checks_spec labels hasActiveCurrentBlocker s issue
      listing (.start stored)).2
    have hclos := (reconciles_spec labels issue s.closed
      (listing.foldl (check labels hasActiveCurrentBlocker s) (.start stored))).2
    simp only [Option.map_some, Option.getD_some]
    split_ifs
    · exact hclos.trans hchecks
    · exact Nat.le_add_right _ _

lemma countOf_storedAfter_of_cleared {stored : FailedChecks}
    (hfail : ¬ Failed labels hasActiveCurrentBlocker issue s)
    (h : Cleared labels hasActiveCurrentBlocker issue s) :
    countOf (storedAfter labels hasActiveCurrentBlocker stored s) issue = 0 := by
  obtain ⟨hwritt, listing, hlist, hcleared⟩ := h
  have hlist' : s.listing = some listing := hlist
  have hnone : failures labels hasActiveCurrentBlocker issue listing = 0 := by
    unfold Failed failuresIn at hfail
    rw [hlist'] at hfail
    exact Nat.eq_zero_of_not_pos hfail
  unfold storedAfter runIssueStateCurator
  rw [hlist']
  simp only [Option.map_some, hwritt, if_true]
  rcases hcleared with ⟨l, hl, hiss, hcoh, hplan, hbod, hbody, hlabels⟩ |
    ⟨l, hl, hiss, hres, hlabels⟩
  · have hzero := checks_clear hl hiss hcoh hplan hbod hbody hlabels hnone
      (.start stored)
    have hclos := (reconciles_spec labels issue s.closed
      (listing.foldl (check labels hasActiveCurrentBlocker s) (.start stored))).2
    omega
  · exact reconciles_clear hl hiss hres hlabels _

end

section
variable {labels : StateTransitionLabels} {hasActiveCurrentBlocker : Text → Bool}

/-- In how many sweeps, back from the last one, the issue has failed without a break. -/
def streak (labels : StateTransitionLabels) (hasActiveCurrentBlocker : Text → Bool)
    (issue : ℕ) : List Swept → ℕ
  | [] => 0
  | swept :: past =>
    if Failed labels hasActiveCurrentBlocker issue swept.input then
      streak labels hasActiveCurrentBlocker issue past + 1
    else 0

lemma of_le_streak {issue n : ℕ} {past : List Swept}
    (h : n ≤ streak labels hasActiveCurrentBlocker issue past) :
    n ≤ past.length ∧ ∀ swept ∈ past.take n,
      Failed labels hasActiveCurrentBlocker issue swept.input := by
  induction past generalizing n with
  | nil =>
    obtain rfl := Nat.le_zero.mp h
    simp
  | cons swept past ih =>
    rw [streak] at h
    split_ifs at h with hfail
    · cases n with
      | zero => simp
      | succ n =>
        obtain ⟨hlength, hall⟩ := ih (Nat.le_of_succ_le_succ h)
        constructor
        · exact Nat.succ_le_succ hlength
        · intro s hs
          rw [take_succ_cons] at hs
          rcases mem_cons.mp hs with rfl | hs
          · exact hfail
          · exact hall s hs
    · obtain rfl := Nat.le_zero.mp h
      simp

structure Inv (labels : StateTransitionLabels) (hasActiveCurrentBlocker : Text → Bool)
    (s : State) : Prop where
  counts : ∀ issue, countOf s.stored issue ≤ streak labels hasActiveCurrentBlocker issue s.past
  parks : ParksInTheEnd labels hasActiveCurrentBlocker s

lemma inv_start {s : State} (h : (curator labels hasActiveCurrentBlocker).start s) :
    Inv labels hasActiveCurrentBlocker s := by
  obtain ⟨hstor, hpast⟩ := h
  constructor
  · intro issue
    rw [hstor]
    exact Nat.zero_le _
  · intro newer swept older heq
    rw [hpast] at heq
    simp at heq

lemma counts_step {s : State} {p : SweepInput} {issue : ℕ}
    (hmet : SweepMet labels hasActiveCurrentBlocker s p)
    (hcount : countOf s.stored issue ≤ streak labels hasActiveCurrentBlocker issue s.past)
    (parked : List ℕ) :
    countOf (storedAfter labels hasActiveCurrentBlocker s.stored p) issue ≤
      streak labels hasActiveCurrentBlocker issue (⟨p, parked⟩ :: s.past) := by
  have haft := countOf_storedAfter_le labels hasActiveCurrentBlocker s.stored p issue
  rw [streak]
  split_ifs with hfail
  · have hone := hmet.1 issue
    omega
  · by_cases hpos : 0 < countOf s.stored issue
    · rcases hmet.2 issue hpos with hfail' | hcleared
      · exact absurd hfail' hfail
      · exact (countOf_storedAfter_of_cleared hfail hcleared).le
    · have hnone : failuresIn labels hasActiveCurrentBlocker issue p = 0 :=
        Nat.eq_zero_of_not_pos hfail
      omega

lemma inv_step {s t : State} {p : SweepInput} (hs : Inv labels hasActiveCurrentBlocker s)
    (hmet : SweepMet labels hasActiveCurrentBlocker s p)
    (h : (curator labels hasActiveCurrentBlocker).next s p = some t) :
    Inv labels hasActiveCurrentBlocker t := by
  cases h
  constructor
  · intro issue
    exact counts_step hmet (hs.counts issue) _
  · intro newer swept older heq issue hiss
    cases newer with
    | nil =>
      obtain ⟨rfl, rfl⟩ := cons.inj heq
      obtain ⟨hfail, hlim⟩ := parkedBy_spec hiss
      have hone := hmet.1 issue
      have hcount := hs.counts issue
      have hstr : p.recheckLimit - 1 ≤
          streak labels hasActiveCurrentBlocker issue s.past := by omega
      exact ⟨hfail, of_le_streak hstr⟩
    | cons first newer =>
      have hpast : s.past = newer ++ swept :: older := (cons.inj heq).2
      exact hs.parks newer swept older hpast issue hiss

end

/-- Where no issue fails twice in a listing, and each count is followed by a failure or cleared,
a park comes behind as many failed checks in a row as the limit says. -/
theorem parks_in_the_end {labels : StateTransitionLabels} {hasActiveCurrentBlocker : Text → Bool}
    {s : State}
    (h : (curator labels hasActiveCurrentBlocker).Reach
      (SweepMet labels hasActiveCurrentBlocker) s) :
    ParksInTheEnd labels hasActiveCurrentBlocker s :=
  (h.inv (Inv labels hasActiveCurrentBlocker) (fun _ => inv_start)
    fun _ _ _ hs hmet hnext => inv_step hs hmet hnext).parks

def shortLabels : StateTransitionLabels where
  ready := ['q']
  running := ['r']
  human := ['h']
  needsTriage := ['t']
  needsInfo := ['i']
  quarantine := ['z']
  dependencyBlocked := ['b', ':', 'd']
  blockedPrefix := ['b', ':']
  reqPrefix := ['e', ':']
  hitlTypes := []

def sweepOfSeven (recheckLimit : ℕ) (present : Bool) : SweepInput where
  time := []
  recheckLimit := recheckLimit
  listing := some (if present then [⟨⟨7, [], [['z']]⟩, true, true⟩] else [])
  bodies := true
  closed := []
  written := true

lemma failuresIn_seven {issue : ℕ} (recheckLimit : ℕ) (h : issue ≠ 7) :
    failuresIn shortLabels (fun _ => true) issue (sweepOfSeven recheckLimit true) = 0 := by
  simp [failuresIn, sweepOfSeven, failures, h.symm]

theorem parked_behind_two :
    ∃ s, (curator shortLabels fun _ => true).Reach (SweepMet shortLabels fun _ => true) s ∧
      s.past.map Swept.parked = [[7], []] ∧ ParksInTheEnd shortLabels (fun _ => true) s := by
  have hone : ∀ issue, failuresIn shortLabels (fun _ => true) issue (sweepOfSeven 2 true) ≤ 1 :=
    fun _ => countP_le_length
  have hfirst : SweepMet shortLabels (fun _ => true) ⟨∅, []⟩ (sweepOfSeven 2 true) :=
    ⟨hone, fun _ hpos => absurd hpos (lt_irrefl 0)⟩
  have hsec : SweepMet shortLabels (fun _ => true)
      ⟨storedAfter shortLabels (fun _ => true) ∅ (sweepOfSeven 2 true),
        [⟨sweepOfSeven 2 true, parkedBy shortLabels (fun _ => true) ∅ (sweepOfSeven 2 true)⟩]⟩
      (sweepOfSeven 2 true) := by
    refine ⟨hone, fun issue hpos => ?_⟩
    by_cases hiss : issue = 7
    · exact .inl (hiss ▸ by decide +kernel)
    · have hcount := countOf_storedAfter_le shortLabels
        (fun _ => true) ∅ (sweepOfSeven 2 true) issue
      rw [failuresIn_seven 2 hiss] at hcount
      exact absurd (hpos.trans_le hcount) (lt_irrefl 0)
  have hreach : (curator shortLabels fun _ => true).Reach (SweepMet shortLabels fun _ => true) _ :=
    ⟨⟨∅, []⟩, [sweepOfSeven 2 true, sweepOfSeven 2 true], ⟨rfl, rfl⟩,
      .cons hfirst rfl (.cons hsec rfl (.nil _))⟩
  exact ⟨_, hreach, by decide +kernel, parks_in_the_end hreach⟩

/-- The counter outlives the sweep in which the issue was not listed. -/
theorem parked_behind_a_gap :
    ¬ ∀ (labels : StateTransitionLabels) (hasActiveCurrentBlocker : Text → Bool) (s : State),
      (curator labels hasActiveCurrentBlocker).Reach anyStep s →
        ParksInTheEnd labels hasActiveCurrentBlocker s := by
  intro h
  have hreach : (curator shortLabels fun _ => true).Reach anyStep _ :=
    ⟨⟨∅, []⟩, [sweepOfSeven 3 true, sweepOfSeven 3 false, sweepOfSeven 3 true, sweepOfSeven 3 true],
      ⟨rfl, rfl⟩,
      .cons trivial rfl (.cons trivial rfl (.cons trivial rfl (.cons trivial rfl (.nil _))))⟩
  have hparks := h _ _ _ hreach
  have hsev := hparks [] _ _ rfl 7 (by decide +kernel)
  revert hsev
  decide +kernel

end Redskilled.Tracker.QuarantineCurator
