import Redskilled.Tracker.ClaimMarker
import Redskilled.Foundation.Seniority
import Mathlib.Data.List.Infix
import Mathlib.Data.List.Sort
import Mathlib.Data.List.Lex

/-!
# Reading back and reconciling a claim

`listVerifiedClaims` reads the comments of an issue until the claimant's own
marker is among them. `reconcileClaim` folds the markers per worker into the
earliest claim id and the latest word, and the contender with the lowest claim
id wins.
-/
namespace Redskilled.Tracker.ClaimReconcile
open Foundation Foundation.Text ClaimMarker List Option

inductive ClaimVerificationFailure where
  | propagation | infrastructure
  deriving DecidableEq

structure ClaimVerificationError where
  message : Text
  kind : ClaimVerificationFailure

def classifyVerificationFailure (sawPopulatedList : Bool) (lastMessage : Text) :
    ClaimVerificationFailure :=
  if !sawPopulatedList ∧ " from 0 listed comment".toList <:+: lastMessage then .infrastructure
  else .propagation

def unbelievableReadBackDetail : Text :=
  (" — every read-back listed zero comments while our own claim comment existed," ++
    " so this is a read that cannot be believed rather than a lost race").toList

def defaultVerifyAttempts : Nat := 4

def absentMessage (commentId listed : Nat) : Text :=
  "our claim comment ".toList ++ number commentId ++ " was absent from ".toList ++
    number listed ++ " listed comment(s)".toList

/-- The read-back attempts that are left, each with the answer of its
`listClaims`: the first list that shows our comment, or what the last attempt
said and whether any list was populated. -/
def readBack (commentId : Nat) : List (Except Text (List RawClaimComment)) → Text → Bool →
    Except (Text × Bool) (List RawClaimComment)
  | [], lastMessage, sawPopulatedList => .error (lastMessage, sawPopulatedList)
  | .error message :: answers, _, sawPopulatedList =>
    readBack commentId answers message sawPopulatedList
  | .ok raw :: answers, _, sawPopulatedList =>
    if raw.any (·.id == commentId) then .ok raw
    else readBack commentId answers (absentMessage commentId raw.length)
      (sawPopulatedList || !raw.isEmpty)

def listVerifiedClaims (issue commentId : Nat) (verifyAttempts : Option Nat)
    (answer : Nat → Except Text (List RawClaimComment)) :
    Except ClaimVerificationError (List RawClaimComment) :=
  let attempts := max 1 (verifyAttempts.getD defaultVerifyAttempts)
  match readBack commentId ((List.range attempts).map answer) "undefined".toList false with
  | .ok raw => .ok raw
  | .error (detail, sawPopulatedList) =>
    let kind := classifyVerificationFailure sawPopulatedList detail
    .error {
      message := "claim verification failed on #".toList ++ number issue ++ " after ".toList ++
        number attempts ++ " read-back attempt(s): ".toList ++ detail ++
        (if kind = .infrastructure then unbelievableReadBackDetail else [])
      kind }

lemma listVerifiedClaims_of_visible {issue commentId : Nat} {attempts : Option Nat}
    {answer : Nat → Except Text (List RawClaimComment)} {raw : List RawClaimComment}
    (h : answer 0 = .ok raw) (hvis : raw.any (·.id == commentId) = true) :
    listVerifiedClaims issue commentId attempts answer = .ok raw := by
  obtain ⟨n, hn⟩ := Nat.exists_eq_add_of_le (Nat.le_max_left 1 (attempts.getD defaultVerifyAttempts))
  have hread : readBack commentId ((range (1 + n)).map answer) "undefined".toList false =
      .ok raw := by
    rw [Nat.add_comm, range_succ_eq_map, map_cons, h, readBack, if_pos hvis]
  simp only [listVerifiedClaims, hn, hread]

structure ClaimSelf where
  worker : Text
  commentId : Nat
  runner : Option Runner
  createdAt : Option Text

inductive ClaimVerdict where
  | won | lost
  deriving DecidableEq

structure ClaimDecision where
  verdict : ClaimVerdict
  winner : Option Text
  reason : Text
  winnerClaimId : Option Nat := none
  winnerCreatedAt : Option Text := none
  recovered : List Text

/-- The markers of one worker: its earliest claim and its latest word. -/
structure Fold where
  earliestClaimId : Option Nat
  latestId : Nat
  latestKind : ClaimKind
  latestRecord : ClaimRecord

structure Contender where
  worker : Text
  claimId : Nat
  deriving DecidableEq

def Fold.start (r : ClaimRecord) : Fold :=
  { earliestClaimId := if r.kind = .claim then some r.commentId else none
    latestId := r.commentId
    latestKind := r.kind
    latestRecord := r }

def Fold.add (f : Fold) (r : ClaimRecord) : Fold :=
  let f :=
    if r.kind = .claim ∧ f.earliestClaimId.all (r.commentId < ·) then
      { f with earliestClaimId := some r.commentId }
    else f
  if f.latestId ≤ r.commentId then
    { f with latestId := r.commentId, latestKind := r.kind, latestRecord := r }
  else f

def ingest (folds : JsMap Text Fold) (r : ClaimRecord) : JsMap Text Fold :=
  if r.worker = [] then folds
  else
    match folds.lookup r.worker with
    | none => JsMap.set folds r.worker (.start r)
    | some f => JsMap.set folds r.worker (f.add r)

def foldRecords (rs : List ClaimRecord) : JsMap Text Fold := rs.foldl ingest ∅

def ClaimSelf.record (self : ClaimSelf) : ClaimRecord :=
  { commentId := self.commentId
    worker := self.worker
    kind := .claim
    runner := self.runner.map Runner.text
    createdAt := self.createdAt }

/-- The claim a worker contends with, if its latest word is not a concede. -/
def Fold.claimId (f : Fold) : Option Nat :=
  if f.latestKind = .concede then none else f.earliestClaimId

/-- Contenders that `keep` retains, in the order of the folds. -/
def contendersOf (folds : JsMap Text Fold) (keep : Text → Fold → Bool) : List Contender :=
  folds.entries.filterMap fun e =>
    e.2.claimId.bind fun id => if keep e.1 e.2 then some ⟨e.1, id⟩ else none

/-- The order of `contenders.sort`: by claim id, then by worker. -/
def Contender.precedes (a b : Contender) : Prop :=
  a.claimId < b.claimId ∨ a.claimId = b.claimId ∧ utf16Lt b.worker a.worker = false

instance : DecidableRel Contender.precedes := fun _ _ => inferInstanceAs (Decidable (_ ∨ _))

section
variable (isStale : ClaimRecord → Bool) (records : List ClaimRecord) (self : ClaimSelf)

def selfPostedFresh : Bool := records.all (·.commentId ≤ self.commentId)

/-- The folds of the listed markers with our own merged in last. -/
def folds : JsMap Text Fold := foldRecords (records ++ [self.record])

def isDropped (worker : Text) (f : Fold) : Bool :=
  !(worker == self.worker && selfPostedFresh records self) && isStale f.latestRecord

def stale : List Contender :=
  contendersOf (folds records self) (isDropped isStale records self)

def contenders : List Contender :=
  contendersOf (folds records self) fun worker f => !isDropped isStale records self worker f

def reconcileClaim : Except ClaimVerificationError ClaimDecision :=
  if self.worker = [] then
    .error {
      message := "claim verification failed: unusable claimant identity (worker ".toList ++
        jsonString self.worker ++ ", comment id ".toList ++ number self.commentId ++ ")".toList
      kind := .propagation }
  else
    match (contenders isStale records self).insertionSort Contender.precedes with
    | [] =>
      if selfPostedFresh records self then
        .error {
          message := "claim verification failed on the reconciler: our own claim (worker ".toList ++
            jsonString self.worker ++ ", comment id ".toList ++ number self.commentId ++
            ") did not survive reconciliation — no live claim contends".toList
          kind := .propagation }
      else
        .ok { verdict := .lost, winner := none, reason := "no live claim contends".toList,
              recovered := [] }
    | winner :: _ =>
      let winnerCreatedAt := ((folds records self).lookup winner.worker).bind (·.latestRecord.createdAt)
      if winner.worker = self.worker then
        .ok {
          verdict := .won
          winner := some winner.worker
          winnerClaimId := some winner.claimId
          winnerCreatedAt
          reason :=
            if (contenders isStale records self).length = 1 then "solo claim".toList
            else "earliest of ".toList ++ number (contenders isStale records self).length ++
              " live claims (id ".toList ++ number winner.claimId ++ ")".toList
          recovered :=
            (((stale isStale records self).filter (·.claimId < winner.claimId)).map (·.worker)).insertionSort
              fun a b => utf16Lt b a = false }
      else
        .ok {
          verdict := .lost
          winner := some winner.worker
          winnerClaimId := some winner.claimId
          winnerCreatedAt
          reason := "worker ".toList ++ winner.worker ++ " holds earlier claim (id ".toList ++
            number winner.claimId ++ " < our ".toList ++ number self.commentId ++ ")".toList
          recovered := [] }

end

def firstClaim (rs : List ClaimRecord) (w : Text) : Option Nat :=
  (rs.find? fun r => r.worker = w ∧ r.kind = .claim).map (·.commentId)

def lastWord (rs : List ClaimRecord) (w : Text) : Option ClaimKind :=
  (rs.reverse.find? fun r => r.worker = w).map (·.kind)

lemma firstClaim_append (rs : List ClaimRecord) (r : ClaimRecord) (w : Text) :
    firstClaim (rs ++ [r]) w =
      (firstClaim rs w).or (if r.worker = w ∧ r.kind = .claim then some r.commentId else none) := by
  simp only [firstClaim, find?_append, find?_singleton, map_or]
  split_ifs <;> simp_all

lemma lastWord_append (rs : List ClaimRecord) (r : ClaimRecord) (w : Text) :
    lastWord (rs ++ [r]) w = if r.worker = w then some r.kind else lastWord rs w := by
  unfold lastWord
  rw [reverse_append, reverse_singleton, singleton_append, find?_cons]
  by_cases h : r.worker = w
  · simp [h]
  · simp [h]

variable {f : Fold} {id : Nat} {r : ClaimRecord} {rs : List ClaimRecord} {w : Text}

lemma firstClaim_mem
    (h : firstClaim rs w = some id) : ∃ r ∈ rs, r.worker = w ∧ r.kind = .claim ∧ r.commentId = id := by
  obtain ⟨r, hr, rfl⟩ := map_eq_some_iff.mp h
  have hp := find?_some hr
  simp only [decide_eq_true_eq] at hp
  exact ⟨r, mem_of_find?_eq_some hr, hp.1, hp.2, rfl⟩

lemma firstClaim_eq_none : firstClaim rs w = none ↔ ∀ r ∈ rs, r.worker = w → r.kind ≠ .claim := by
  simp only [firstClaim, map_eq_none_iff, find?_eq_none, decide_eq_true_eq, not_and, ne_eq]

lemma lastWord_eq_none : lastWord rs w = none ↔ ∀ r ∈ rs, r.worker ≠ w := by
  simp only [lastWord, map_eq_none_iff, find?_eq_none, mem_reverse, decide_eq_true_eq, ne_eq]

/-- The records name their workers and come with the ids of each worker in
order, and no two workers share an id. -/
structure Ordered (rs : List ClaimRecord) : Prop where
  named : ∀ r ∈ rs, r.worker ≠ []
  inOrder : rs.Pairwise fun a b => a.worker = b.worker → a.commentId ≤ b.commentId
  owned : ∀ a ∈ rs, ∀ b ∈ rs, a.commentId = b.commentId → a.worker = b.worker

def Fold.Sums (f : Fold) (rs : List ClaimRecord) (w : Text) : Prop :=
  f.earliestClaimId = firstClaim rs w ∧ some f.latestKind = lastWord rs w ∧
    ∃ r ∈ rs, r.worker = w ∧ r.commentId = f.latestId

lemma Fold.start_sums
    (h : ∀ a ∈ rs, a.worker ≠ r.worker) : (Fold.start r).Sums (rs ++ [r]) r.worker := by
  have hfirst : firstClaim rs r.worker = none :=
    firstClaim_eq_none.mpr fun a ha haw => absurd haw (h a ha)
  refine ⟨?_, ?_, r, by simp, rfl, rfl⟩
  · simp [Fold.start, firstClaim_append, hfirst]
  · simp [Fold.start, lastWord_append]

lemma Fold.add_eq (h : f.latestId ≤ r.commentId) :
    f.add r =
      { earliestClaimId :=
          if r.kind = .claim ∧ f.earliestClaimId.all (r.commentId < ·) then some r.commentId
          else f.earliestClaimId
        latestId := r.commentId
        latestKind := r.kind
        latestRecord := r } := by
  unfold Fold.add
  by_cases hc : r.kind = .claim ∧ f.earliestClaimId.all (r.commentId < ·)
  · simp only [if_pos hc, if_pos h]
  · simp only [if_neg hc, if_pos h]

lemma Fold.add_sums
    (hord : ∀ a ∈ rs, a.worker = r.worker → a.commentId ≤ r.commentId)
    (h : f.Sums rs r.worker) : (f.add r).Sums (rs ++ [r]) r.worker := by
  obtain ⟨hfirst, -, a, ha, haw, hid⟩ := h
  rw [Fold.add_eq (hid ▸ hord a ha haw)]
  refine ⟨?_, ?_, r, by simp, rfl, rfl⟩
  · rw [firstClaim_append, hfirst]
    cases hf : firstClaim rs r.worker with
    | none => simp
    | some id =>
      obtain ⟨b, hb, hbw, -, rfl⟩ := firstClaim_mem hf
      have hle := hord b hb hbw
      simp [Nat.not_lt.mpr hle]
  · rw [lastWord_append, if_pos rfl]

lemma Fold.Sums.frame (h : f.Sums rs w) (hr : r.worker ≠ w) : f.Sums (rs ++ [r]) w := by
  obtain ⟨hfirst, hlast, a, ha, haw, hid⟩ := h
  refine ⟨?_, ?_, a, mem_append_left _ ha, haw, hid⟩
  · simp [firstClaim_append, hr, hfirst]
  · simp [lastWord_append, hr, hlast]

lemma lookup_ingest (folds : JsMap Text Fold) (r : ClaimRecord) (w : Text) :
    (ingest folds r).lookup w = if r.worker ≠ [] ∧ w = r.worker then
        some ((folds.lookup w).elim (.start r) (·.add r))
      else folds.lookup w := by
  unfold ingest
  split_ifs with hr hw hw
  · exact absurd hr hw.1
  · rfl
  · obtain ⟨-, rfl⟩ := hw
    cases folds.lookup r.worker <;> simp
  · have hne : w ≠ r.worker := fun h => hw ⟨hr, h⟩
    cases folds.lookup r.worker <;> simp [JsMap.lookup_set_ne, hne]

lemma lookup_foldRecords
    (hord : rs.Pairwise fun a b => a.worker = b.worker → a.commentId ≤ b.commentId)
    (hw : w ≠ []) :
    ((foldRecords rs).lookup w).elim (∀ r ∈ rs, r.worker ≠ w) (·.Sums rs w) := by
  induction rs using reverseRecOn with
  | nil => simp [foldRecords]
  | append_singleton rs r ih =>
    obtain ⟨hrs, -, hr⟩ := pairwise_append.mp hord
    have hr' : ∀ a ∈ rs, a.worker = r.worker → a.commentId ≤ r.commentId :=
      fun a ha => hr a ha r (by simp)
    have hfold : foldRecords (rs ++ [r]) = ingest (foldRecords rs) r := by
      simp [foldRecords, foldl_append]
    rw [hfold, lookup_ingest]
    by_cases hrw : w = r.worker
    · subst hrw
      rw [if_pos ⟨hw, rfl⟩, elim_some]
      cases hf : (foldRecords rs).lookup r.worker with
      | none => exact Fold.start_sums (by simpa [hf] using ih hrs)
      | some f => exact Fold.add_sums hr' (by simpa [hf] using ih hrs)
    · rw [if_neg fun h => hrw h.2]
      cases hf : (foldRecords rs).lookup w with
      | none =>
        intro a ha
        rcases mem_append.mp ha with ha | ha
        · exact (by simpa [hf] using ih hrs : ∀ a ∈ rs, a.worker ≠ w) a ha
        · exact mem_singleton.mp ha ▸ fun h => hrw h.symm
      | some f =>
        have hs : f.Sums rs w := by simpa [hf] using ih hrs
        exact hs.frame fun h => hrw h.symm

/-- Who stands where: every worker with its first claim, in while its latest word
is a claim. -/
def standing (rs : List ClaimRecord) : Seniority Text where
  since := firstClaim rs
  active w := lastWord rs w = some .claim

abbrev Contends (rs : List ClaimRecord) (w : Text) (id : Nat) : Prop :=
  (standing rs).Contends w id

lemma contends_iff :
    Contends rs w id ↔ lastWord rs w = some .claim ∧ firstClaim rs w = some id := Iff.rfl

abbrev Leads (rs : List ClaimRecord) (w : Text) : Prop := (standing rs).Leads w

lemma standing_claim (rs : List ClaimRecord) (h : r.kind = .claim) :
    standing (rs ++ [r]) = (standing rs).enter r.worker r.commentId := by
  ext1
  · funext w
    by_cases hw : w = r.worker
    · simp [standing, Seniority.enter, firstClaim_append, h, hw]
    · simp [standing, Seniority.enter, firstClaim_append, hw, Ne.symm hw]
  · funext w
    by_cases hw : w = r.worker
    · simp [standing, Seniority.enter, lastWord_append, h, hw]
    · simp [standing, Seniority.enter, lastWord_append, hw, Ne.symm hw]

lemma standing_concede (rs : List ClaimRecord) (h : r.kind = .concede) :
    standing (rs ++ [r]) = (standing rs).withdraw r.worker := by
  ext1
  · funext w
    simp [standing, Seniority.withdraw, firstClaim_append, h]
  · funext w
    by_cases hw : w = r.worker
    · simp [standing, Seniority.withdraw, lastWord_append, h, hw]
    · simp [standing, Seniority.withdraw, lastWord_append, hw, Ne.symm hw]

lemma utf16Lt_eq_false {a b : Text} : utf16Lt a b = false ↔ b.flatMap utf16 ≤ a.flatMap utf16 := by
  rw [utf16Lt, decide_eq_false_iff_not, not_lt]

instance : Std.Total Contender.precedes where
  total a b := by
    simp only [Contender.precedes, utf16Lt_eq_false]
    rcases Nat.lt_trichotomy a.claimId b.claimId with h | h | h
    · exact .inl (.inl h)
    · rcases le_total (a.worker.flatMap utf16) (b.worker.flatMap utf16) with h' | h'
      · exact .inl (.inr ⟨h, h'⟩)
      · exact .inr (.inr ⟨h.symm, h'⟩)
    · exact .inr (.inl h)

instance : IsTrans Contender Contender.precedes where
  trans a b c := by
    simp only [Contender.precedes, utf16Lt_eq_false]
    rintro (hab | ⟨hab, hab'⟩) (hbc | ⟨hbc, hbc'⟩)
    · exact .inl (hab.trans hbc)
    · exact .inl (hbc ▸ hab)
    · exact .inl (hab ▸ hbc)
    · exact .inr ⟨hab.trans hbc, hab'.trans hbc'⟩

lemma head_contenders {cs rest : List Contender} {c : Contender}
    (h : cs.insertionSort Contender.precedes = c :: rest) :
    c ∈ cs ∧ ∀ d ∈ cs, d = c ∨ c.precedes d := by
  have hperm := perm_insertionSort Contender.precedes cs
  have hsorted := pairwise_insertionSort Contender.precedes cs
  rw [h] at hperm hsorted
  refine ⟨hperm.subset mem_cons_self, fun d hd => ?_⟩
  rcases mem_cons.mp (hperm.symm.subset hd) with hdc | hdr
  · exact .inl hdc
  · exact .inr (rel_of_pairwise_cons hsorted hdr)

/-- The predicate of a caller that never takes a claim for stale. -/
def neverStale (_ : ClaimRecord) : Bool := false

lemma mem_contendersOf {folds : JsMap Text Fold} {keep : Text → Fold → Bool} {c : Contender} :
    c ∈ contendersOf folds keep ↔ ∃ f, folds.lookup c.worker = some f ∧ f.claimId = some c.claimId ∧
        keep c.worker f = true := by
  simp only [contendersOf, mem_filterMap, bind_eq_some_iff, Sigma.exists]
  constructor
  · rintro ⟨w, f, he, id, hid, hk⟩
    split_ifs at hk with hkeep
    cases hk
    exact ⟨f, AList.mem_lookup_iff.mpr he, hid, hkeep⟩
  · rintro ⟨f, hf, hid, hkeep⟩
    exact ⟨c.worker, f, AList.mem_lookup_iff.mp hf, c.claimId, hid, if_pos hkeep⟩

lemma Fold.Sums.claimId_iff (h : f.Sums rs w)
    : f.claimId = some id ↔ Contends rs w id := by
  obtain ⟨hfirst, hlast, -⟩ := h
  rw [Fold.claimId, contends_iff, ← hlast, ← hfirst]
  cases f.latestKind <;> simp

lemma Contends.mem (h : Contends rs w id) : ∃ r ∈ rs, r.worker = w ∧ r.commentId = id := by
  obtain ⟨r, hr, hw, -, hid⟩ := firstClaim_mem h.2
  exact ⟨r, hr, hw, hid⟩

lemma Ordered.contends_ne (hord : Ordered rs) {v : Text} {jd : Nat}
    (hv : Contends rs v id) (hw : Contends rs w jd) (hne : v ≠ w) : id ≠ jd := by
  obtain ⟨a, ha, rfl, rfl⟩ := hv.mem
  obtain ⟨b, hb, rfl, rfl⟩ := hw.mem
  exact fun h => hne (hord.owned a ha b hb h)

lemma contends_self (rs : List ClaimRecord) (self : ClaimSelf) :
    ∃ id, Contends (rs ++ [self.record]) self.worker id := by
  have hlast : lastWord (rs ++ [self.record]) self.worker = some .claim := by
    simp [lastWord_append, ClaimSelf.record]
  have hfirst : firstClaim (rs ++ [self.record]) self.worker ≠ none := by
    simp [firstClaim_append, ClaimSelf.record]
  obtain ⟨id, hid⟩ := ne_none_iff_exists'.mp hfirst
  exact ⟨id, hlast, hid⟩

lemma lookup_foldRecords_unnamed (rs : List ClaimRecord) : (foldRecords rs).lookup [] = none := by
  induction rs using reverseRecOn with
  | nil => rfl
  | append_singleton rs r ih =>
    have hfold : foldRecords (rs ++ [r]) = ingest (foldRecords rs) r := by
      simp [foldRecords, foldl_append]
    rw [hfold, lookup_ingest, if_neg fun h => h.1 h.2.symm, ih]

section
variable {rs : List ClaimRecord} {self : ClaimSelf}

lemma isDropped_neverStale (w : Text) (f : Fold) : isDropped neverStale rs self w f = false := by
  simp [isDropped, neverStale]

lemma stale_neverStale : stale neverStale rs self = [] := by
  refine eq_nil_iff_forall_not_mem.mpr fun c hc => ?_
  obtain ⟨f, -, -, hdrop⟩ := mem_contendersOf.mp hc
  rw [isDropped_neverStale] at hdrop
  exact absurd hdrop (by decide)

lemma mem_contenders (hnam : ∀ r ∈ rs ++ [self.record], r.worker ≠ [])
    (horder : (rs ++ [self.record]).Pairwise fun a b => a.worker = b.worker →
      a.commentId ≤ b.commentId) {c : Contender} :
    c ∈ contenders neverStale rs self ↔ Contends (rs ++ [self.record]) c.worker c.claimId := by
  rw [contenders, mem_contendersOf]
  simp only [isDropped_neverStale, Bool.not_false, and_true]
  by_cases hw : c.worker = []
  · refine ⟨fun ⟨f, hf, _⟩ => ?_, fun h => ?_⟩
    · rw [hw, folds, lookup_foldRecords_unnamed] at hf
      exact absurd hf (by simp)
    · obtain ⟨a, ha, haw, -⟩ := Contends.mem h
      exact absurd (haw.trans hw) (hnam a ha)
  · have hfold := lookup_foldRecords horder hw
    rw [folds]
    cases hf : (foldRecords (rs ++ [self.record])).lookup c.worker with
    | none =>
      rw [hf, elim_none] at hfold
      have hlast := lastWord_eq_none.mpr hfold
      simp [contends_iff, hlast]
    | some f =>
      rw [hf, elim_some] at hfold
      simp [hfold.claimId_iff]

lemma mem_contenders_iff (hord : Ordered (rs ++ [self.record])) {c : Contender} :
    c ∈ contenders neverStale rs self ↔ Contends (rs ++ [self.record]) c.worker c.claimId :=
  mem_contenders hord.named hord.inOrder

lemma head_leads (hord : Ordered (rs ++ [self.record])) {winner : Contender} {rest : List Contender}
    (h : (contenders neverStale rs self).insertionSort Contender.precedes = winner :: rest)
    (w : Text) : winner.worker = w ↔ Leads (rs ++ [self.record]) w := by
  obtain ⟨hwin, hfirst⟩ := head_contenders h
  have hc := (mem_contenders_iff hord).mp hwin
  constructor
  · rintro rfl
    refine ⟨winner.claimId, hc, fun v jd hv hjd => ?_⟩
    have hne := hord.contends_ne hjd hc hv
    rcases hfirst ⟨v, jd⟩ ((mem_contenders_iff hord).mpr hjd) with hd | hd | ⟨hd, -⟩
    · exact absurd (congrArg Contender.worker hd) hv
    · exact hd
    · exact absurd hd.symm hne
  · rintro ⟨id, hid, hlead⟩
    by_contra hne
    have hlt := hlead _ _ hne hc
    rcases hfirst ⟨w, id⟩ ((mem_contenders_iff hord).mpr hid) with hd | hd | ⟨hd, -⟩
    · exact hne (congrArg Contender.worker hd).symm
    · exact absurd (hlt.trans hd) (lt_irrefl _)
    · exact absurd (hd ▸ hlt) (lt_irrefl _)

lemma reconcileClaim_neverStale (hord : Ordered (rs ++ [self.record])) :
    ∃ d, reconcileClaim neverStale rs self = .ok d ∧ d.recovered = [] ∧
      (d.verdict = .won ↔ Leads (rs ++ [self.record]) self.worker) := by
  have hself : self.worker ≠ [] := hord.named self.record (by simp)
  unfold reconcileClaim
  rw [if_neg hself, stale_neverStale]
  cases hsort : (contenders neverStale rs self).insertionSort Contender.precedes with
  | nil =>
    obtain ⟨id, hid⟩ := contends_self rs self
    have hin := (mem_contenders_iff hord (c := ⟨self.worker, id⟩)).mpr hid
    rw [← mem_insertionSort Contender.precedes, hsort] at hin
    exact absurd hin not_mem_nil
  | cons winner rest =>
    have hlead := head_leads hord hsort self.worker
    by_cases hw : winner.worker = self.worker
    · simp only [if_pos hw]
      exact ⟨_, rfl, rfl, by simpa using hlead.mp hw⟩
    · simp only [if_neg hw]
      exact ⟨_, rfl, rfl, by simpa using mt hlead.mpr hw⟩

end

end Redskilled.Tracker.ClaimReconcile
