import Redskilled.Tracker.ClaimHeartbeats

/-!
# The order of the comments

A claim is decided by the ids of the comments. In whatever order the tracker lists them, a
contender comes to the same decision.
-/
namespace Redskilled.Tracker.ElectionOrder
open Foundation Foundation.Text ClaimMarker ClaimReconcile ClaimStaleness
  ClaimReaders ClaimHeartbeats List

variable {comments comments' : List RawClaimComment} {c d : RawClaimComment} {r r' : ClaimRecord}
  {self : ClaimSelf} {isStale : ClaimRecord → Bool} {w : Text}

/-- What a record makes of the fold of `w`. -/
def ingestOne (w : Text) (f : Option Fold) (r : ClaimRecord) : Option Fold :=
  if r.worker ≠ [] ∧ w = r.worker then some (f.elim (.start r) (·.add r)) else f

lemma lookup_foldl_ingest (rs : List ClaimRecord) (m : JsMap Text Fold) :
    (rs.foldl ingest m).lookup w = rs.foldl (ingestOne w) (m.lookup w) := by
  induction rs generalizing m with
  | nil => rfl
  | cons r rs ih => rw [foldl_cons, foldl_cons, ih, lookup_ingest, ingestOne]

/-- The lower of a claim id and the id of `r`, where `r` is a claim. -/
def lower (id : Option ℕ) (r : ClaimRecord) : Option ℕ :=
  if r.kind = .claim ∧ id.all (r.commentId < ·) then some r.commentId else id

lemma lower_comm (id : Option ℕ) (h : r.commentId < r'.commentId) :
    lower (lower id r) r' = lower (lower id r') r := by
  unfold lower
  cases id with
  | none => grind
  | some id => grind

lemma add_eq_of_le {f : Fold} (h : f.latestId ≤ r.commentId) :
    f.add r = ⟨lower f.earliestClaimId r, r.commentId, r.kind, r⟩ := by
  rw [Fold.add_eq h, lower]

lemma add_eq_of_lt {f : Fold} (h : r.commentId < f.latestId) :
    f.add r = { f with earliestClaimId := lower f.earliestClaimId r } := by
  unfold Fold.add lower
  by_cases hlow : r.kind = .claim ∧ f.earliestClaimId.all (r.commentId < ·)
  · simp only [if_pos hlow, if_neg (Nat.not_le.mpr h)]
  · simp only [if_neg hlow, if_neg (Nat.not_le.mpr h)]

lemma add_comm (f : Fold) (h : r.commentId < r'.commentId) :
    (f.add r).add r' = (f.add r').add r := by
  rcases Nat.lt_or_ge r.commentId f.latestId with hr | hr
  · rcases Nat.lt_or_ge r'.commentId f.latestId with hr' | hr'
    · simp only [add_eq_of_lt, hr, hr', lower_comm _ h]
    · simp only [add_eq_of_lt, add_eq_of_le, hr, hr', h, lower_comm _ h]
  · rw [add_eq_of_le hr, add_eq_of_le h.le, add_eq_of_le (hr.trans h.le), add_eq_of_lt h,
      lower_comm _ h]

lemma start_eq (r : ClaimRecord) : Fold.start r = ⟨lower none r, r.commentId, r.kind, r⟩ := by
  simp [Fold.start, lower]

lemma start_add (h : r.commentId < r'.commentId) :
    (Fold.start r).add r' = (Fold.start r').add r := by
  rw [start_eq, start_eq, add_eq_of_le h.le, add_eq_of_lt h, lower_comm _ h]

lemma ingestOne_comm (h : r.commentId ≠ r'.commentId) (f : Option Fold) :
    ingestOne w (ingestOne w f r) r' = ingestOne w (ingestOne w f r') r := by
  wlog hlt : r.commentId < r'.commentId generalizing r r'
  · exact (this h.symm (by omega)).symm
  by_cases hr : r.worker ≠ [] ∧ w = r.worker
  · by_cases hr' : r'.worker ≠ [] ∧ w = r'.worker
    · simp only [ingestOne, if_pos hr, if_pos hr', Option.elim_some, Option.some.injEq]
      cases f with
      | none => exact start_add hlt
      | some f => exact add_comm f hlt
    · simp only [ingestOne, if_pos hr, if_neg hr']
  · simp only [ingestOne, if_neg hr]

lemma foldl_swap {σ α : Type*} {f : σ → α → σ} {xs ys : List α}
    (h : ∀ x ∈ xs, ∀ y ∈ ys, ∀ z, f (f z x) y = f (f z y) x) (z : σ) :
    ys.foldl f (xs.foldl f z) = xs.foldl f (ys.foldl f z) := by
  have hone : ∀ x, ∀ ys : List α, (∀ y ∈ ys, ∀ z, f (f z x) y = f (f z y) x) →
      ∀ z, ys.foldl f (f z x) = f (ys.foldl f z) x := by
    intro x ys hx
    induction ys with
    | nil => exact fun z => rfl
    | cons y ys ih =>
      intro z
      rw [foldl_cons, foldl_cons, hx y mem_cons_self]
      exact ih (fun y hy => hx y (mem_cons_of_mem _ hy)) _
  induction xs generalizing z with
  | nil => rfl
  | cons x xs ih =>
    rw [foldl_cons, foldl_cons, ih fun x hx => h x (mem_cons_of_mem _ hx),
      hone x ys (h x mem_cons_self)]

lemma commentId_of_mem (h : r ∈ parseClaimRecords [c]) : r.commentId = c.id := by
  rw [parseClaimRecords, flatMap_singleton, mem_filterMap] at h
  obtain ⟨marker, -, hrec⟩ := h
  simp only [recordOf] at hrec
  split at hrec
  · cases hrec
  · cases hrec
    rfl

lemma records_eq (comments : List RawClaimComment) :
    parseClaimRecords comments = comments.flatMap fun c => parseClaimRecords [c] := by
  simp [parseClaimRecords]

lemma folds_perm (hids : (comments.map (·.id)).Nodup) (h : comments ~ comments') :
    (folds (parseClaimRecords comments) self).entries ~
      (folds (parseClaimRecords comments') self).entries := by
  have hlook : ∀ w, (folds (parseClaimRecords comments) self).lookup w =
      (folds (parseClaimRecords comments') self).lookup w := by
    intro w
    simp only [folds, foldRecords, lookup_foldl_ingest, foldl_append]
    congr 1
    rw [records_eq comments, records_eq comments', foldl_flatMap, foldl_flatMap]
    apply h.foldl_eq'
    intro c hc d hd z
    by_cases hcd : c.id = d.id
    · rw [inj_on_of_nodup_map hids hc hd hcd]
    · apply foldl_swap
      intro r hr r' hr'
      apply ingestOne_comm
      rwa [commentId_of_mem hr, commentId_of_mem hr']
  apply lookup_ext (AList.nodupKeys _) (AList.nodupKeys _)
  intro w f
  have hw := hlook w
  simp only [AList.lookup] at hw
  rw [hw]

lemma sort_contenders {cs cs' : List Contender} (h : cs ~ cs') :
    cs.insertionSort Contender.precedes = cs'.insertionSort Contender.precedes :=
  Perm.eq_of_pairwise (fun _ _ _ _ => precedes_antisymm) (pairwise_insertionSort _ _)
    (pairwise_insertionSort _ _)
    ((perm_insertionSort _ _).trans (h.trans (perm_insertionSort _ _).symm))

lemma sort_owners {ws ws' : List Text} (h : ws ~ ws') : sortOwners ws = sortOwners ws' := by
  have : Std.Total fun a b : Text => utf16Lt b a = false :=
    ⟨fun a b => by simpa only [utf16Lt_eq_false] using le_total _ _⟩
  have : IsTrans Text fun a b => utf16Lt b a = false :=
    ⟨fun a b c => by simpa only [utf16Lt_eq_false] using le_trans⟩
  exact Perm.eq_of_pairwise (fun a b _ _ hab hba => eq_of_not_lt hba hab)
    (pairwise_insertionSort _ _) (pairwise_insertionSort _ _)
    ((perm_insertionSort _ _).trans (h.trans (perm_insertionSort _ _).symm))

/-- Who wins, with what claim, in whose place and for what reason does not depend on the order
in which the comments are listed. -/
theorem decided_in_any_order (hids : (comments.map (·.id)).Nodup) (h : comments ~ comments') :
    reconcileClaim isStale (parseClaimRecords comments) self =
      reconcileClaim isStale (parseClaimRecords comments') self := by
  have hfolds := @folds_perm comments comments' self hids h
  have hlook (w : Text) : (folds (parseClaimRecords comments) self).lookup w =
      (folds (parseClaimRecords comments') self).lookup w :=
    perm_dlookup w (AList.nodupKeys _) hfolds
  have hfresh : selfPostedFresh (parseClaimRecords comments) self =
      selfPostedFresh (parseClaimRecords comments') self := by
    unfold selfPostedFresh
    rw [records_eq comments, records_eq comments']
    exact (h.flatMap_right _).all_eq
  have hdropp : isDropped isStale (parseClaimRecords comments) self =
      isDropped isStale (parseClaimRecords comments') self := by
    funext w f
    simp only [isDropped, hfresh]
  have hcont : contenders isStale (parseClaimRecords comments) self ~
      contenders isStale (parseClaimRecords comments') self := by
    unfold contenders contendersOf
    rw [hdropp]
    exact hfolds.filterMap _
  have hstale : stale isStale (parseClaimRecords comments) self ~
      stale isStale (parseClaimRecords comments') self := by
    unfold stale contendersOf
    rw [hdropp]
    exact hfolds.filterMap _
  have hrecov (id : ℕ) := sort_owners ((hstale.filter (·.claimId < id)).map (·.worker))
  unfold sortOwners at hrecov
  simp only [reconcileClaim, sort_contenders hcont, hcont.length_eq, hfresh, hlook, hrecov]

theorem decided_backwards :
    let first : RawClaimComment := ⟨1, "<!-- afk:claim v1 worker=one kind=claim -->".toList, none⟩
    let second : RawClaimComment := ⟨2, "<!-- afk:claim v1 worker=two kind=claim -->".toList, none⟩
    let self : ClaimSelf := ⟨"two".toList, 2, none, none⟩
    reconcileClaim neverStale (parseClaimRecords [second, first]) self =
      reconcileClaim neverStale (parseClaimRecords [first, second]) self :=
  decided_in_any_order (by decide) (.swap _ _ _)

end Redskilled.Tracker.ElectionOrder
