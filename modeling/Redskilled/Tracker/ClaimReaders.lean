import Redskilled.Foundation.Json
import Redskilled.Tracker.ClaimStaleness

/-!
# The two readers of a claim history

The reconciler and `classifyIssueClaims` read the same markers. A newcomer that reconciles
behind all of them wins exactly when the other reader sees no live owner, and otherwise it
loses to a live worker with the lowest claim id.
-/
namespace Redskilled.Tracker.ClaimReaders
open Foundation Foundation.Text ClaimMarker ClaimReconcile ClaimStaleness List

lemma utf16_injective {s t : Text} (h : s.flatMap utf16 = t.flatMap utf16) : s = t := by
  apply Option.some.inj
  rw [← Json.ofUtf16_flatMap s, ← Json.ofUtf16_flatMap t, h]

lemma eq_of_not_lt {s t : Text} (h : utf16Lt s t = false) (h' : utf16Lt t s = false) : s = t := by
  rw [utf16Lt_eq_false] at h h'
  exact utf16_injective (le_antisymm h' h)

lemma utf16Lt_self (t : Text) : utf16Lt t t = false := by
  rw [utf16Lt_eq_false]

section
variable {isStale : ClaimRecord → Bool} {records : List ClaimRecord} {self : ClaimSelf}

structure Newcomer (records : List ClaimRecord) (claimant : ClaimSelf) : Prop where
  unnamed : ∀ r ∈ records, r.worker ≠ claimant.worker
  newest : ∀ r ∈ records, r.commentId < claimant.commentId

lemma Newcomer.fresh (h : Newcomer records self) : selfPostedFresh records self = true := by
  rw [selfPostedFresh, all_eq_true]
  intro r hr
  exact decide_eq_true (h.newest r hr).le

lemma Newcomer.lookup (h : Newcomer records self) (hself : self.worker ≠ []) :
    (foldRecords records).lookup self.worker = none := by
  have htells := foldRecords_tells records hself
  cases hf : (foldRecords records).lookup self.worker with
  | none => rfl
  | some f =>
    rw [hf, Option.elim_some] at htells
    exact absurd htells.latest.worker (h.unnamed _ htells.latest.mem)

lemma Newcomer.entries (h : Newcomer records self) (hself : self.worker ≠ []) :
    (folds records self).entries =
      (foldRecords records).entries ++ [⟨self.worker, .start self.record⟩] := by
  have hfold : folds records self = ingest (foldRecords records) self.record := by
    simp [folds, foldRecords, foldl_append]
  have hlook : (foldRecords records).lookup self.record.worker = none := h.lookup hself
  have hnam : self.record.worker ≠ [] := hself
  rw [hfold, ingest, if_neg hnam, hlook]
  exact JsMap.entries_set_of_none _ (h.lookup hself)

lemma Newcomer.contenders_eq (h : Newcomer records self) (hself : self.worker ≠ []) :
    contenders isStale records self =
      liveContenders isStale records ++ [⟨self.worker, self.commentId⟩] := by
  rw [contenders, contendersOf, h.entries hself, filterMap_append]
  congr 1
  · rw [liveContenders, contendersOf]
    apply filterMap_congr
    intro e he
    have hne : e.1 ≠ self.worker := by
      intro heq
      have hlook : (foldRecords records).lookup e.1 = some e.2 := AList.mem_lookup_iff.mpr he
      rw [heq, h.lookup hself] at hlook
      cases hlook
    simp [isDropped, hne]
  · simp [isDropped, h.fresh, Fold.start, Fold.claimId, ClaimSelf.record]

lemma Newcomer.live_lt (h : Newcomer records self) {c : Contender}
    (hc : c ∈ liveContenders isStale records) :
    c.worker ≠ self.worker ∧ c.claimId < self.commentId := by
  obtain ⟨-, r, hstands, -⟩ := mem_liveContenders.mp hc
  obtain ⟨⟨a, ha, -, -, hid⟩, -⟩ := hstands.2.2
  rw [← hstands.1.worker, ← hid]
  exact ⟨h.unnamed r hstands.1.mem, h.newest a ha⟩

lemma Newcomer.won (h : Newcomer records self) (hself : self.worker ≠ [])
    (hlive : liveContenders isStale records = []) :
    ∃ d, reconcileClaim isStale records self = .ok d ∧ d.verdict = .won := by
  have hsort : insertionSort Contender.precedes [⟨self.worker, self.commentId⟩] =
      [⟨self.worker, self.commentId⟩] := rfl
  unfold reconcileClaim
  rw [if_neg hself, h.contenders_eq hself, hlive, nil_append, hsort]
  dsimp only
  rw [if_pos rfl]
  exact ⟨_, rfl, rfl⟩

lemma Newcomer.lost (h : Newcomer records self) (hself : self.worker ≠ [])
    (hlive : liveContenders isStale records ≠ []) :
    ∃ d c, reconcileClaim isStale records self = .ok d ∧ d.verdict = .lost ∧
      d.winner = some c.worker ∧ c ∈ liveContenders isStale records ∧
      ∀ e ∈ liveContenders isStale records, e = c ∨ c.precedes e := by
  obtain ⟨first, hfirst⟩ := exists_mem_of_ne_nil _ hlive
  cases hsort : (contenders isStale records self).insertionSort Contender.precedes with
  | nil =>
    have hmem : first ∈ (contenders isStale records self).insertionSort Contender.precedes := by
      rw [mem_insertionSort, h.contenders_eq hself]
      exact mem_append_left _ hfirst
    rw [hsort] at hmem
    exact absurd hmem not_mem_nil
  | cons winner rest =>
    obtain ⟨hmem, hleast⟩ := head_contenders hsort
    rw [h.contenders_eq hself] at hmem hleast
    have hwinn : winner ∈ liveContenders isStale records := by
      rcases mem_append.mp hmem with hmem | hmem
      · exact hmem
      · -- every live worker precedes the newcomer
        obtain rfl := mem_singleton.mp hmem
        obtain ⟨hne, hlt⟩ := h.live_lt hfirst
        rcases hleast first (mem_append_left _ hfirst) with rfl | hprec
        · exact absurd rfl hne
        · rcases hprec with hid | ⟨hid, -⟩
          · dsimp only at hid
            omega
          · dsimp only at hid
            omega
    unfold reconcileClaim
    rw [if_neg hself, hsort]
    dsimp only
    rw [if_neg (h.live_lt hwinn).1]
    exact ⟨_, winner, rfl, rfl, rfl, hwinn, fun e he => hleast e (mem_append_left _ he)⟩

end

structure Agree (isStale : ClaimRecord → Bool) (records : List ClaimRecord) (claimant : ClaimSelf) :
    Prop where
  won : (∃ d, reconcileClaim isStale records claimant = .ok d ∧ d.verdict = .won) ↔
    (classifyIssueClaims isStale records).liveOwner = none
  lost : ∀ d, reconcileClaim isStale records claimant = .ok d → d.verdict = .lost →
    d.winner = (classifyIssueClaims isStale records).liveOwner

/-- Of the live workers with the lowest claim id, the one that is named first has the lowest
name. -/
def TieSettled (isStale : ClaimRecord → Bool) (records : List ClaimRecord) : Prop :=
  ∀ w id, Foremost isStale records w id → ∀ v, Live isStale records v id → utf16Lt v w = false

section
variable {isStale : ClaimRecord → Bool} {records : List ClaimRecord} {self : ClaimSelf}

/-- The worker that the newcomer loses to is the foremost one exactly when ties are settled by
name. -/
lemma winner_eq_iff {c d : Contender} (hd : d ∈ liveContenders isStale records)
    (hleast : ∀ e ∈ liveContenders isStale records, e = d ∨ d.precedes e)
    (hc : Foremost isStale records c.worker c.claimId) :
    d.worker = c.worker ↔ TieSettled isStale records := by
  have hdlive := mem_liveContenders.mp hd
  constructor
  · intro hsame w id hw v hv
    obtain ⟨rfl, rfl⟩ := hc.unique hw
    rcases hleast ⟨v, c.claimId⟩ (mem_liveContenders.mpr hv) with heq | hlt | ⟨-, hle⟩
    · rw [← hsame, ← heq]
      exact utf16Lt_self v
    · have hlow := hc.lowest d.worker d.claimId hdlive
      have hid := Live.unique hdlive (hsame ▸ hc.live)
      dsimp only at hlt
      omega
    · rwa [← hsame]
  · intro hsettl
    rcases hleast c (mem_liveContenders.mpr hc.live) with rfl | hlt | ⟨hid, hle⟩
    · rfl
    · have hlow := hc.lowest d.worker d.claimId hdlive
      omega
    · exact eq_of_not_lt (hsettl c.worker c.claimId hc d.worker (hid ▸ hdlive)) hle

lemma Newcomer.agree_iff (h : Newcomer records self) (hself : self.worker ≠ []) :
    Agree isStale records self ↔ TieSettled isStale records := by
  by_cases hlive : liveContenders isStale records = []
  · have hnob := liveContenders_eq_nil.mp hlive
    obtain ⟨d, hd, hwon⟩ := h.won hself hlive
    constructor
    · intro _ w id hw
      exact absurd hw.live (hnob w id)
    · intro _
      refine ⟨⟨fun _ => liveOwner_none.mpr hnob, fun _ => ⟨d, hd, hwon⟩⟩, ?_⟩
      intro d' hd' hlost
      obtain rfl := Except.ok.inj (hd.symm.trans hd')
      rw [hwon] at hlost
      cases hlost
  · obtain ⟨c, hcmem, hc, hown⟩ := exists_foremost hlive
    obtain ⟨d, e, hd, hlost, hwinn, he, hleast⟩ := h.lost hself hlive
    rw [← winner_eq_iff he hleast hc]
    constructor
    · intro hagr
      have hsame := hagr.lost d hd hlost
      rw [hwinn, hown] at hsame
      exact Option.some.inj hsame
    · intro hsame
      refine ⟨⟨?_, ?_⟩, ?_⟩
      · rintro ⟨d', hd', hwon⟩
        obtain rfl := Except.ok.inj (hd.symm.trans hd')
        rw [hlost] at hwon
        cases hwon
      · intro hnone
        rw [hown] at hnone
        cases hnone
      · intro d' hd' _
        obtain rfl := Except.ok.inj (hd.symm.trans hd')
        rw [hwinn, hown, hsame]

lemma agree_unnamed_iff (hself : self.worker = []) :
    Agree isStale records self ↔ ∃ w id, Live isStale records w id := by
  have herr : ∀ d, reconcileClaim isStale records self ≠ .ok d := by
    intro d hd
    rw [reconcileClaim, if_pos hself] at hd
    cases hd
  have hnone := @liveOwner_none isStale records
  constructor
  · intro hagr
    by_contra hnob
    simp only [not_exists] at hnob
    obtain ⟨d, hd, -⟩ := hagr.won.mpr (hnone.mpr hnob)
    exact herr d hd
  · rintro ⟨w, id, hlive⟩
    refine ⟨⟨?_, ?_⟩, ?_⟩
    · rintro ⟨d, hd, -⟩
      exact absurd hd (herr d)
    · intro hown
      exact absurd hlive (hnone.mp hown w id)
    · intro d hd
      exact absurd hd (herr d)

end

/-- The two readers agree on a newcomer exactly when the live worker that is named first among
those with the lowest claim id has the lowest name of them, or, for a claimant without a name,
when somebody is live. -/
theorem readers_agree_iff (isStale : ClaimRecord → Bool) (comments : List RawClaimComment)
    (self : ClaimSelf) (hnew : Newcomer (parseClaimRecords comments) self) :
    Agree isStale (parseClaimRecords comments) self ↔
      if self.worker = [] then ∃ w id, Live isStale (parseClaimRecords comments) w id
      else TieSettled isStale (parseClaimRecords comments) := by
  split_ifs with hself
  · exact agree_unnamed_iff hself
  · exact hnew.agree_iff hself

section

def marker (worker : String) : Text :=
  renderClaimComment { worker := worker.toList } .claim none

def forged : List RawClaimComment :=
  [{ id := 1, body := marker "b" ++ '\n' :: marker "a", createdAt := none }]

def newcomer : ClaimSelf := { worker := "c".toList, commentId := 2, runner := none, createdAt := none }

lemma newcomer_forged : Newcomer (parseClaimRecords forged) newcomer := by
  constructor
  · decide +kernel
  · decide +kernel

/-- The newcomer loses to `a`, and the other reader takes `b` for the owner. -/
theorem tie_disagrees : ¬ ∀ isStale comments self, Newcomer (parseClaimRecords comments) self →
      Agree isStale (parseClaimRecords comments) self := by
  intro h
  have hagr := h neverStale forged newcomer newcomer_forged
  have hreads : (reconcileClaim neverStale (parseClaimRecords forged) newcomer).toOption.map
      (fun d => (d.verdict, d.winner)) = some (.lost, some "a".toList) ∧
      (classifyIssueClaims neverStale (parseClaimRecords forged)).liveOwner = some "b".toList := by
    decide +kernel
  obtain ⟨hlos, hown⟩ := hreads
  cases hd : reconcileClaim neverStale (parseClaimRecords forged) newcomer with
  | error e =>
    rw [hd] at hlos
    cases hlos
  | ok d =>
    rw [hd] at hlos
    obtain ⟨hlost, hwinn⟩ := Prod.mk.inj (Option.some.inj hlos)
    have hsame := hagr.lost d hd hlost
    rw [hwinn, hown] at hsame
    exact absurd hsame (by decide)

def sole : List RawClaimComment := [{ id := 1, body := marker "b", createdAt := none }]

lemma newcomer_sole : Newcomer (parseClaimRecords sole) newcomer := by
  constructor
  · decide +kernel
  · decide +kernel

theorem sole_agrees : Agree neverStale (parseClaimRecords sole) newcomer ↔
      TieSettled neverStale (parseClaimRecords sole) := by
  have hiff := readers_agree_iff neverStale sole newcomer newcomer_sole
  rwa [if_neg (by decide)] at hiff

end

end Redskilled.Tracker.ClaimReaders
