import Mathlib.Data.List.MinMax
import Redskilled.Tracker.ClaimReconcile

/-!
# Stale claims

The second reader of the claim history: `classifyIssueClaims` folds the markers of an issue
per worker, as the reconciler does, and goes through the workers in the order of their first
markers. Who conceded and who is stale is listed, and the live owner is the first worker with
the lowest claim id among the others.
-/
namespace Redskilled.Tracker.ClaimStaleness
open Foundation Foundation.Text ClaimMarker ClaimReconcile List Option

structure IssueClaimState where
  liveOwner : Option Text
  staleOwners : List Text
  concededOwners : List Text

structure Scan where
  liveOwner : Option Text := none
  liveOwnerId : Option Nat := none
  staleOwners : List Text := []
  concededOwners : List Text := []

section
variable (isStale : ClaimRecord → Bool)

def Scan.visit (s : Scan) (worker : Text) (f : Fold) : Scan :=
  if f.latestKind = .concede then { s with concededOwners := s.concededOwners ++ [worker] }
  else
    match f.earliestClaimId with
    | none => s
    | some id =>
      if isStale f.latestRecord then { s with staleOwners := s.staleOwners ++ [worker] }
      else if s.liveOwnerId.all (id < ·) then
        { s with liveOwnerId := some id, liveOwner := some worker }
      else s

def scan (entries : List (Σ _ : Text, Fold)) : Scan :=
  entries.foldl (fun s e => s.visit isStale e.1 e.2) {}

/-- The order of `staleOwners.sort()`. -/
def sortOwners (owners : List Text) : List Text := owners.insertionSort fun a b => utf16Lt b a = false

/-- The source writes the fold of the reconciler out a second time. -/
def classifyIssueClaims (records : List ClaimRecord) : IssueClaimState :=
  let s := scan isStale (foldRecords records).entries
  { liveOwner := s.liveOwner
    staleOwners := sortOwners s.staleOwners
    concededOwners := sortOwners s.concededOwners }

end

section
variable {isStale : ClaimRecord → Bool} {entries : List (Σ _ : Text, Fold)}

lemma scan_snoc (entries : List (Σ _ : Text, Fold)) (e : Σ _ : Text, Fold) :
    scan isStale (entries ++ [e]) = (scan isStale entries).visit isStale e.1 e.2 := by
  rw [scan, scan, foldl_append, foldl_cons, foldl_nil]

def liveContender (isStale : ClaimRecord → Bool) (e : Σ _ : Text, Fold) : Option Contender :=
  e.2.claimId.bind fun id => if !isStale e.2.latestRecord then some ⟨e.1, id⟩ else none

def liveContenders (isStale : ClaimRecord → Bool) (records : List ClaimRecord) : List Contender :=
  contendersOf (foldRecords records) fun _ f => !isStale f.latestRecord

lemma visit_live (s : Scan) (e : Σ _ : Text, Fold) :
    ((s.visit isStale e.1 e.2).liveOwner, (s.visit isStale e.1 e.2).liveOwnerId) =
      match liveContender isStale e with
      | none => (s.liveOwner, s.liveOwnerId)
      | some c =>
        if s.liveOwnerId.all (c.claimId < ·) then (some c.worker, some c.claimId)
        else (s.liveOwner, s.liveOwnerId) := by
  unfold Scan.visit liveContender Fold.claimId
  by_cases hconc : e.2.latestKind = .concede
  · simp [hconc]
  · cases hid : e.2.earliestClaimId with
    | none => simp [hconc]
    | some id =>
      by_cases hstale : isStale e.2.latestRecord = true
      · simp [hconc, hstale]
      · by_cases hlow : s.liveOwnerId.all (id < ·) = true
        · simp [hconc, hstale, hlow]
        · simp [hconc, hstale, hlow]

lemma scan_live (entries : List (Σ _ : Text, Fold)) :
    let least := (entries.filterMap (liveContender isStale)).argmin Contender.claimId
    ((scan isStale entries).liveOwner, (scan isStale entries).liveOwnerId) =
      (least.map Contender.worker, least.map Contender.claimId) := by
  induction entries using List.reverseRecOn with
  | nil => rfl
  | append_singleton entries e ih =>
    dsimp only at ih ⊢
    obtain ⟨hown, hid⟩ := Prod.mk.inj ih
    rw [scan_snoc, visit_live, hown, hid, List.filterMap_append]
    cases hlive : liveContender isStale e with
    | none => simp [hlive]
    | some c =>
      have hone : [e].filterMap (liveContender isStale) = [c] := by simp [hlive]
      rw [hone, List.argmin_concat]
      cases (entries.filterMap (liveContender isStale)).argmin Contender.claimId with
      | none => rfl
      | some d =>
        by_cases hlow : c.claimId < d.claimId
        · simp [hlow]
        · simp [hlow]

lemma liveOwner_eq (isStale : ClaimRecord → Bool) (records : List ClaimRecord) :
    (classifyIssueClaims isStale records).liveOwner =
      ((liveContenders isStale records).argmin Contender.claimId).map Contender.worker :=
  (Prod.mk.inj (@scan_live isStale (foldRecords records).entries)).1

lemma mem_scan_stale {w : Text} : w ∈ (scan isStale entries).staleOwners ↔
    ∃ f id, ⟨w, f⟩ ∈ entries ∧ f.claimId = some id ∧ isStale f.latestRecord = true := by
  induction entries using reverseRecOn with
  | nil => simp [scan]
  | append_singleton entries e ih =>
    have hvis : w ∈ (scan isStale (entries ++ [e])).staleOwners ↔
        w ∈ (scan isStale entries).staleOwners ∨
          w = e.1 ∧ (∃ id, e.2.claimId = some id) ∧ isStale e.2.latestRecord = true := by
      rw [scan_snoc]
      unfold Scan.visit Fold.claimId
      by_cases hconc : e.2.latestKind = .concede
      · simp [hconc]
      · cases hid : e.2.earliestClaimId with
        | none => simp [hconc]
        | some id =>
          by_cases hstale : isStale e.2.latestRecord = true
          · simp [hconc, hstale]
          · by_cases hlow : (scan isStale entries).liveOwnerId.all (id < ·) = true
            · simp [hconc, hstale, hlow]
            · simp [hconc, hstale, hlow]
    rw [hvis, ih]
    constructor
    · rintro (⟨f, id, hf, hid, hstale⟩ | ⟨rfl, ⟨id, hid⟩, hstale⟩)
      · exact ⟨f, id, mem_append_left _ hf, hid, hstale⟩
      · exact ⟨e.2, id, by simp, hid, hstale⟩
    · rintro ⟨f, id, hf, hid, hstale⟩
      rcases mem_append.mp hf with hf | hf
      · exact Or.inl ⟨f, id, hf, hid, hstale⟩
      · obtain rfl := mem_singleton.mp hf
        exact Or.inr ⟨rfl, ⟨id, hid⟩, hstale⟩

lemma mem_sortOwners {w : Text} {owners : List Text} : w ∈ sortOwners owners ↔ w ∈ owners :=
  mem_insertionSort _

end

/-- `r` is the latest word of `w`: no marker of `w` has a higher id, and of those with the
same id it is the last. -/
def Latest (records : List ClaimRecord) (w : Text) (r : ClaimRecord) : Prop :=
  ∃ before after, records = before ++ r :: after ∧ r.worker = w ∧
    (∀ a ∈ before, a.worker = w → a.commentId ≤ r.commentId) ∧
    ∀ a ∈ after, a.worker = w → a.commentId < r.commentId

/-- The lowest id of a claim of `w`. -/
def Earliest (records : List ClaimRecord) (w : Text) (id : Nat) : Prop :=
  (∃ r ∈ records, r.worker = w ∧ r.kind = .claim ∧ r.commentId = id) ∧
    ∀ r ∈ records, r.worker = w → r.kind = .claim → id ≤ r.commentId

structure Tells (f : Fold) (records : List ClaimRecord) (w : Text) : Prop where
  latest : Latest records w f.latestRecord
  latestId : f.latestId = f.latestRecord.commentId
  latestKind : f.latestKind = f.latestRecord.kind
  earliest : ∀ id, f.earliestClaimId = some id → Earliest records w id
  unclaimed : f.earliestClaimId = none → ∀ r ∈ records, r.worker = w → r.kind ≠ .claim

section
variable {records : List ClaimRecord} {w : Text} {r : ClaimRecord} {f : Fold} {id : Nat}

lemma Latest.mem (h : Latest records w r) : r ∈ records := by
  obtain ⟨before, after, rfl, -⟩ := h
  simp

lemma Latest.worker (h : Latest records w r) : r.worker = w := by
  obtain ⟨-, -, -, hw, -⟩ := h
  exact hw

lemma Latest.frame {a : ClaimRecord} (h : Latest records w r)
    (ha : a.worker = w → a.commentId < r.commentId) : Latest (records ++ [a]) w r := by
  obtain ⟨before, after, rfl, hw, hbef, haft⟩ := h
  refine ⟨before, after ++ [a], by simp, hw, hbef, ?_⟩
  intro b hb
  rcases mem_append.mp hb with hb | hb
  · exact haft b hb
  · rw [mem_singleton.mp hb]
    exact ha

lemma latest_snoc (h : ∀ a ∈ records, a.worker = r.worker → a.commentId ≤ r.commentId) :
    Latest (records ++ [r]) r.worker r :=
  ⟨records, [], rfl, rfl, h, fun _ ha => absurd ha not_mem_nil⟩

lemma Latest.max (h : Latest records w r) {a : ClaimRecord} (ha : a ∈ records)
    (haw : a.worker = w) : a.commentId ≤ r.commentId := by
  obtain ⟨before, after, rfl, hw, hbef, haft⟩ := h
  rcases mem_append.mp ha with ha | ha
  · exact hbef a ha haw
  · rcases mem_cons.mp ha with rfl | ha
    · exact le_rfl
    · exact (haft a ha haw).le

lemma Latest.unique {r' : ClaimRecord} (h : Latest records w r) (h' : Latest records w r') :
    r = r' := by
  obtain ⟨before, after, rfl, hw, hbef, haft⟩ := h
  obtain ⟨before', after', heq, hw', hbef', haft'⟩ := h'
  rcases append_eq_append_iff.mp heq with ⟨mid, rfl, hmid⟩ | ⟨mid, rfl, hmid⟩
  · cases mid with
    | nil => exact (cons.inj hmid).1
    | cons m mid =>
      -- `r'` stands behind `r`, so each has the larger id
      obtain ⟨rfl, rfl⟩ := cons.inj hmid
      have hlt := haft r' (by simp) hw'
      have hle := hbef' r (by simp) hw
      omega
  · cases mid with
    | nil => exact (cons.inj hmid).1.symm
    | cons m mid =>
      obtain ⟨rfl, rfl⟩ := cons.inj hmid
      have hlt := haft' r (by simp) hw
      have hle := hbef r' (by simp) hw'
      omega

lemma Earliest.unique {id' : Nat} (h : Earliest records w id) (h' : Earliest records w id') :
    id = id' := by
  obtain ⟨⟨r, hr, hrw, hrk, rfl⟩, hleast⟩ := h
  obtain ⟨⟨r', hr', hrw', hrk', rfl⟩, hleast'⟩ := h'
  exact Nat.le_antisymm (hleast r' hr' hrw' hrk') (hleast' r hr hrw hrk)

lemma Earliest.keep {a : ClaimRecord} (h : Earliest records w id)
    (ha : a.worker = w → a.kind = .claim → id ≤ a.commentId) : Earliest (records ++ [a]) w id := by
  obtain ⟨⟨b, hb, hbw, hbk, hbid⟩, hleast⟩ := h
  refine ⟨⟨b, mem_append_left _ hb, hbw, hbk, hbid⟩, ?_⟩
  intro c hc
  rcases mem_append.mp hc with hc | hc
  · exact hleast c hc
  · rw [mem_singleton.mp hc]
    exact ha

lemma earliest_snoc (hk : r.kind = .claim)
    (h : ∀ a ∈ records, a.worker = r.worker → a.kind = .claim → r.commentId ≤ a.commentId) :
    Earliest (records ++ [r]) r.worker r.commentId := by
  refine ⟨⟨r, by simp, rfl, hk, rfl⟩, ?_⟩
  intro c hc
  rcases mem_append.mp hc with hc | hc
  · exact h c hc
  · rw [mem_singleton.mp hc]
    exact fun _ _ => le_rfl

lemma start_tells (h : ∀ a ∈ records, a.worker ≠ r.worker) :
    Tells (.start r) (records ++ [r]) r.worker := by
  have hnone : ∀ {p : ClaimRecord → Prop}, ∀ a ∈ records, a.worker = r.worker → p a :=
    fun a ha haw => absurd haw (h a ha)
  constructor
  · exact latest_snoc hnone
  · rfl
  · rfl
  · intro id hid
    rw [Fold.start, ite_none_right_eq_some] at hid
    obtain ⟨hk, hsome⟩ := hid
    cases hsome
    exact earliest_snoc hk hnone
  · intro hid a ha haw
    rcases mem_append.mp ha with ha | ha
    · exact absurd haw (h a ha)
    · obtain rfl := mem_singleton.mp ha
      simpa [Fold.start] using hid

lemma Tells.add_claims (h : Tells f records r.worker) :
    (∀ id, (f.add r).earliestClaimId = some id → Earliest (records ++ [r]) r.worker id) ∧
      ((f.add r).earliestClaimId = none →
        ∀ a ∈ records ++ [r], a.worker = r.worker → a.kind ≠ .claim) := by
  have hadd : (f.add r).earliestClaimId =
      if r.kind = .claim ∧ f.earliestClaimId.all (r.commentId < ·) then some r.commentId
      else f.earliestClaimId := by
    unfold Fold.add
    dsimp only
    split_ifs <;> rfl
  rw [hadd]
  split_ifs with hlow
  · obtain ⟨hk, hall⟩ := hlow
    constructor
    · rintro id ⟨⟩
      apply earliest_snoc hk
      intro a ha haw hak
      cases hid : f.earliestClaimId with
      | none => exact absurd hak (h.unclaimed hid a ha haw)
      | some id =>
        have hle := (h.earliest id hid).2 a ha haw hak
        have hlt : r.commentId < id := by simpa [hid] using hall
        omega
    · rintro ⟨⟩
  · constructor
    · intro id hid
      apply (h.earliest id hid).keep
      intro _ hk
      have hnot : ¬ r.commentId < id := fun hlt => hlow ⟨hk, by simp [hid, hlt]⟩
      omega
    · intro hid a ha haw
      rcases mem_append.mp ha with ha | ha
      · exact h.unclaimed hid a ha haw
      · obtain rfl := mem_singleton.mp ha
        exact fun hk => hlow ⟨hk, by simp [hid]⟩

lemma add_tells (h : Tells f records r.worker) : Tells (f.add r) (records ++ [r]) r.worker := by
  obtain ⟨hearl, huncl⟩ := h.add_claims
  have hadd : (f.add r).latestRecord = (if f.latestId ≤ r.commentId then r else f.latestRecord) ∧
      (f.add r).latestId = (if f.latestId ≤ r.commentId then r.commentId else f.latestId) ∧
      (f.add r).latestKind = (if f.latestId ≤ r.commentId then r.kind else f.latestKind) := by
    unfold Fold.add
    dsimp only
    split_ifs <;> exact ⟨rfl, rfl, rfl⟩
  obtain ⟨hrec, hid, hkind⟩ := hadd
  by_cases hle : f.latestId ≤ r.commentId
  · rw [if_pos hle] at hrec hid hkind
    refine ⟨?_, by rw [hid, hrec], by rw [hkind, hrec], hearl, huncl⟩
    rw [hrec]
    apply latest_snoc
    intro a ha haw
    have hmax := h.latest.max ha haw
    have hlat := h.latestId
    omega
  · rw [if_neg hle] at hrec hid hkind
    refine ⟨?_, by rw [hid, hrec, h.latestId], by rw [hkind, hrec, h.latestKind], hearl, huncl⟩
    rw [hrec]
    apply h.latest.frame
    intro _
    have hlat := h.latestId
    omega

lemma Tells.frame (h : Tells f records w) (hr : r.worker ≠ w) : Tells f (records ++ [r]) w := by
  constructor
  · exact h.latest.frame fun hw => absurd hw hr
  · exact h.latestId
  · exact h.latestKind
  · exact fun id hid => (h.earliest id hid).keep fun hw => absurd hw hr
  · intro hid a ha haw
    rcases mem_append.mp ha with ha | ha
    · exact h.unclaimed hid a ha haw
    · rw [mem_singleton.mp ha] at haw
      exact absurd haw hr

lemma foldRecords_tells (records : List ClaimRecord) {w : Text} (hw : w ≠ []) :
    ((foldRecords records).lookup w).elim (∀ r ∈ records, r.worker ≠ w) (Tells · records w) := by
  induction records using reverseRecOn with
  | nil => simp [foldRecords]
  | append_singleton records r ih =>
    have hfold : foldRecords (records ++ [r]) = ingest (foldRecords records) r := by
      simp [foldRecords, foldl_append]
    rw [hfold, lookup_ingest]
    by_cases hrw : w = r.worker
    · subst hrw
      rw [if_pos ⟨hw, rfl⟩, elim_some]
      cases hf : (foldRecords records).lookup r.worker with
      | none => exact start_tells (by simpa [hf] using ih)
      | some f => exact add_tells (by simpa [hf] using ih)
    · rw [if_neg fun h => hrw h.2]
      cases hf : (foldRecords records).lookup w with
      | none =>
        rw [hf, elim_none] at ih
        rw [elim_none]
        intro a ha
        rcases mem_append.mp ha with ha | ha
        · exact ih a ha
        · rw [mem_singleton.mp ha]
          exact fun h => hrw h.symm
      | some f =>
        rw [hf, elim_some] at ih
        exact ih.frame fun h => hrw h.symm

/-- The claim that a worker stands by. -/
def Stands (records : List ClaimRecord) (w : Text) (r : ClaimRecord) (id : Nat) : Prop :=
  Latest records w r ∧ r.kind = .claim ∧ Earliest records w id

lemma Tells.claimId_iff (h : Tells f records w) :
    f.claimId = some id ↔ Stands records w f.latestRecord id := by
  rw [Fold.claimId, h.latestKind, Stands]
  cases hk : f.latestRecord.kind with
  | concede => simp
  | claim =>
    simp only [reduceCtorEq, if_false, true_and]
    constructor
    · intro hid
      exact ⟨h.latest, h.earliest id hid⟩
    · rintro ⟨-, hearl⟩
      cases hid : f.earliestClaimId with
      | none =>
        obtain ⟨⟨a, ha, haw, hak, -⟩, -⟩ := hearl
        exact absurd hak (h.unclaimed hid a ha haw)
      | some jd => rw [(h.earliest jd hid).unique hearl]

lemma lookup_iff (hw : w ≠ []) :
    (∃ f, (foldRecords records).lookup w = some f ∧ f.claimId = some id ∧ f.latestRecord = r) ↔
      Stands records w r id := by
  have htells := foldRecords_tells records hw
  constructor
  · rintro ⟨f, hf, hid, rfl⟩
    rw [hf, elim_some] at htells
    exact htells.claimId_iff.mp hid
  · intro hstands
    cases hf : (foldRecords records).lookup w with
    | none =>
      rw [hf, elim_none] at htells
      exact absurd hstands.1.worker (htells r hstands.1.mem)
    | some f =>
      rw [hf, elim_some] at htells
      have hsame := htells.latest.unique hstands.1
      refine ⟨f, rfl, htells.claimId_iff.mpr ?_, hsame⟩
      rwa [hsame]

lemma exists_earliest {a : ClaimRecord} (ha : a ∈ records) (haw : a.worker = w)
    (hak : a.kind = .claim) : ∃ id, Earliest records w id := by
  classical
  have hclaim : ∃ id, ∃ b ∈ records, b.worker = w ∧ b.kind = .claim ∧ b.commentId = id :=
    ⟨_, a, ha, haw, hak, rfl⟩
  refine ⟨Nat.find hclaim, Nat.find_spec hclaim, ?_⟩
  intro b hb hbw hbk
  exact Nat.find_min' hclaim ⟨b, hb, hbw, hbk, rfl⟩

end

/-- A worker whose latest word is a claim that is not stale, and its claim id. -/
def Live (isStale : ClaimRecord → Bool) (records : List ClaimRecord) (w : Text) (id : Nat) : Prop :=
  w ≠ [] ∧ ∃ r, Stands records w r id ∧ isStale r = false

/-- Where in the records a worker is first named. -/
def seat (records : List ClaimRecord) (w : Text) : Nat := (records.map ClaimRecord.worker).idxOf w

section
variable {isStale : ClaimRecord → Bool} {records : List ClaimRecord} {w : Text} {id : Nat}

lemma foldRecords_unnamed {f : Fold} : (foldRecords records).lookup [] ≠ some f := by
  rw [lookup_foldRecords_unnamed]
  rintro ⟨⟩

lemma mem_liveContenders {c : Contender} :
    c ∈ liveContenders isStale records ↔ Live isStale records c.worker c.claimId := by
  rw [liveContenders, mem_contendersOf]
  constructor
  · rintro ⟨f, hf, hid, hlive⟩
    have hw : c.worker ≠ [] := by
      intro hw
      rw [hw] at hf
      exact foldRecords_unnamed hf
    exact ⟨hw, f.latestRecord, (lookup_iff hw).mp ⟨f, hf, hid, rfl⟩, by simpa using hlive⟩
  · rintro ⟨hw, r, hstands, hlive⟩
    obtain ⟨f, hf, hid, rfl⟩ := (lookup_iff hw).mpr hstands
    exact ⟨f, hf, hid, by simpa using hlive⟩

lemma keys_ingest (m : JsMap Text Fold) (r : ClaimRecord) : (ingest m r).keys = m.keys ∨
      r.worker ≠ [] ∧ m.lookup r.worker = none ∧ (ingest m r).keys = m.keys ++ [r.worker] := by
  unfold ingest
  split_ifs with hr
  · exact Or.inl rfl
  · cases hf : m.lookup r.worker with
    | none =>
      have hnew : r.worker ∉ m := AList.lookup_eq_none.mp hf
      exact Or.inr ⟨hr, rfl, JsMap.keys_set_of_notMem _ hnew⟩
    | some f =>
      have hold : r.worker ∈ m := AList.lookup_isSome.mp (by rw [hf]; rfl)
      exact Or.inl (JsMap.keys_set_of_mem _ hold)

lemma mem_of_mem_keys (h : w ∈ (foldRecords records).keys) :
    w ∈ records.map ClaimRecord.worker := by
  obtain ⟨f, hf⟩ := JsMap.mem_iff_lookup.mp (AList.mem_keys.mpr h)
  have hw : w ≠ [] := by
    rintro rfl
    exact foldRecords_unnamed hf
  have htells := foldRecords_tells records hw
  rw [hf, elim_some] at htells
  exact mem_map.mpr ⟨_, htells.latest.mem, htells.latest.worker⟩

lemma seat_snoc {r : ClaimRecord} (h : w ∈ records.map ClaimRecord.worker) :
    seat (records ++ [r]) w = seat records w := by
  rw [seat, seat, map_append, idxOf_append_of_mem h]

lemma seat_new {r : ClaimRecord} (h : r.worker ∉ records.map ClaimRecord.worker) :
    seat (records ++ [r]) r.worker = records.length := by
  rw [seat, map_append, idxOf_append_of_notMem h, length_map]
  simp

lemma keys_seated (records : List ClaimRecord) :
    (foldRecords records).keys.Pairwise fun v w => seat records v < seat records w := by
  induction records using reverseRecOn with
  | nil => exact List.Pairwise.nil
  | append_singleton records r ih =>
    have hfold : foldRecords (records ++ [r]) = ingest (foldRecords records) r := by
      simp [foldRecords, foldl_append]
    have hkeep : (foldRecords records).keys.Pairwise fun v w =>
        seat (records ++ [r]) v < seat (records ++ [r]) w := by
      refine ih.imp_of_mem fun hv hw hlt => ?_
      rwa [seat_snoc (mem_of_mem_keys hv), seat_snoc (mem_of_mem_keys hw)]
    rw [hfold]
    rcases keys_ingest (foldRecords records) r with hsame | ⟨hr, hnew, happ⟩
    · rwa [hsame]
    · rw [happ, pairwise_append]
      refine ⟨hkeep, pairwise_singleton _ _, ?_⟩
      intro v hv u hu
      rw [mem_singleton.mp hu, seat_snoc (mem_of_mem_keys hv), seat_new]
      · have hlt := idxOf_lt_length_iff.mpr (mem_of_mem_keys hv)
        rwa [length_map] at hlt
      · have htells := foldRecords_tells records hr
        rw [hnew, elim_none] at htells
        intro hmem
        obtain ⟨a, ha, haw⟩ := mem_map.mp hmem
        exact htells a ha haw

lemma pairwise_of_idxOf {α : Type*} [DecidableEq α] {l : List α} {R : α → α → Prop}
    (h : l.Pairwise R) {a b : α} (ha : a ∈ l) (hb : b ∈ l) (hlt : l.idxOf a < l.idxOf b) : R a b := by
  have hrel := pairwise_iff_getElem.mp h _ _ (idxOf_lt_length_iff.mpr ha)
    (idxOf_lt_length_iff.mpr hb) hlt
  rwa [getElem_idxOf, getElem_idxOf] at hrel

lemma liveContenders_seated (isStale : ClaimRecord → Bool) (records : List ClaimRecord) :
    (liveContenders isStale records).Pairwise fun c d =>
      seat records c.worker < seat records d.worker := by
  have hkeys := keys_seated records
  rw [AList.keys, keys, pairwise_map] at hkeys
  rw [liveContenders, contendersOf, pairwise_filterMap]
  refine hkeys.imp ?_
  intro e e' hlt c hc d hd
  obtain ⟨id, -, hc⟩ := bind_eq_some_iff.mp hc
  obtain ⟨jd, -, hd⟩ := bind_eq_some_iff.mp hd
  rw [ite_none_right_eq_some] at hc hd
  obtain ⟨-, hc⟩ := hc
  obtain ⟨-, hd⟩ := hd
  cases hc
  cases hd
  exact hlt

/-- The live worker that `classifyIssueClaims` settles on: the lowest claim id, and the first
seat among those that have it. -/
structure Foremost (isStale : ClaimRecord → Bool) (records : List ClaimRecord) (w : Text)
    (id : Nat) : Prop where
  live : Live isStale records w id
  lowest : ∀ v jd, Live isStale records v jd → id ≤ jd
  seated : ∀ v, Live isStale records v id → seat records w ≤ seat records v

lemma Live.unique {jd : Nat} (h : Live isStale records w id) (h' : Live isStale records w jd) :
    id = jd := by
  obtain ⟨-, r, hstands, -⟩ := h
  obtain ⟨-, r', hstands', -⟩ := h'
  exact hstands.2.2.unique hstands'.2.2

lemma Foremost.of_argmin {c : Contender}
    (h : (liveContenders isStale records).argmin Contender.claimId = some c) :
    Foremost isStale records c.worker c.claimId := by
  obtain ⟨hmem, hleast, hfirst⟩ := mem_argmin_iff.mp h
  refine ⟨mem_liveContenders.mp hmem, ?_, ?_⟩
  · intro v jd hv
    exact hleast ⟨v, jd⟩ (mem_liveContenders.mpr hv)
  · intro v hv
    have hvmem : (⟨v, c.claimId⟩ : Contender) ∈ liveContenders isStale records :=
      mem_liveContenders.mpr hv
    rcases Nat.lt_or_eq_of_le (hfirst _ hvmem le_rfl) with hlt | heq
    · exact (pairwise_of_idxOf (liveContenders_seated isStale records) hmem hvmem hlt).le
    · have hsame := (idxOf_inj hmem).mp heq
      rw [hsame]

lemma liveOwner_none :
    (classifyIssueClaims isStale records).liveOwner = none ↔ ∀ w id, ¬ Live isStale records w id := by
  rw [liveOwner_eq, map_eq_none_iff, argmin_eq_none, eq_nil_iff_forall_not_mem]
  constructor
  · intro h w id hlive
    exact h ⟨w, id⟩ (mem_liveContenders.mpr hlive)
  · intro h c hc
    exact h c.worker c.claimId (mem_liveContenders.mp hc)

lemma Live.mem_map {w : Text} {id : Nat} (h : Live isStale records w id) :
    w ∈ records.map ClaimRecord.worker := by
  obtain ⟨-, r, hstands, -⟩ := h
  exact List.mem_map.mpr ⟨r, hstands.1.mem, hstands.1.worker⟩

lemma Foremost.unique {v w : Text} {id jd : Nat} (h : Foremost isStale records v id)
    (h' : Foremost isStale records w jd) : v = w ∧ id = jd := by
  obtain rfl : id = jd := Nat.le_antisymm (h.lowest w jd h'.live) (h'.lowest v id h.live)
  have hseat : seat records v = seat records w :=
    Nat.le_antisymm (h.seated w h'.live) (h'.seated v h.live)
  exact ⟨(idxOf_inj (Live.mem_map h.live)).mp hseat, rfl⟩

lemma exists_foremost (hlive : liveContenders isStale records ≠ []) :
    ∃ c ∈ liveContenders isStale records, Foremost isStale records c.worker c.claimId ∧
      (classifyIssueClaims isStale records).liveOwner = some c.worker := by
  cases hleast : (liveContenders isStale records).argmin Contender.claimId with
  | none => exact absurd (argmin_eq_none.mp hleast) hlive
  | some c =>
    refine ⟨c, argmin_mem hleast, Foremost.of_argmin hleast, ?_⟩
    rw [liveOwner_eq, hleast, map_some]

lemma liveContenders_eq_nil :
    liveContenders isStale records = [] ↔ ∀ w id, ¬ Live isStale records w id := by
  rw [← liveOwner_none, liveOwner_eq, map_eq_none_iff, argmin_eq_none]

end

end Redskilled.Tracker.ClaimStaleness
