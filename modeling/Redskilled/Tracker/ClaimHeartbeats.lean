import Redskilled.Foundation.IsoDate
import Redskilled.Tracker.ClaimReaders

/-!
# Heartbeats of held claims

A pass over the claims that are held locally edits the marker of each that is due. The edit writes
a whole comment in the place of another: the comment keeps its id, and with it the claim its place
in the queue.

A holder names the comment of its claim and the time that its marker carries. What an edit keeps
rests on that: the comment carries this marker and no other. A comment with several markers is
read marker by marker, and an edit takes them all away.

An issue is the list of its comments. Whether a marker is stale is asked of its timestamp alone,
by instants of any order.
-/
namespace Redskilled.Tracker.ClaimHeartbeats
open Foundation Foundation.Text ClaimMarker ClaimReconcile ClaimReaders List

structure ClaimHeartbeat where
  issue : ℕ
  worker : Text
  runner : Option Runner
  commentId : ℕ
  lastHeartbeatS : ℤ

inductive EditAnswer where
  | edited
  | refused
  | threw

structure ClaimHeartbeatBatchResult where
  refreshed : List ℕ
  skipped : List ℕ

/-- The comments of the issue behind a pass, and what the pass returned. -/
structure Batch where
  comments : List RawClaimComment
  result : Option ClaimHeartbeatBatchResult

def editComment (comments : List RawClaimComment) (commentId : ℕ) (body : Text) :
    List RawClaimComment :=
  comments.map fun c => if c.id = commentId then { c with body := body } else c

def heartbeatSelf (claim : ClaimHeartbeat) (time : Text) : MarkerSelf :=
  { worker := claim.worker, runner := claim.runner.map Runner.text, createdAt := some time }

section
variable (nowS cadenceS : ℤ)

def refreshOne (claim : ClaimHeartbeat) (answer : EditAnswer) (batch : Batch) : Bool × Batch :=
  let skipped : Batch :=
    { batch with
      result := batch.result.map fun r => { r with skipped := r.skipped ++ [claim.issue] } }
  if nowS - claim.lastHeartbeatS < cadenceS then (true, skipped)
  else
    match IsoDate.toISOString (nowS * 1000) with
    | none => (false, { batch with result := none })
    | some time =>
      match answer with
      | .threw => (false, { batch with result := none })
      | .refused => (true, skipped)
      | .edited =>
        (true,
          { comments := editComment batch.comments claim.commentId
              (renderClaimComment (heartbeatSelf claim time) .claim none)
            result := batch.result.map fun r =>
              { r with refreshed := r.refreshed ++ [claim.issue] } })

def refreshFrom : List (ClaimHeartbeat × EditAnswer) → Batch → Batch
  | [], batch => batch
  | (claim, answer) :: claims, batch =>
    let r := refreshOne nowS cadenceS claim answer batch
    if r.1 then refreshFrom claims r.2 else r.2

def refreshClaimHeartbeats (comments : List RawClaimComment)
    (claims : List (ClaimHeartbeat × EditAnswer)) : Batch :=
  refreshFrom nowS cadenceS claims ⟨comments, some ⟨[], []⟩⟩

end

def claimIdOf (records : List ClaimRecord) (worker : Text) : Option ℕ :=
  ((foldRecords records).lookup worker).bind Fold.claimId

def latestKind (records : List ClaimRecord) (worker : Text) : Option ClaimKind :=
  ((foldRecords records).lookup worker).map Fold.latestKind

def Wins (isStale : ClaimRecord → Bool) (records : List ClaimRecord) (self : ClaimSelf) : Prop :=
  ∃ decision, reconcileClaim isStale records self = .ok decision ∧ decision.verdict = .won

section
variable {τ : Type} [Preorder τ] (instant : Option Text → τ) (dead : τ → Bool)

/-- A marker is stale by its timestamp. -/
def staleBy (r : ClaimRecord) : Bool := dead (instant r.createdAt)

structure KeepsClaims (nowS cadenceS : ℤ) (comments : List RawClaimComment)
    (claims : List (ClaimHeartbeat × EditAnswer)) : Prop where
  claimId : ∀ worker, claimIdOf (parseClaimRecords
        (refreshClaimHeartbeats nowS cadenceS comments claims).comments) worker =
      claimIdOf (parseClaimRecords comments) worker
  conceded : ∀ worker, latestKind (parseClaimRecords comments) worker = some .concede →
    latestKind (parseClaimRecords
      (refreshClaimHeartbeats nowS cadenceS comments claims).comments) worker = some .concede
  wins : ∀ (before : List (ClaimHeartbeat × EditAnswer)) (claim : ClaimHeartbeat × EditAnswer)
    (later : List (ClaimHeartbeat × EditAnswer)), claims = before ++ claim :: later →
      ∀ self : ClaimSelf, self.worker = claim.1.worker → Wins (staleBy instant dead)
          (parseClaimRecords (refreshClaimHeartbeats nowS cadenceS comments before).comments)
          self →
        Wins (staleBy instant dead)
          (parseClaimRecords
            (refreshClaimHeartbeats nowS cadenceS comments (before ++ [claim])).comments)
          self

/-- The comment carries the holder's claim marker and no other, with the time that the holder
states. -/
def Holds (nowS : ℤ) (comments : List RawClaimComment) (claim : ClaimHeartbeat) : Prop :=
  ∀ c ∈ comments, c.id = claim.commentId → ∃ r, parseClaimRecords [c] = [r] ∧
    r.worker = claim.worker ∧ r.kind = .claim ∧
      ∀ time, claim.lastHeartbeatS ≤ nowS → IsoDate.toISOString (nowS * 1000) = some time →
        instant r.createdAt ≤ instant (some time)

end

section
variable {τ : Type} [Preorder τ] {instant : Option Text → τ} {worker w : Text}

/-- The marker has its place, its worker and its kind, and only the markers of `worker` are
newer. -/
def Refreshed (instant : Option Text → τ) (worker : Text) (r r' : ClaimRecord) : Prop :=
  r'.commentId = r.commentId ∧ r'.worker = r.worker ∧ r'.kind = r.kind ∧
    (r' = r ∨ r.worker = worker ∧ instant r.createdAt ≤ instant r'.createdAt)

lemma Refreshed.rfl' (r : ClaimRecord) : Refreshed instant worker r r :=
  ⟨rfl, rfl, rfl, .inl rfl⟩

/-- What is known of a worker is the same, its latest marker apart. -/
structure FoldRefreshed (instant : Option Text → τ) (worker w : Text) (f f' : Fold) : Prop where
  earliest : f'.earliestClaimId = f.earliestClaimId
  latestId : f'.latestId = f.latestId
  latestKind : f'.latestKind = f.latestKind
  owner : f.latestRecord.worker = w
  latest : Refreshed instant worker f.latestRecord f'.latestRecord

lemma FoldRefreshed.start {r r' : ClaimRecord} (h : Refreshed instant worker r r') :
    FoldRefreshed instant worker r.worker (.start r) (.start r') := by
  obtain ⟨hid, hwork, hkind, hrest⟩ := h
  constructor
  · simp only [Fold.start, hid, hkind]
  · exact hid
  · exact hkind
  · rfl
  · exact ⟨hid, hwork, hkind, hrest⟩

lemma FoldRefreshed.add {f f' : Fold} {r r' : ClaimRecord}
    (hf : FoldRefreshed instant worker r.worker f f') (h : Refreshed instant worker r r') :
    FoldRefreshed instant worker r.worker (f.add r) (f'.add r') := by
  obtain ⟨hid, hwork, hkind, hrest⟩ := h
  have hadd : ∀ (g : Fold) (a : ClaimRecord), g.add a =
      { earliestClaimId :=
          if a.kind = .claim ∧ g.earliestClaimId.all (a.commentId < ·) then some a.commentId
          else g.earliestClaimId
        latestId := if g.latestId ≤ a.commentId then a.commentId else g.latestId
        latestKind := if g.latestId ≤ a.commentId then a.kind else g.latestKind
        latestRecord := if g.latestId ≤ a.commentId then a else g.latestRecord } := by
    intro g a
    simp only [Fold.add]
    split_ifs <;> rfl
  rw [hadd, hadd]
  constructor
  · simp only [hid, hkind, hf.earliest]
  · simp only [hid, hf.latestId]
  · simp only [hid, hkind, hf.latestId, hf.latestKind]
  · simp only
    split_ifs
    · rfl
    · exact hf.owner
  · simp only [hid, hf.latestId]
    split_ifs
    · exact ⟨hid, hwork, hkind, hrest⟩
    · exact hf.latest

lemma folds_refreshed {records records' : List ClaimRecord}
    (h : List.Forall₂ (Refreshed instant worker) records records') (w : Text) :
    Option.Rel (FoldRefreshed instant worker w) ((foldRecords records).lookup w)
      ((foldRecords records').lookup w) := by
  have hfrom : ∀ folds folds' : JsMap Text Fold,
      Option.Rel (FoldRefreshed instant worker w) (folds.lookup w) (folds'.lookup w) →
        Option.Rel (FoldRefreshed instant worker w) ((records.foldl ingest folds).lookup w)
          ((records'.foldl ingest folds').lookup w) := by
    induction h with
    | nil => exact fun _ _ hfolds => hfolds
    | @cons r r' records records' hr _ ih =>
      intro folds folds' hfolds
      apply ih
      rw [lookup_ingest, lookup_ingest, hr.2.1]
      split_ifs with hw
      · obtain ⟨-, rfl⟩ := hw
        generalize folds.lookup r.worker = fold at hfolds
        generalize folds'.lookup r.worker = fold' at hfolds
        cases hfolds with
        | none => exact .some (.start hr)
        | some hf => exact .some (hf.add hr)
      · exact hfolds
  exact hfrom ∅ ∅ .none

lemma claimIdOf_refreshed {records records' : List ClaimRecord}
    (h : List.Forall₂ (Refreshed instant worker) records records') (w : Text) :
    claimIdOf records' w = claimIdOf records w ∧ latestKind records' w = latestKind records w := by
  have hfold := folds_refreshed h w
  unfold claimIdOf latestKind
  generalize (foldRecords records).lookup w = fold at hfold
  generalize (foldRecords records').lookup w = fold' at hfold
  cases hfold with
  | none => exact ⟨rfl, rfl⟩
  | some hf => simp [Fold.claimId, hf.earliest, hf.latestKind]

end

lemma precedes_antisymm {a b : Contender} (hab : a.precedes b) (hba : b.precedes a) : a = b := by
  rcases hab with hlt | ⟨hid, hab⟩
  · rcases hba with hlt' | ⟨hid', -⟩
    · omega
    · omega
  · rcases hba with hlt' | ⟨-, hba⟩
    · omega
    · have hwork : b.worker = a.worker := eq_of_not_lt hab hba
      cases a
      cases b
      simp_all

lemma wins_iff {isStale : ClaimRecord → Bool} {records : List ClaimRecord} {self : ClaimSelf} :
    Wins isStale records self ↔ self.worker ≠ [] ∧
      ∃ id, ⟨self.worker, id⟩ ∈ contenders isStale records self ∧
        ∀ c ∈ contenders isStale records self,
          c = ⟨self.worker, id⟩ ∨ Contender.precedes ⟨self.worker, id⟩ c := by
  unfold Wins reconcileClaim
  by_cases hself : self.worker = []
  · simp [hself]
  rw [if_neg hself]
  cases hsort : (contenders isStale records self).insertionSort Contender.precedes with
  | nil =>
    have hperm := perm_insertionSort Contender.precedes (contenders isStale records self)
    rw [hsort] at hperm
    have hnone : contenders isStale records self = [] := hperm.symm.eq_nil
    simp only
    constructor
    · rintro ⟨decision, hdec, hwon⟩
      split_ifs at hdec
      obtain rfl := Except.ok.inj hdec
      cases hwon
    · rintro ⟨-, id, hid, -⟩
      rw [hnone] at hid
      cases hid
  | cons winner rest =>
    obtain ⟨hmem, hfirst⟩ := head_contenders hsort
    simp only
    constructor
    · rintro ⟨decision, hdec, hwon⟩
      by_cases hwinn : winner.worker = self.worker
      · refine ⟨hself, winner.claimId, ?_, ?_⟩
        · rw [← hwinn]
          exact hmem
        · rw [← hwinn]
          exact hfirst
      · rw [if_neg hwinn] at hdec
        obtain rfl := Except.ok.inj hdec
        cases hwon
    · rintro ⟨-, id, hid, hprec⟩
      have hwinn : winner = ⟨self.worker, id⟩ := by
        rcases hprec winner hmem with heq | hbef
        · exact heq
        rcases hfirst _ hid with heq | haft
        · exact heq.symm
        exact precedes_antisymm haft hbef
      rw [hwinn, if_pos rfl]
      exact ⟨_, rfl, rfl⟩

section
variable {τ : Type} [Preorder τ] {instant : Option Text → τ} {dead : τ → Bool} {worker : Text}
  {records records' : List ClaimRecord} {self : ClaimSelf}

lemma fresh_refreshed (h : List.Forall₂ (Refreshed instant worker) records records') :
    selfPostedFresh records' self = selfPostedFresh records self := by
  induction h with
  | nil => rfl
  | cons hr _ ih =>
    unfold selfPostedFresh at ih ⊢
    rw [all_cons, all_cons, hr.1, ih]

variable (self) in
lemma merged_refreshed (h : List.Forall₂ (Refreshed instant worker) records records') (w : Text) :
    Option.Rel (FoldRefreshed instant worker w) ((folds records self).lookup w)
      ((folds records' self).lookup w) := by
  have hself : List.Forall₂ (Refreshed instant worker) [self.record] [self.record] :=
    .cons (Refreshed.rfl' self.record) .nil
  exact folds_refreshed (rel_append h hself) w

variable {f f' : Fold} {w : Text}

lemma FoldRefreshed.claimId
    (h : FoldRefreshed instant worker w f f') : f'.claimId = f.claimId := by
  simp only [Fold.claimId, h.earliest, h.latestKind]

lemma FoldRefreshed.stale
    (hdead : ∀ a b : τ, a ≤ b → dead b = true → dead a = true)
    (h : FoldRefreshed instant worker w f f')
    (hstale : staleBy instant dead f'.latestRecord = true) :
    staleBy instant dead f.latestRecord = true := by
  obtain ⟨-, -, -, heq | ⟨-, hle⟩⟩ := h.latest
  · rwa [heq] at hstale
  · exact hdead _ _ hle hstale

lemma FoldRefreshed.other (hw : w ≠ worker)
    (h : FoldRefreshed instant worker w f f') : f'.latestRecord = f.latestRecord := by
  obtain ⟨-, -, -, heq | ⟨hown, -⟩⟩ := h.latest
  · exact heq
  · exact absurd (h.owner.symm.trans hown) hw

variable (self) in
lemma isDropped_mono
    (hdead : ∀ a b : τ, a ≤ b → dead b = true → dead a = true)
    (h : List.Forall₂ (Refreshed instant worker) records records')
    (hf : FoldRefreshed instant worker w f f')
    (hkept : isDropped (staleBy instant dead) records self w f = false) :
    isDropped (staleBy instant dead) records' self w f' = false := by
  unfold isDropped at hkept ⊢
  rw [fresh_refreshed h]
  rw [Bool.and_eq_false_iff] at hkept ⊢
  rcases hkept with hkept | hlive
  · exact .inl hkept
  · right
    by_contra hstale
    have hdead' := hf.stale hdead (Bool.eq_true_of_not_eq_false hstale)
    rw [hlive] at hdead'
    cases hdead'

lemma contenders_refreshed (hdead : ∀ a b : τ, a ≤ b → dead b = true → dead a = true)
    (h : List.Forall₂ (Refreshed instant worker) records records') {c : Contender}
    (hc : c ∈ contenders (staleBy instant dead) records self) :
    c ∈ contenders (staleBy instant dead) records' self := by
  obtain ⟨f, hf, hid, hkept⟩ := mem_contendersOf.mp hc
  have hrel := merged_refreshed self h c.worker
  rw [hf] at hrel
  cases hf' : (folds records' self).lookup c.worker with
  | none =>
    rw [hf'] at hrel
    cases hrel
  | some f' =>
    rw [hf'] at hrel
    cases hrel with
    | some hff =>
      have hkept' := isDropped_mono self hdead h hff (by simpa using hkept)
      exact mem_contendersOf.mpr ⟨f', hf', hff.claimId.trans hid, by simpa using hkept'⟩

lemma contenders_of_refreshed (h : List.Forall₂ (Refreshed instant worker) records records')
    {c : Contender} (hc : c ∈ contenders (staleBy instant dead) records' self) :
    (c.worker ≠ worker → c ∈ contenders (staleBy instant dead) records self) ∧
      ∃ f, (folds records self).lookup c.worker = some f ∧ f.claimId = some c.claimId := by
  obtain ⟨f', hf', hid, hkept⟩ := mem_contendersOf.mp hc
  have hrel := merged_refreshed self h c.worker
  rw [hf'] at hrel
  cases hf : (folds records self).lookup c.worker with
  | none =>
    rw [hf] at hrel
    cases hrel
  | some f =>
    rw [hf] at hrel
    cases hrel with
    | some hff =>
      have hid' : f.claimId = some c.claimId := hff.claimId.symm.trans hid
      refine ⟨fun hne => mem_contendersOf.mpr ⟨f, hf, hid', ?_⟩, f, rfl, hid'⟩
      unfold isDropped at hkept ⊢
      rwa [fresh_refreshed h, hff.other hne] at hkept

lemma wins_refreshed (hdead : ∀ a b : τ, a ≤ b → dead b = true → dead a = true)
    (h : List.Forall₂ (Refreshed instant worker) records records') (hself : self.worker = worker)
    (hwins : Wins (staleBy instant dead) records self) :
    Wins (staleBy instant dead) records' self := by
  obtain ⟨hnam, id, hid, hfirst⟩ := wins_iff.mp hwins
  refine wins_iff.mpr ⟨hnam, id, contenders_refreshed hdead h hid, ?_⟩
  intro c hc
  obtain ⟨hoth, f, hf, hclaim⟩ := contenders_of_refreshed h hc
  by_cases hwork : c.worker = worker
  · left
    obtain ⟨f₀, hf₀, hid₀, -⟩ := mem_contendersOf.mp hid
    rw [hwork, ← hself] at hf
    obtain rfl := Option.some.inj (hf₀.symm.trans hf)
    have hsame : c.claimId = id := Option.some.inj (hclaim.symm.trans hid₀)
    cases c
    simp_all
  · exact hfirst c (hoth hwork)

end

section
variable {τ : Type} [Preorder τ] {instant : Option Text → τ} {dead : τ → Bool} {nowS cadenceS : ℤ}
  {comments : List RawClaimComment} {claim : ClaimHeartbeat} {time : Text}

lemma carried_toISOString {ms : ℤ} (h : IsoDate.toISOString ms = some time) : Carried time := by
  obtain ⟨hne, hchars⟩ := IsoDate.isoChar_toISOString h
  have hchar : ∀ c : Char, IsoDate.IsoChar c → Text.isWhitespace c = false ∧ c ≠ '>' := by
    intro c hc
    rcases hc with hdig | hmem
    · refine ⟨Text.isWhitespace_of_isDigit hdig, ?_⟩
      rintro rfl
      exact absurd hdig (by decide)
    · have hall : ∀ c ∈ ['-', '+', ':', '.', 'T', 'Z'],
          Text.isWhitespace c = false ∧ c ≠ '>' := by decide
      exact hall c hmem
  exact ⟨hne, fun c hc => (hchar c (hchars c hc)).1, fun hgt => (hchar _ (hchars _ hgt)).2 rfl⟩

lemma heartbeatSelf_carries (hwork : Carried claim.worker) (htime : Carried time) :
    (heartbeatSelf claim time).Carries := by
  constructor
  · exact hwork
  · intro r hr
    obtain ⟨runner, -, rfl⟩ := Option.map_eq_some_iff.mp hr
    cases runner <;> decide
  · intro ts hts
    cases hts
    exact htime
  · rintro by' ⟨⟩
  · rintro at' ⟨⟩

lemma parse_edited {c : RawClaimComment} {r : ClaimRecord} (hr : parseClaimRecords [c] = [r])
    (hwork : r.worker = claim.worker) (htime : Carried time) :
    parseClaimRecords
        [{ c with body := renderClaimComment (heartbeatSelf claim time) .claim none }] =
      [{ commentId := c.id
         worker := claim.worker
         kind := .claim
         runner := claim.runner.map Runner.text
         createdAt := some time }] := by
  have hmem : r ∈ parseClaimRecords [c] := hr ▸ List.mem_cons_self
  have hcarr : Carried claim.worker := hwork ▸ clean_of_parse hmem
  exact parse_carried (heartbeatSelf_carries hcarr htime) c.id .claim none c.createdAt

lemma commentId_of_parse {c : RawClaimComment} {r : ClaimRecord}
    (h : r ∈ parseClaimRecords [c]) : r.commentId = c.id := by
  rw [parseClaimRecords, flatMap_singleton] at h
  obtain ⟨marker, -, hrec⟩ := mem_filterMap.mp h
  simp only [recordOf] at hrec
  cases hwork : truthy ((ClaimMarker.parseFields marker).lookup "worker".toList) with
  | none =>
    rw [hwork] at hrec
    cases hrec
  | some worker =>
    rw [hwork] at hrec
    cases hrec
    rfl

lemma edit_refreshed (hholds : Holds instant nowS comments claim)
    (hdue : claim.lastHeartbeatS ≤ nowS)
    (htime : IsoDate.toISOString (nowS * 1000) = some time) :
    List.Forall₂ (Refreshed instant claim.worker) (parseClaimRecords comments)
      (parseClaimRecords (editComment comments claim.commentId
        (renderClaimComment (heartbeatSelf claim time) .claim none))) := by
  induction comments with
  | nil => exact .nil
  | cons c comments ih =>
    have hrest : Holds instant nowS comments claim := fun c' hc' =>
      hholds c' (mem_cons_of_mem _ hc')
    have hhead : List.Forall₂ (Refreshed instant claim.worker) (parseClaimRecords [c])
        (parseClaimRecords (editComment [c] claim.commentId
          (renderClaimComment (heartbeatSelf claim time) .claim none))) := by
      unfold editComment
      rw [map_singleton]
      split_ifs with hid
      · obtain ⟨r, hr, hwork, hkind, hnew⟩ := hholds c mem_cons_self hid
        have hcomm : r.commentId = c.id := commentId_of_parse (hr ▸ mem_cons_self)
        rw [parse_edited hr hwork (carried_toISOString htime), hr]
        exact .cons ⟨hcomm.symm, hwork.symm, hkind.symm, .inr ⟨hwork, hnew time hdue htime⟩⟩ .nil
      · exact forall₂_same.mpr fun r _ => Refreshed.rfl' r
    have hcons : parseClaimRecords (c :: comments) =
        parseClaimRecords [c] ++ parseClaimRecords comments :=
      parseClaimRecords_append [c] comments
    have hedit : ∀ body : Text, editComment (c :: comments) claim.commentId body =
        editComment [c] claim.commentId body ++ editComment comments claim.commentId body :=
      fun _ => rfl
    rw [hcons, hedit, parseClaimRecords_append]
    exact rel_append hhead (ih hrest)

lemma holds_edit {other : ClaimHeartbeat} (hholds : Holds instant nowS comments claim)
    (hoth : Holds instant nowS comments other)
    (htime : IsoDate.toISOString (nowS * 1000) = some time) :
    Holds instant nowS (editComment comments claim.commentId
      (renderClaimComment (heartbeatSelf claim time) .claim none)) other := by
  intro c' hc' hid'
  obtain ⟨c, hc, rfl⟩ := mem_map.mp hc'
  split_ifs at hid' ⊢ with hid
  · obtain ⟨r, hr, hwork, -⟩ := hholds c hc hid
    obtain ⟨r', hr', hwork', -⟩ := hoth c hc hid'
    obtain rfl : r = r' := (cons.inj (hr.symm.trans hr')).1
    refine ⟨_, parse_edited hr hwork (carried_toISOString htime), hwork.symm.trans hwork', rfl, ?_⟩
    intro time' _ htime'
    obtain rfl := Option.some.inj (htime.symm.trans htime')
    exact le_rfl
  · exact hoth c hc hid'

lemma step_keeps (hcadence : 0 ≤ cadenceS) {batch : Batch}
    (hholds : Holds instant nowS batch.comments claim) (answer : EditAnswer) :
    List.Forall₂ (Refreshed instant claim.worker) (parseClaimRecords batch.comments)
        (parseClaimRecords (refreshOne nowS cadenceS claim answer batch).2.comments) ∧
      ∀ other, Holds instant nowS batch.comments other →
        Holds instant nowS (refreshOne nowS cadenceS claim answer batch).2.comments other := by
  have hsame : List.Forall₂ (Refreshed instant claim.worker) (parseClaimRecords batch.comments)
      (parseClaimRecords batch.comments) :=
    forall₂_same.mpr fun r _ => Refreshed.rfl' r
  unfold refreshOne
  simp only
  by_cases hyoung : nowS - claim.lastHeartbeatS < cadenceS
  · rw [if_pos hyoung]
    exact ⟨hsame, fun _ h => h⟩
  rw [if_neg hyoung]
  cases htime : IsoDate.toISOString (nowS * 1000) with
  | none => exact ⟨hsame, fun _ h => h⟩
  | some time =>
    cases answer with
    | threw => exact ⟨hsame, fun _ h => h⟩
    | refused => exact ⟨hsame, fun _ h => h⟩
    | edited =>
      have hdue : claim.lastHeartbeatS ≤ nowS := by omega
      exact ⟨edit_refreshed hholds hdue htime, fun _ h => holds_edit hholds h htime⟩

lemma refreshFrom_keeps (hcadence : 0 ≤ cadenceS) (claims : List (ClaimHeartbeat × EditAnswer))
    (batch : Batch) (hholds : ∀ c ∈ claims, Holds instant nowS batch.comments c.1) :
    (∀ worker,
      claimIdOf (parseClaimRecords (refreshFrom nowS cadenceS claims batch).comments) worker =
          claimIdOf (parseClaimRecords batch.comments) worker ∧
        latestKind (parseClaimRecords (refreshFrom nowS cadenceS claims batch).comments) worker =
          latestKind (parseClaimRecords batch.comments) worker) ∧
      ∀ other, Holds instant nowS batch.comments other →
        Holds instant nowS (refreshFrom nowS cadenceS claims batch).comments other := by
  induction claims generalizing batch with
  | nil => exact ⟨fun _ => ⟨rfl, rfl⟩, fun _ h => h⟩
  | cons c claims ih =>
    obtain ⟨claim, answer⟩ := c
    obtain ⟨hrefr, hkept⟩ := step_keeps hcadence (hholds _ mem_cons_self) answer
    have hone := fun worker => claimIdOf_refreshed hrefr worker
    rw [refreshFrom]
    split_ifs
    · obtain ⟨hids, hkept'⟩ := ih _ fun c hc =>
        hkept c.1 (hholds c (mem_cons_of_mem _ hc))
      refine ⟨fun worker => ?_, fun other h => hkept' other (hkept other h)⟩
      exact ⟨(hids worker).1.trans (hone worker).1, (hids worker).2.trans (hone worker).2⟩
    · exact ⟨hone, hkept⟩

variable (nowS cadenceS) in
lemma refreshFrom_concat (claims : List (ClaimHeartbeat × EditAnswer)) (claim : ClaimHeartbeat)
    (answer : EditAnswer) (batch : Batch) :
    refreshFrom nowS cadenceS (claims ++ [(claim, answer)]) batch =
        refreshFrom nowS cadenceS claims batch ∨
      refreshFrom nowS cadenceS (claims ++ [(claim, answer)]) batch =
        (refreshOne nowS cadenceS claim answer (refreshFrom nowS cadenceS claims batch)).2 := by
  induction claims generalizing batch with
  | nil =>
    right
    simp only [nil_append, refreshFrom]
    split_ifs <;> rfl
  | cons c claims ih =>
    obtain ⟨first, firstAnswer⟩ := c
    simp only [cons_append, refreshFrom]
    split_ifs
    · exact ih _
    · exact .inl rfl

end

/-- A pass over claims whose comments carry their own marker and no other keeps the claim ids,
revives no one who conceded, and takes no claim from a worker that wins. -/
theorem refresh_keeps_claims {τ : Type} [Preorder τ] (instant : Option Text → τ)
    (dead : τ → Bool) (hdead : ∀ a b : τ, a ≤ b → dead b = true → dead a = true)
    (nowS cadenceS : ℤ) (hcadence : 0 ≤ cadenceS) (comments : List RawClaimComment)
    (claims : List (ClaimHeartbeat × EditAnswer))
    (hholds : ∀ c ∈ claims, Holds instant nowS comments c.1) :
    KeepsClaims instant dead nowS cadenceS comments claims := by
  have hkeeps := refreshFrom_keeps hcadence claims ⟨comments, some ⟨[], []⟩⟩ hholds
  constructor
  · exact fun worker => (hkeeps.1 worker).1
  · intro worker hconc
    exact (hkeeps.1 worker).2.trans hconc
  · intro before claim later hclaims self hself hwins
    have hbef : ∀ c ∈ before, Holds instant nowS comments c.1 := fun c hc =>
      hholds c (hclaims ▸ mem_append_left _ hc)
    have hclaim : Holds instant nowS comments claim.1 :=
      hholds claim (hclaims ▸ mem_append_right _ mem_cons_self)
    have hholds' := (refreshFrom_keeps hcadence before ⟨comments, some ⟨[], []⟩⟩
      hbef).2 claim.1 hclaim
    have hrefr := (step_keeps hcadence hholds' claim.2).1
    unfold refreshClaimHeartbeats at hwins ⊢
    rcases refreshFrom_concat nowS cadenceS before claim.1 claim.2
      ⟨comments, some ⟨[], []⟩⟩ with hstopp | hstep
    · rw [hstopp]
      exact hwins
    · rw [hstep]
      exact wins_refreshed hdead hrefr hself hwins

section

def held : List RawClaimComment :=
  [{ id := 10
     body := renderClaimComment { worker := "w".toList } .claim none
     createdAt := none }]

def heartbeat : ClaimHeartbeat :=
  { issue := 1, worker := "w".toList, runner := none, commentId := 10, lastHeartbeatS := 0 }

/-- A comment without a time counts as one that is too old. -/
def dated (time : Option Text) : ℕ := if time.isSome then 1 else 0

lemma holds_heartbeat : ∀ c ∈ [(heartbeat, EditAnswer.edited)], Holds dated 100 held c.1 := by
  intro claim hclaim c hc _
  obtain rfl := mem_singleton.mp hclaim
  obtain rfl := mem_singleton.mp hc
  have hparse : parseClaimRecords held =
      [{ commentId := 10
         worker := "w".toList
         kind := .claim
         runner := none
         createdAt := none }] := by
    decide +kernel
  exact ⟨_, hparse, rfl, rfl, fun _ _ _ => Nat.zero_le _⟩

theorem heartbeat_keeps_claims :
    KeepsClaims dated (· == 0) 100 60 held [(heartbeat, .edited)] := by
  apply refresh_keeps_claims dated (· == 0) ?_ 100 60 (by decide) held [(heartbeat, .edited)]
    holds_heartbeat
  intro a b hle hdead
  rw [beq_iff_eq] at hdead ⊢
  omega

def conceded : List RawClaimComment :=
  [{ id := 10
     body := renderClaimComment { worker := "w".toList } .claim none ++
       '\n' :: renderClaimComment { worker := "w".toList } .concede none
     createdAt := none }]

/-- The edit of a comment with two markers takes the concession away. -/
theorem heartbeat_revives : ¬ ∀ (instant : Option Text → ℕ) (dead : ℕ → Bool),
      (∀ a b : ℕ, a ≤ b → dead b = true → dead a = true) →
        ∀ (nowS cadenceS : ℤ) (comments : List RawClaimComment)
          (claims : List (ClaimHeartbeat × EditAnswer)),
          KeepsClaims instant dead nowS cadenceS comments claims := by
  intro h
  have hkeeps := h (fun _ => 0) (fun _ => false) (fun _ _ _ h => h) 100 60 conceded
    [(heartbeat, .edited)]
  have hbef : latestKind (parseClaimRecords conceded) "w".toList = some .concede := by
    decide +kernel
  have haft : latestKind (parseClaimRecords (refreshClaimHeartbeats 100 60 conceded
      [(heartbeat, .edited)]).comments) "w".toList = some .claim := by
    decide +kernel
  have hrev := hkeeps.conceded _ hbef
  rw [haft] at hrev
  cases hrev

end

end Redskilled.Tracker.ClaimHeartbeats
