import Redskilled.Foundation.Machine
import Redskilled.Tracker.ClaimReconcile

/-!
# The claim race

Any number of workers run `acquireClaim` on one issue, each step of it
interleaved with the steps of the others: post the claim, read the comments
back, reconcile, concede when lost. A worker that holds the claim may release
it with a concede, and anyone may claim again later. The server gives comments
strictly increasing ids and lists every comment posted so far; no claim counts
as stale.

Two workers can both hold. The order key of a worker is the id of its first
claim, so one that lost or released and claims again is ordered before a holder
that came in between.
-/
namespace Redskilled.Tracker.ClaimRace
open Foundation ClaimMarker ClaimReconcile List

abbrev Identity := {t : Text // t ≠ [] ∧ Clean t}

inductive Phase where
  | idle
  | posted (self : ClaimSelf)
  | listed (self : ClaimSelf) (raw : List RawClaimComment)
  | lost (self : ClaimSelf)

structure Worker where
  phase : Phase
  holds : Bool

structure Issue where
  comments : List RawClaimComment
  worker : Identity → Worker

/-- What the server adds to a comment. -/
structure Posting where
  id : Nat
  createdAt : Option Text

inductive Step where
  | postClaim (w : Identity) (runner : Option Runner) (createdAt : Option Text) (posting : Posting)
  | listClaims (w : Identity)
  | reconcile (w : Identity)
  | concede (w : Identity) (posting : Posting)
  | release (w : Identity) (runner : Option Runner) (posting : Posting)

def Issue.set (s : Issue) (w : Identity) (p : Worker) : Issue :=
  { s with worker := Function.update s.worker w p }

def Issue.post (s : Issue) (body : Text) (posting : Posting) : Option Issue :=
  if ∀ c ∈ s.comments, c.id < posting.id then
    some { s with
      comments := s.comments ++ [{ id := posting.id, body, createdAt := posting.createdAt }] }
  else none

def next (issue : Nat) (s : Issue) : Step → Option Issue
  | .postClaim w runner createdAt posting =>
    match (s.worker w).phase with
    | .idle =>
      (s.post (renderClaimComment
        { worker := w, runner := runner.map Runner.text, createdAt } .claim none) posting).map
        (·.set w {
          phase := .posted { worker := w, commentId := posting.id, runner, createdAt }
          holds := (s.worker w).holds })
    | _ => none
  | .listClaims w =>
    match (s.worker w).phase with
    | .posted self =>
      match listVerifiedClaims issue self.commentId none fun _ => .ok s.comments with
      | .ok raw => some (s.set w { s.worker w with phase := .listed self raw })
      | .error _ => some (s.set w { s.worker w with phase := .idle })
    | _ => none
  | .reconcile w =>
    match (s.worker w).phase with
    | .listed self raw =>
      match reconcileClaim neverStale (parseClaimRecords raw) self with
      | .ok decision =>
        match decision.verdict with
        | .won => some (s.set w { phase := .idle, holds := true })
        | .lost => some (s.set w { s.worker w with phase := .lost self })
      | .error _ => some (s.set w { s.worker w with phase := .idle })
    | _ => none
  | .concede w posting =>
    match (s.worker w).phase with
    | .lost self =>
      (s.post (renderClaimComment { worker := w, runner := self.runner.map Runner.text }
        .concede (some .lost)) posting).map (·.set w { phase := .idle, holds := false })
    | _ => none
  | .release w runner posting =>
    match s.worker w with
    | { phase := .idle, holds := true } =>
      (s.post (renderClaimComment { worker := w, runner := runner.map Runner.text }
        .concede (some .released)) posting).map (·.set w { phase := .idle, holds := false })
    | _ => none

def start : Issue := { comments := [], worker := fun _ => { phase := .idle, holds := false } }

def race (issue : Nat) : Machine Issue Step where
  start s := s = start
  next := next issue

def Exclusive (s : Issue) : Prop :=
  ∀ v w, (s.worker v).holds = true → (s.worker w).holds = true → v = w

abbrev records (s : Issue) : List ClaimRecord := parseClaimRecords s.comments

/-- A worker that holds, or that has read back a list it leads and will win. -/
def Worker.Commits (p : Worker) (w : Identity) : Prop :=
  p.holds = true ∨ ∃ self raw, p.phase = .listed self raw ∧ Leads (parseClaimRecords raw) w

/-- A claim is posted by a newcomer, or by a worker whose first claim is younger
than the first claim of everyone who commits. -/
def NoJump (s : Issue) : Step → Prop
  | .postClaim w _ _ _ => ∀ v, v ≠ w → (s.worker v).Commits v → ∀ i j,
      firstClaim (records s) v = some i → firstClaim (records s) w = some j → i < j
  | _ => True

@[simp] lemma set_comments (s : Issue) (w : Identity) (p : Worker) :
    (s.set w p).comments = s.comments := rfl

@[simp] lemma set_worker_self (s : Issue) (w : Identity) (p : Worker) :
    (s.set w p).worker w = p := Function.update_self ..

variable {a : Step} {cs : List RawClaimComment} {r : ClaimRecord} {rs : List ClaimRecord}
  {self : ClaimSelf} {t : Issue} {w : Identity}

lemma set_worker_ne (s : Issue) (p : Worker) {v : Identity} (h : v ≠ w) :
    (s.set w p).worker v = s.worker v := Function.update_of_ne h ..

/-- Two comments are in the order of their ids, and each holds one marker. -/
structure Marked (cs : List RawClaimComment) : Prop where
  increasing : (parseClaimRecords cs).Pairwise (·.commentId < ·.commentId)
  listed : ∀ r ∈ parseClaimRecords cs, ∃ c ∈ cs, c.id = r.commentId
  named : ∀ r ∈ parseClaimRecords cs, r.worker ≠ []

/-- The last marker of a claimant is the claim it posted. -/
def OwnLast (rs : List ClaimRecord) (self : ClaimSelf) : Prop :=
  ∃ r, rs.reverse.find? (fun r => r.worker = self.worker) = some r ∧ r.kind = .claim ∧
    r.commentId = self.commentId

lemma OwnLast.frame (h : OwnLast rs self)
    (hr : r.worker ≠ self.worker) : OwnLast (rs ++ [r]) self := by
  obtain ⟨a, ha, hk, hid⟩ := h
  refine ⟨a, ?_, hk, hid⟩
  rw [reverse_append, reverse_singleton, singleton_append, find?_cons]
  simpa [hr] using ha

lemma ownLast_append
    (hw : r.worker = self.worker) (hk : r.kind = .claim) (hid : r.commentId = self.commentId) :
    OwnLast (rs ++ [r]) self := by
  refine ⟨r, ?_, hk, hid⟩
  rw [reverse_append, reverse_singleton, singleton_append, find?_cons]
  simp [hw]

lemma le_of_find?_reverse
    (hinc : rs.Pairwise (·.commentId < ·.commentId)) {w : Text}
    (hr : rs.reverse.find? (fun r => r.worker = w) = some r) :
    ∀ a ∈ rs, a.worker = w → a.commentId ≤ r.commentId := by
  induction rs using reverseRecOn with
  | nil => simp
  | append_singleton rs b ih =>
    rw [reverse_append, reverse_singleton, singleton_append, find?_cons] at hr
    obtain ⟨hrs, -, hb⟩ := pairwise_append.mp hinc
    intro a ha haw
    by_cases hbw : b.worker = w
    · simp only [hbw, decide_true, Option.some.injEq] at hr
      subst hr
      rcases mem_append.mp ha with ha | ha
      · exact (hb a ha b (by simp)).le
      · rw [mem_singleton.mp ha]
    · simp only [hbw, decide_false] at hr
      rcases mem_append.mp ha with ha | ha
      · exact ih hrs hr a ha haw
      · exact absurd (mem_singleton.mp ha ▸ haw) hbw

lemma Marked.inj (h : Marked cs) :
    ∀ a ∈ parseClaimRecords cs, ∀ b ∈ parseClaimRecords cs, a.commentId = b.commentId → a = b := by
  have hnod : ((parseClaimRecords cs).map (·.commentId)).Nodup :=
    pairwise_map.mpr (h.increasing.imp fun hab => hab.ne)
  exact fun a ha b hb hab => inj_on_of_nodup_map hnod ha hb hab

/-- A list that was read back with our claim last among our markers is as the
reconciler needs it, and merging our claim in again changes nothing. -/
lemma Marked.merge (h : Marked cs) (hown : OwnLast (parseClaimRecords cs) self) :
    Ordered (parseClaimRecords cs ++ [self.record]) ∧
      standing (parseClaimRecords cs ++ [self.record]) = standing (parseClaimRecords cs) := by
  obtain ⟨r, hr, hk, hid⟩ := hown
  have hmem : r ∈ parseClaimRecords cs := mem_reverse.mp (mem_of_find?_eq_some hr)
  have hrw : r.worker = self.worker := by simpa using find?_some hr
  have hlast : lastWord (parseClaimRecords cs) self.worker = some .claim := by
    simp [lastWord, hr, hk]
  have hfirst : firstClaim (parseClaimRecords cs) self.worker ≠ none := by
    rw [Ne, firstClaim_eq_none]
    exact fun hnone => hnone r hmem hrw hk
  refine ⟨⟨?_, ?_, ?_⟩, ?_⟩
  · simp only [mem_append, mem_singleton]
    rintro a (ha | rfl)
    · exact h.named a ha
    · have hr := h.named r hmem
      rwa [hrw] at hr
  · refine pairwise_append.mpr ⟨h.increasing.imp fun hab _ => hab.le, by simp, ?_⟩
    intro a ha b hb haw
    rw [mem_singleton.mp hb] at haw ⊢
    exact (le_of_find?_reverse h.increasing hr a ha haw).trans_eq hid
  · simp only [mem_append, mem_singleton]
    rintro a (ha | rfl) b (hb | rfl) hab
    · rw [h.inj a ha b hb hab]
    · rw [h.inj a ha r hmem (hab.trans hid.symm), hrw]; rfl
    · rw [← h.inj r hmem b hb (hid.trans hab), hrw]; rfl
    · rfl
  · rw [standing_claim _ rfl]
    exact Seniority.enter_eq hlast hfirst

lemma post_eq {s s' : Issue} {self : MarkerSelf} {kind : ClaimKind}
    {reason : Option ConcedeReason} {posting : Posting} (hw : self.worker = w)
    (hplain : self.Plain)
    (h : s.post (renderClaimComment self kind reason) posting = some s') :
    s'.worker = s.worker ∧
      ∃ c r, s'.comments = s.comments ++ [c] ∧ parseClaimRecords [c] = [r] ∧ r.worker = w ∧
        r.kind = kind ∧ r.commentId = posting.id ∧ c.id = posting.id ∧
        ∀ c ∈ s.comments, c.id < posting.id := by
  unfold Issue.post at h
  split_ifs at h with hid
  cases h
  have hwork : self.worker ≠ [] := hw ▸ w.2.1
  have hhum := gt_notMem_humanLine hplain kind reason
  refine ⟨rfl, _, _, rfl, parse_render _ rfl hwork hhum, ?_, rfl, rfl, rfl, hid⟩
  show escapeField self.worker = w
  rw [hw]
  exact escapeField_of_clean w.2.2

lemma Marked.post {cs : List RawClaimComment} (h : Marked cs) {c : RawClaimComment}
    {r : ClaimRecord} (hparse : parseClaimRecords [c] = [r]) (hid : r.commentId = c.id)
    (hname : r.worker ≠ []) (hnew : ∀ d ∈ cs, d.id < c.id) : Marked (cs ++ [c]) := by
  refine ⟨?_, ?_, ?_⟩
  · rw [parseClaimRecords_append, hparse]
    refine pairwise_append.mpr ⟨h.increasing, by simp, fun a ha b hb => ?_⟩
    obtain ⟨d, hd, hda⟩ := h.listed a ha
    rw [mem_singleton.mp hb, hid, ← hda]
    exact hnew d hd
  · rw [parseClaimRecords_append, hparse]
    intro a ha
    rcases mem_append.mp ha with ha | ha
    · obtain ⟨d, hd, hda⟩ := h.listed a ha
      exact ⟨d, mem_append_left _ hd, hda⟩
    · exact ⟨c, by simp, by rw [mem_singleton.mp ha, hid]⟩
  · rw [parseClaimRecords_append, hparse]
    intro a ha
    rcases mem_append.mp ha with ha | ha
    · exact h.named a ha
    · exact mem_singleton.mp ha ▸ hname

def Phase.Ok (cs : List RawClaimComment) (w : Identity) : Phase → Prop
  | .idle => True
  | .posted self => self.worker = w ∧ OwnLast (parseClaimRecords cs) self ∧
      cs.any (·.id == self.commentId) = true
  | .listed self raw => self.worker = w ∧ Ordered (parseClaimRecords raw ++ [self.record]) ∧
      standing (parseClaimRecords raw ++ [self.record]) = standing (parseClaimRecords raw)
  | .lost _ => True

/-- What holds in every run, guarded or not. -/
structure Sound (s : Issue) : Prop where
  marked : Marked s.comments
  phase : ∀ w, (s.worker w).phase.Ok s.comments w

lemma Phase.Ok.frame {p : Phase} (h : p.Ok cs w)
    {c : RawClaimComment} (hparse : parseClaimRecords [c] = [r])
    (hr : r.worker ≠ w) : p.Ok (cs ++ [c]) w := by
  cases p with
  | idle => trivial
  | posted self =>
    obtain ⟨hself, hown, hvis⟩ := h
    refine ⟨hself, ?_, by simp [hvis]⟩
    rw [parseClaimRecords_append, hparse]
    exact hown.frame (hself ▸ hr)
  | listed self raw => exact h
  | lost self => trivial

lemma Sound.set {s : Issue} (h : Sound s) {p : Worker}
    (hp : p.phase.Ok s.comments w) : Sound (s.set w p) := by
  refine ⟨h.marked, fun v => ?_⟩
  by_cases hv : v = w
  · subst hv
    rw [set_worker_self]
    exact hp
  · rw [set_worker_ne s p hv]
    exact h.phase v

lemma next_list {issue : Nat} {s : Issue} (hs : Sound s) {w : Identity} {self : ClaimSelf}
    (hp : (s.worker w).phase = .posted self) :
    next issue s (.listClaims w) =
      some (s.set w { s.worker w with phase := .listed self s.comments }) := by
  have hok := hs.phase w
  rw [hp] at hok
  have hlist := @listVerifiedClaims_of_visible issue self.commentId none (fun _ => .ok s.comments) _ rfl
    hok.2.2
  simp only [next, hp, hlist]

lemma next_reconcile {issue : Nat} {s : Issue} (hs : Sound s) {w : Identity} {self : ClaimSelf}
    {raw : List RawClaimComment} (hp : (s.worker w).phase = .listed self raw) :
    Leads (parseClaimRecords raw) w ∧
        next issue s (.reconcile w) = some (s.set w { phase := .idle, holds := true }) ∨
      ¬ Leads (parseClaimRecords raw) w ∧
        next issue s (.reconcile w) = some (s.set w { s.worker w with phase := .lost self }) := by
  have hok := hs.phase w
  rw [hp] at hok
  obtain ⟨hself, hord, hmerge⟩ := hok
  obtain ⟨d, hd, -, hwon⟩ := reconcileClaim_neverStale hord
  rw [Leads, hmerge, hself] at hwon
  cases hv : d.verdict with
  | won => exact .inl ⟨hwon.mp hv, by simp only [next, hp, hd, hv]⟩
  | lost =>
    refine .inr ⟨fun h => ?_, by simp only [next, hp, hd, hv]⟩
    rw [hwon.mpr h] at hv
    cases hv

/-- A step is a change of one worker, after one new comment of that worker or
none. -/
lemma next_cases {issue : Nat} {s : Issue} (hs : Sound s) (h : next issue s a = some t) :
    (∃ w runner createdAt posting s', a = .postClaim w runner createdAt posting ∧
      (s.worker w).phase = .idle ∧
      s.post (renderClaimComment { worker := w, runner := runner.map Runner.text, createdAt }
        .claim none) posting = some s' ∧
      t = s'.set w {
        phase := .posted { worker := w, commentId := posting.id, runner, createdAt }
        holds := (s.worker w).holds }) ∨
    (∃ w self, a = .listClaims w ∧ (s.worker w).phase = .posted self ∧
      t = s.set w { s.worker w with phase := .listed self s.comments }) ∨
    (∃ w self raw, a = .reconcile w ∧ (s.worker w).phase = .listed self raw ∧
      (Leads (parseClaimRecords raw) w ∧ t = s.set w { phase := .idle, holds := true } ∨
        ¬ Leads (parseClaimRecords raw) w ∧ t = s.set w { s.worker w with phase := .lost self })) ∨
    (∃ (w : Identity) (self : MarkerSelf) (reason : Option ConcedeReason) (posting : Posting) (s' : Issue),
      (a = .concede w posting ∨ ∃ runner, a = .release w runner posting) ∧ self.worker = w ∧ self.Plain ∧
      s.post (renderClaimComment self .concede reason) posting = some s' ∧
      t = s'.set w { phase := .idle, holds := false }) := by
  cases a with
  | postClaim w runner createdAt posting =>
    simp only [next] at h
    split at h
    · next hphase =>
        obtain ⟨s', hs', rfl⟩ := Option.map_eq_some_iff.mp h
        exact .inl ⟨w, runner, createdAt, posting, s', rfl, hphase, hs', rfl⟩
    · cases h
  | listClaims w =>
    cases hp : (s.worker w).phase with
    | posted self =>
      rw [next_list hs hp] at h
      exact .inr (.inl ⟨w, self, rfl, hp, (Option.some.inj h).symm⟩)
    | _ => simp [next, hp] at h
  | reconcile w =>
    cases hp : (s.worker w).phase with
    | listed self raw =>
      refine .inr (.inr (.inl ⟨w, self, raw, rfl, hp, ?_⟩))
      rcases @next_reconcile issue _ hs _ _ _ hp with ⟨hl, hn⟩ | ⟨hl, hn⟩
      · exact .inl ⟨hl, Option.some.inj (h.symm.trans hn)⟩
      · exact .inr ⟨hl, Option.some.inj (h.symm.trans hn)⟩
    | _ => simp [next, hp] at h
  | concede w posting =>
    simp only [next] at h
    split at h
    · next self hphase =>
        obtain ⟨s', hs', rfl⟩ := Option.map_eq_some_iff.mp h
        exact .inr (.inr (.inr ⟨w, _, _, posting, s', .inl rfl, by rfl,
          plain_claimant w.2.2.2 _ _, hs', rfl⟩))
    · cases h
  | release w runner posting =>
    simp only [next] at h
    split at h
    · next hw =>
        obtain ⟨s', hs', rfl⟩ := Option.map_eq_some_iff.mp h
        exact .inr (.inr (.inr ⟨w, _, _, posting, s', .inr ⟨_, rfl⟩, by rfl,
          plain_claimant w.2.2.2 _ _, hs', rfl⟩))
    · cases h

lemma Sound.post {s s' : Issue} (h : Sound s) {w : Identity} {p : Worker} {c : RawClaimComment}
    {r : ClaimRecord} (hwork : s'.worker = s.worker) (hcs : s'.comments = s.comments ++ [c])
    (hparse : parseClaimRecords [c] = [r]) (hr : r.worker = w) (hid : r.commentId = c.id)
    (hnew : ∀ d ∈ s.comments, d.id < c.id) (hp : p.phase.Ok s'.comments w) :
    Sound (s'.set w p) := by
  refine ⟨?_, fun v => ?_⟩
  · rw [set_comments, hcs]
    exact h.marked.post hparse hid (hr ▸ w.2.1) hnew
  · by_cases hv : v = w
    · subst hv
      rw [set_worker_self]
      exact hp
    · rw [set_worker_ne s' p hv, hwork, set_comments, hcs]
      exact (h.phase v).frame hparse fun hrv => hv (Subtype.ext (hrv.symm.trans hr))

lemma sound_start : Sound start :=
  ⟨⟨List.Pairwise.nil, by simp [start, parseClaimRecords], by simp [start, parseClaimRecords]⟩,
    fun _ => trivial⟩

lemma sound_step {issue : Nat} {s : Issue} (hs : Sound s)
    (h : next issue s a = some t) : Sound t := by
  rcases next_cases hs h with ⟨w, runner, createdAt, posting, s', -, -, hpost, rfl⟩ |
    ⟨w, self, -, hp, rfl⟩ | ⟨w, self, raw, -, hp, ⟨-, rfl⟩ | ⟨-, rfl⟩⟩ |
    ⟨w, self, reason, posting, s', -, hw, hplain, hpost, rfl⟩
  · obtain ⟨hwork, c, r, hcs, hparse, hr, hk, hid, hc, hnew⟩ := post_eq rfl (plain_claimant w.2.2.2 _ _) hpost
    refine hs.post hwork hcs hparse hr (hid.trans hc.symm) (hc ▸ hnew) ⟨rfl, ?_, ?_⟩
    · rw [hcs, parseClaimRecords_append, hparse]
      exact ownLast_append hr hk hid
    · simp [hcs, hc]
  · have hok := hs.phase w
    rw [hp] at hok
    exact hs.set ⟨hok.1, hs.marked.merge hok.2.1⟩
  · exact hs.set trivial
  · exact hs.set trivial
  · obtain ⟨hwork, c, r, hcs, hparse, hr, -, hid, hc, hnew⟩ := post_eq hw hplain hpost
    exact hs.post hwork hcs hparse hr (hid.trans hc.symm) (hc ▸ hnew) trivial

/-- Whoever commits leads now. -/
def Led (s : Issue) : Prop := ∀ w, (s.worker w).Commits w → Leads (records s) w

lemma led_set {s : Issue} {p : Worker}
    (hoth : ∀ v, v ≠ w → (s.worker v).Commits v → Leads (records s) v)
    (hp : p.Commits w → Leads (records s) w) : Led (s.set w p) := by
  intro v hv
  by_cases hvw : v = w
  · subst hvw
    rw [set_worker_self] at hv
    exact hp hv
  · rw [set_worker_ne s p hvw] at hv
    exact hoth v hvw hv

lemma Marked.since_lt (h : Marked cs) {n : Nat} (hnew : ∀ c ∈ cs, c.id < n) {w : Text} {i : Nat}
    (hi : (standing (parseClaimRecords cs)).since w = some i) : i < n := by
  obtain ⟨r, hr, -, -, rfl⟩ := firstClaim_mem hi
  obtain ⟨c, hc, hcr⟩ := h.listed r hr
  exact hcr ▸ hnew c hc

lemma led_step {issue : Nat} {s : Issue} (hs : Sound s) (hl : Led s)
    (hok : NoJump s a) (h : next issue s a = some t) : Led t := by
  rcases next_cases hs h with ⟨w, runner, createdAt, posting, s', rfl, hidle, hpost, rfl⟩ |
    ⟨w, self, -, hp, rfl⟩ | ⟨w, self, raw, -, hp, ⟨hlead, rfl⟩ | ⟨hlead, rfl⟩⟩ |
    ⟨w, self, reason, posting, s', -, hw, hplain, hpost, rfl⟩
  · obtain ⟨hwork, c, r, hcs, hparse, hr, hk, hid, -, hnew⟩ := post_eq rfl (plain_claimant w.2.2.2 _ _) hpost
    have hstand : standing (records s') = (standing (records s)).enter w posting.id := by
      rw [records, hcs, parseClaimRecords_append, hparse, standing_claim _ hk, hr, hid]
    refine led_set (fun v hv hc => ?_) fun hc => ?_
    · rw [hwork] at hc
      rw [Leads, hstand]
      refine (hl v hc).enter (fun hvw => hv (Subtype.ext hvw)) (fun i hi => ?_) (hok v hv hc)
      exact hs.marked.since_lt hnew hi
    · rcases hc with hc | ⟨self', raw', hp', -⟩
      · rw [Leads, hstand]
        exact (hl w (.inl hc)).enter_self _
      · cases hp'
  · refine led_set (fun v _ => hl v) fun hc => ?_
    rcases hc with hc | ⟨self', raw', hp', hlead⟩
    · exact hl w (.inl hc)
    · cases hp'
      exact hlead
  · exact led_set (fun v _ => hl v) fun _ => hl w (.inr ⟨self, raw, hp, hlead⟩)
  · refine led_set (fun v _ => hl v) fun hc => ?_
    rcases hc with hc | ⟨self', raw', hp', -⟩
    · exact hl w (.inl hc)
    · cases hp'
  · obtain ⟨hwork, c, r, hcs, hparse, hr, hk, hid, -, hnew⟩ := post_eq hw hplain hpost
    have hstand : standing (records s') = (standing (records s)).withdraw w := by
      rw [records, hcs, parseClaimRecords_append, hparse, standing_concede _ hk, hr]
    refine led_set (fun v hv hc => ?_) fun hc => ?_
    · rw [hwork] at hc
      rw [Leads, hstand]
      exact (hl v hc).withdraw fun hvw => hv (Subtype.ext hvw)
    · rcases hc with hc | ⟨self', raw', hp', -⟩
      · cases hc
      · cases hp'

lemma led_start : Led start := by
  rintro w (hc | ⟨self, raw, hp, -⟩)
  · cases hc
  · cases hp

section
variable {issue : Nat} {ok : Issue → Step → Prop} {s : Issue}

lemma sound_of_reach (h : (race issue).Reach ok s) : Sound s :=
  h.inv Sound (fun s (hs : s = start) => hs ▸ sound_start) fun _ _ _ hs _ hn => sound_step hs hn

lemma led_of_reach (h : (race issue).Reach NoJump s) : Led s := by
  have hboth := h.inv (fun s => Sound s ∧ Led s) (fun s (hs : s = start) => hs ▸ ⟨sound_start, led_start⟩)
    fun _ _ _ hs hok hn => ⟨sound_step hs.1 hn, led_step hs.1 hs.2 hok hn⟩
  exact hboth.2

lemma Led.exclusive (h : Led s) : Exclusive s := fun v w hv hw =>
  Subtype.ext ((h v (.inl hv)).unique (h w (.inl hw)))

end

/-- A worker that has read a list it leads can make itself a holder, and nobody
else is touched. -/
lemma commit_run {issue : Nat} {s : Issue} (hs : Sound s) {w : Identity}
    (h : (s.worker w).Commits w) :
    ∃ as t, (race issue).Run anyStep s as t ∧ Sound t ∧ (t.worker w).holds = true ∧
      ∀ v, v ≠ w → t.worker v = s.worker v := by
  rcases h with hc | ⟨self, raw, hp, hlead⟩
  · exact ⟨[], s, .nil s, hs, hc, fun _ _ => rfl⟩
  · rcases @next_reconcile issue _ hs _ _ _ hp with ⟨-, hn⟩ | ⟨hno, -⟩
    · exact ⟨[.reconcile w], _, .single trivial hn, sound_step hs hn, by simp,
        fun v hv => set_worker_ne _ _ hv⟩
    · exact absurd hlead hno

lemma posted_run {issue : Nat} {s : Issue} (hs : Sound s) {w : Identity} {self : ClaimSelf}
    (hp : (s.worker w).phase = .posted self) (hlead : Leads (records s) w) :
    ∃ as t, (race issue).Run anyStep s as t ∧ Sound t ∧ (t.worker w).holds = true ∧
      ∀ v, v ≠ w → t.worker v = s.worker v := by
  have hread := @next_list issue _ hs _ _ hp
  have hrun : (race issue).Run anyStep s [.listClaims w] _ := .single trivial hread
  have hcomm : Worker.Commits
      ((s.set w { s.worker w with phase := .listed self s.comments }).worker w) w := by
    rw [set_worker_self]
    exact .inr ⟨self, s.comments, rfl, hlead⟩
  obtain ⟨as, t, hrun', ht, hheld, hframe⟩ := commit_run (sound_step hs hread) hcomm
  exact ⟨_, t, hrun.append hrun', ht, hheld, fun v hv => by
    rw [hframe v hv, set_worker_ne _ _ hv]⟩

/-- A worker that jumps ahead of one that commits leaves two holders within
reach. -/
lemma jump_run {issue : Nat} {s : Issue} (hs : Sound s) (hl : Led s)
    (hjump : ¬ NoJump s a) (h : next issue s a = some t) :
    ∃ as u, (race issue).Run anyStep t as u ∧ ¬ Exclusive u := by
  have ht := sound_step hs h
  rcases next_cases hs h with ⟨w, runner, createdAt, posting, s', rfl, hidle, hpost, rfl⟩ |
    ⟨w, self, rfl, -, -⟩ | ⟨w, self, raw, rfl, -, -⟩ | ⟨w, self, reason, posting, s', ha, -⟩
  · obtain ⟨hwork, c, r, hcs, hparse, hr, hk, hid, -, hnew⟩ := post_eq rfl (plain_claimant w.2.2.2 _ _) hpost
    simp only [NoJump, not_forall, not_lt] at hjump
    obtain ⟨v, hv, hc, i, j, hi, hj, hji⟩ := hjump
    have hne : j ≠ i := by
      obtain ⟨b, hb, hbw, -, rfl⟩ := firstClaim_mem hj
      obtain ⟨a, ha, haw, -, rfl⟩ := firstClaim_mem hi
      intro hab
      rw [hs.marked.inj a ha b hb hab.symm, hbw] at haw
      exact hv (Subtype.ext haw.symm)
    have hlead : Leads (records s') w := by
      rw [Leads, records, hcs, parseClaimRecords_append, hparse, standing_claim _ hk, hr, hid]
      refine (hl v hc).overtaken (fun hvw => hv (Subtype.ext hvw)) hj fun k hk' => ?_
      have hik : i = k := Option.some.inj (hi.symm.trans hk')
      omega
    -- `w` reads back a list it leads, and both go on to hold
    obtain ⟨as, u, hrun, hu, hheld, hframe⟩ :=
      @posted_run issue _ ht _ _ (congrArg Worker.phase (set_worker_self ..)) hlead
    have hv₁ : u.worker v = s.worker v := by
      rw [hframe v hv, set_worker_ne _ _ hv, hwork]
    obtain ⟨bs, u', hrun', -, hheld', hframe'⟩ := @commit_run issue _ hu _ (hv₁ ▸ hc)
    refine ⟨_, u', hrun.append hrun', fun hex => ?_⟩
    exact hv (hex v w hheld' (by rw [hframe' w (Ne.symm hv)]; exact hheld))
  · exact absurd trivial hjump
  · exact absurd trivial hjump
  · rcases ha with rfl | ⟨runner, rfl⟩
    · exact absurd trivial hjump
    · exact absurd trivial hjump

/-- No two workers hold in any state of a run in which nobody jumps ahead of a
worker that commits; and where somebody does, two holders are within reach. -/
theorem exclusive_iff_noJump (issue : Nat) : (∀ s, (race issue).Reach NoJump s → Exclusive s) ∧
      ∀ s a t, (race issue).Reach NoJump s → next issue s a = some t → ¬ NoJump s a →
        ∃ as u, (race issue).Run anyStep t as u ∧ ¬ Exclusive u :=
  ⟨fun _ hs => (led_of_reach hs).exclusive, fun _ _ _ hs hn hjump =>
    jump_run (sound_of_reach hs) (led_of_reach hs) hjump hn⟩

section

def alice : Identity := ⟨"host:a".toList, by decide⟩
def bob : Identity := ⟨"host:b".toList, by decide⟩

def takeOver : List Step :=
  [.postClaim alice none none ⟨1, none⟩, .listClaims alice, .reconcile alice,
   .release alice none ⟨2, none⟩,
   .postClaim bob none none ⟨3, none⟩, .listClaims bob, .reconcile bob]

def comeBack : List Step :=
  [.postClaim alice none none ⟨4, none⟩, .listClaims alice, .reconcile alice]

/-- Nobody has claimed before. -/
def firstPost (s : Issue) : Step → Bool
  | .postClaim w _ _ _ => (firstClaim (records s) w).isNone
  | _ => true

lemma noJump_of_firstPost {s : Issue} {a : Step} (h : firstPost s a = true) : NoJump s a := by
  cases a with
  | postClaim w _ _ _ =>
    intro v _ _ i j _ hj
    rw [firstPost, hj] at h
    simp at h
  | _ => trivial

/-- A worker that conceded claims again and wins over the one that works meanwhile. -/
theorem not_always_exclusive : ¬ ∀ issue s, (race issue).Reach anyStep s → Exclusive s := by
  intro h
  have hrun : ((race 7).exec start (takeOver ++ comeBack)).map
      (fun s => ((s.worker alice).holds, (s.worker bob).holds)) = some (true, true) := by
    decide +kernel
  obtain ⟨s, hs, hheld⟩ := Option.map_eq_some_iff.mp hrun
  have ha := congrArg Prod.fst hheld
  have hb := congrArg Prod.snd hheld
  exact absurd (h 7 s (Machine.reach_of_exec rfl hs) alice bob ha hb) (by decide)

/-- Both parts at work: `bob` holds alone, and `alice` coming back breaks that. -/
theorem exclusive_until_comeBack : ∃ s, (s.worker bob).holds = true ∧ Exclusive s ∧
      ∃ t as u, next 7 s (.postClaim alice none none ⟨4, none⟩) = some t ∧
        (race 7).Run anyStep t as u ∧ ¬ Exclusive u := by
  have hrun : ((race 7).execIf firstPost start takeOver).map
      (fun s => ((s.worker bob).holds, firstClaim (records s) bob, firstClaim (records s) alice,
        (next 7 s (.postClaim alice none none ⟨4, none⟩)).isSome)) =
      some (true, some 3, some 1, true) := by
    decide +kernel
  obtain ⟨s, hs, hfacts⟩ := Option.map_eq_some_iff.mp hrun
  simp only [Prod.mk.injEq] at hfacts
  obtain ⟨hheld, hbob, halice, hnext⟩ := hfacts
  obtain ⟨t, ht⟩ := Option.isSome_iff_exists.mp hnext
  have hreach : (race 7).Reach NoJump s :=
    ⟨start, takeOver, rfl, (Machine.run_of_execIf hs).mono fun _ _ => noJump_of_firstPost⟩
  have hjump : ¬ NoJump s (.postClaim alice none none ⟨4, none⟩) := fun h =>
    absurd (h bob (by decide) (.inl hheld) 3 1 hbob halice) (by decide)
  obtain ⟨as, u, hrun', hex⟩ := (exclusive_iff_noJump 7).2 s _ t hreach ht hjump
  exact ⟨s, hheld, (exclusive_iff_noJump 7).1 s hreach, t, as, u, ht, hrun', hex⟩

end

end Redskilled.Tracker.ClaimRace
