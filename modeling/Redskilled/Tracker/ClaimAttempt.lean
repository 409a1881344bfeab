import Redskilled.Foundation.Dialogue
import Redskilled.Tracker.ClaimRace

/-!
# A claim attempt that fails

`acquireClaim` posts its claim before anything else. After that it reads the claims
back, and may concede: for itself where it lost, for each stale holder where it won. Any
of these may throw, and then the attempt fails with its claim on the issue.

The comments between the calls are arbitrary. The lists that are read back are arbitrary
too, and so is what the attempt takes for stale.
-/
namespace Redskilled.Tracker.ClaimAttempt
open Foundation Foundation.Dialogue Foundation.Text ClaimMarker ClaimReconcile List
open ClaimRace (Identity Posting)

inductive ClaimQuestion where
  | postClaim (body : Text)
  | listClaims
  | concede (body : Text)
  | audit (recovered : List Text)

/-- The reads of one attempt are a single question: its answer tells what each call of
`listClaims` yields. -/
abbrev ClaimQuestion.Answer : ClaimQuestion → Type
  | .postClaim _ => ℕ
  | .listClaims => ℕ → Except Text (List RawClaimComment)
  | .concede _ => Unit
  | .audit _ => Unit

abbrev ClaimRun := Dialogue ClaimQuestion ClaimQuestion.Answer

abbrev ClaimTrace := List (Exchange ClaimQuestion ClaimQuestion.Answer)

structure Claimant where
  worker : Text
  runner : Option Runner
  createdAt : Option Text

/-- `heartbeatAge` is the age of a time stamp by the clock. -/
structure AcquireClaimOptions where
  isStale : ClaimRecord → Bool
  suppressConcede : Bool
  verifyAttempts : Option Nat
  audits : Bool
  heartbeatAge : Option Text → Option Nat

variable (opts : AcquireClaimOptions) (issue : Nat)

def lastHeartbeat (records : List ClaimRecord) (owner : Text) : Option Text :=
  (((records.filter (·.worker = owner)).insertionSort
    fun a b => b.commentId ≤ a.commentId).head?).bind (·.createdAt)

def evict (worker : Text) (records : List ClaimRecord) : List Text → ClaimRun Unit
  | [] => pure ()
  | owner :: owners => do
      let heartbeat := lastHeartbeat records owner
      let _ ← need (.concede (renderConcedeOnBehalf owner worker heartbeat
        ((opts.heartbeatAge heartbeat).map NumberText.ofNat)))
      evict worker records owners

def settle (self : Claimant) (records : List ClaimRecord) (decision : ClaimDecision) :
    ClaimRun ClaimDecision :=
  match decision.verdict with
  | .lost =>
    if opts.suppressConcede then pure decision
    else do
      let _ ← need (.concede (renderClaimComment
        { worker := self.worker, runner := self.runner.map Runner.text } .concede (some .lost)))
      pure decision
  | .won => do
      evict opts self.worker records decision.recovered
      if decision.recovered ≠ [] ∧ opts.audits then
        let _ ← attempt (ClaimQuestion.audit decision.recovered)
        pure decision
      else pure decision

def acquireClaim (self : Claimant) : ClaimRun ClaimDecision := do
  let commentId ← need (.postClaim (renderClaimComment
    { worker := self.worker, runner := self.runner.map Runner.text, createdAt := self.createdAt }
    .claim none))
  let answers ← need ClaimQuestion.listClaims
  match listVerifiedClaims issue commentId opts.verifyAttempts answers with
  | .error _ => .fail
  | .ok raw =>
    let records := parseClaimRecords raw
    match reconcileClaim opts.isStale records
        ⟨self.worker, commentId, self.runner, self.createdAt⟩ with
    | .error _ => .fail
    | .ok decision => settle opts self records decision

/-- The server takes the comment under an id above all earlier ones. -/
def Newer (cs : List RawClaimComment) (c : RawClaimComment) : Prop := ∀ d ∈ cs, d.id < c.id

/-- The comments of the issue before and after the calls of a run, others' comments
between them. A concede that throws may have been taken. -/
inductive Writes : List RawClaimComment → ClaimTrace → List RawClaimComment → Prop
  | done (cs : List RawClaimComment) : Writes cs [] cs
  | other {cs final : List RawClaimComment} {trace : ClaimTrace} (c : RawClaimComment) :
      Newer cs c → Writes (cs ++ [c]) trace final → Writes cs trace final
  | post {cs final : List RawClaimComment} {trace : ClaimTrace} {body : Text} {n : Nat}
      {createdAt : Option Text} : Newer cs ⟨n, body, createdAt⟩ →
      Writes (cs ++ [⟨n, body, createdAt⟩]) trace final →
      Writes cs (⟨.postClaim body, some n⟩ :: trace) final
  | list {cs final : List RawClaimComment} {trace : ClaimTrace}
      {answer : Option (ℕ → Except Text (List RawClaimComment))} :
      Writes cs trace final → Writes cs (⟨.listClaims, answer⟩ :: trace) final
  | concede {cs final : List RawClaimComment} {trace : ClaimTrace} {body : Text} {n : Nat}
      {createdAt : Option Text} {answer : Option Unit} : Newer cs ⟨n, body, createdAt⟩ →
      Writes (cs ++ [⟨n, body, createdAt⟩]) trace final →
      Writes cs (⟨.concede body, answer⟩ :: trace) final
  | concedeLost {cs final : List RawClaimComment} {trace : ClaimTrace} {body : Text} :
      Writes cs trace final → Writes cs (⟨.concede body, none⟩ :: trace) final
  | audit {cs final : List RawClaimComment} {trace : ClaimTrace} {recovered : List Text}
      {answer : Option Unit} :
      Writes cs trace final → Writes cs (⟨.audit recovered, answer⟩ :: trace) final

def Increasing (cs : List RawClaimComment) : Prop := cs.Pairwise (·.id < ·.id)

def claimComment (w : Identity) (runner : Option Runner) (createdAt : Option Text)
    (posting : Posting) : RawClaimComment where
  id := posting.id
  body := renderClaimComment { worker := w, runner := runner.map Runner.text, createdAt } .claim none
  createdAt := posting.createdAt

/-- A worker that claims the issue and reads all its comments wins. -/
def Wins (cs : List RawClaimComment) (w : Identity) (runner : Option Runner)
    (createdAt : Option Text) (posting : Posting) : Prop :=
  ∃ decision, reconcileClaim neverStale
      (parseClaimRecords (cs ++ [claimComment w runner createdAt posting]))
      ⟨w, posting.id, runner, createdAt⟩ = .ok decision ∧ decision.verdict = .won

/-- Whatever else is commented, short of a claim for `self`: a worker that claims the
issue when nobody but `self` and itself is still trying wins it. -/
def LeavesNoClaim (self : Identity) (cs : List RawClaimComment) : Prop :=
  ∀ (more : List RawClaimComment) (w : Identity) (runner : Option Runner)
    (createdAt : Option Text) (posting : Posting), Increasing (cs ++ more) →
    (∀ c ∈ cs ++ more, c.id < posting.id) →
    (∀ r ∈ parseClaimRecords more, r.worker = self → r.kind ≠ .claim) →
    (∀ v : Text, v ≠ self → v ≠ w → lastWord (parseClaimRecords (cs ++ more)) v ≠ some .claim) →
    Wins (cs ++ more) w runner createdAt posting

lemma commentId_of_parse {cs : List RawClaimComment} {r : ClaimRecord}
    (h : r ∈ parseClaimRecords cs) : ∃ c ∈ cs, c.id = r.commentId := by
  obtain ⟨c, hc, hr⟩ := mem_flatMap.mp h
  obtain ⟨marker, -, hrec⟩ := mem_filterMap.mp hr
  simp only [recordOf] at hrec
  split at hrec
  · cases hrec
  · cases hrec
    exact ⟨c, hc, rfl⟩

lemma Increasing.records {cs : List RawClaimComment} (h : Increasing cs) :
    (parseClaimRecords cs).Pairwise (·.commentId ≤ ·.commentId) := by
  induction cs with
  | nil => exact List.Pairwise.nil
  | cons c cs ih =>
    obtain ⟨hnew, hcs⟩ := pairwise_cons.mp h
    have hspl : parseClaimRecords (c :: cs) = parseClaimRecords [c] ++ parseClaimRecords cs :=
      parseClaimRecords_append [c] cs
    have hown : ∀ r ∈ parseClaimRecords [c], r.commentId = c.id := by
      intro r hr
      obtain ⟨d, hd, hid⟩ := commentId_of_parse hr
      rw [← hid, mem_singleton.mp hd]
    rw [hspl]
    refine pairwise_append.mpr ⟨?_, ih hcs, ?_⟩
    · apply pairwise_of_forall_mem_list
      intro a ha b hb
      rw [hown a ha, hown b hb]
    · intro a ha b hb
      obtain ⟨d, hd, hid⟩ := commentId_of_parse hb
      rw [hown a ha, ← hid]
      exact (hnew d hd).le

lemma lastWord_append_list (as bs : List ClaimRecord) (w : Text) :
    lastWord (as ++ bs) w = (lastWord bs w).or (lastWord as w) := by
  simp only [lastWord, reverse_append, find?_append, Option.map_or]

lemma parse_marker {w : Text} (hne : w ≠ []) (hclean : Clean w) {kind : ClaimKind}
    {reason : Option ConcedeReason} {runner : Option Runner} {createdAt : Option Text}
    {c : RawClaimComment} (hbody : c.body =
      renderClaimComment { worker := w, runner := runner.map Runner.text, createdAt } kind reason) :
    ∃ r, parseClaimRecords [c] = [r] ∧ r.worker = w ∧ r.kind = kind ∧ r.commentId = c.id :=
  ⟨_, parse_render c hbody hne (gt_notMem_humanLine (plain_claimant hclean.2 _ _) kind reason),
    escapeField_of_clean hclean, rfl, rfl⟩

section
variable {cs : List RawClaimComment} {w : Identity} {runner : Option Runner}
  {createdAt : Option Text} {posting : Posting}

variable (w) (runner) (createdAt) in
lemma merged_records (hcs : Increasing cs) (hnew : ∀ c ∈ cs, c.id < posting.id) :
    let self : ClaimSelf := ⟨w, posting.id, runner, createdAt⟩
    let rs := parseClaimRecords (cs ++ [claimComment w runner createdAt posting])
    (∀ r ∈ rs ++ [self.record], r.worker ≠ []) ∧
      ((rs ++ [self.record]).Pairwise fun a b => a.worker = b.worker → a.commentId ≤ b.commentId) ∧
      (∀ a ∈ rs ++ [self.record], a ∈ parseClaimRecords cs ∨ a.commentId = posting.id) ∧
      ∀ (v : Text), v ≠ w → ∀ id, Contends (rs ++ [self.record]) v id ↔
        Contends (parseClaimRecords cs) v id := by
  intro self rs
  obtain ⟨r, hparse, hwork, -, hid⟩ := parse_marker w.2.1 w.2.2
    (c := claimComment w runner createdAt posting) rfl
  have hrs : rs = parseClaimRecords cs ++ [r] := by
    rw [← hparse]
    exact parseClaimRecords_append _ _
  have hold : ∀ a ∈ parseClaimRecords cs, a.commentId ≤ posting.id := by
    intro a ha
    obtain ⟨c, hc, hca⟩ := commentId_of_parse ha
    rw [← hca]
    exact (hnew c hc).le
  have hlate : ∀ b ∈ [r, self.record], b.worker = w ∧ b.commentId = posting.id := by
    simp only [List.mem_cons, List.not_mem_nil, or_false]
    rintro b (rfl | rfl)
    · exact ⟨hwork, hid⟩
    · exact ⟨rfl, rfl⟩
  have hall : rs ++ [self.record] = parseClaimRecords cs ++ [r, self.record] := by
    rw [hrs, List.append_assoc, List.singleton_append]
  rw [hall]
  refine ⟨?_, ?_, ?_, ?_⟩
  · intro a ha
    rcases List.mem_append.mp ha with ha | ha
    · exact (clean_of_parse ha).1
    · rw [(hlate a ha).1]
      exact w.2.1
  · have hfirst : (parseClaimRecords cs).Pairwise fun a b => a.worker = b.worker →
        a.commentId ≤ b.commentId := by
      refine hcs.records.imp ?_
      intro a b hle _
      exact hle
    refine List.pairwise_append.mpr ⟨hfirst, ?_, ?_⟩
    · apply List.pairwise_of_forall_mem_list
      intro a ha b hb _
      rw [(hlate a ha).2, (hlate b hb).2]
    · intro a ha b hb _
      rw [(hlate b hb).2]
      exact hold a ha
  · intro a ha
    exact (List.mem_append.mp ha).imp_right fun ha => (hlate a ha).2
  · intro v hv id
    have hr : r.worker ≠ v := fun h => hv (h.symm.trans hwork)
    have hself : self.record.worker ≠ v := fun h => hv h.symm
    have hpair : [r, self.record] = [r] ++ [self.record] := rfl
    rw [hpair, ← List.append_assoc, contends_iff, contends_iff, lastWord_append, lastWord_append,
      firstClaim_append, firstClaim_append, if_neg hself, if_neg hr]
    simp only [hr, hself, false_and, if_false, Option.or_none]

lemma wins_of_alone (hcs : Increasing cs) (hnew : ∀ c ∈ cs, c.id < posting.id)
    (halone : ∀ v : Text, v ≠ w → lastWord (parseClaimRecords cs) v ≠ some .claim) :
    Wins cs w runner createdAt posting := by
  obtain ⟨hnam, hord, -, hoth⟩ := merged_records w runner createdAt hcs hnew
  have honly : ∀ c ∈ contenders neverStale
      (parseClaimRecords (cs ++ [claimComment w runner createdAt posting]))
      ⟨w, posting.id, runner, createdAt⟩, c.worker = w := by
    intro c hc
    by_contra hne
    have hcont := (mem_contenders hnam hord).mp hc
    exact halone c.worker hne ((hoth c.worker hne _).mp hcont).1
  unfold Wins reconcileClaim
  rw [if_neg w.2.1]
  cases hsort : (contenders neverStale _ _).insertionSort Contender.precedes with
  | nil =>
    obtain ⟨id, hid⟩ := contends_self (parseClaimRecords
      (cs ++ [claimComment w runner createdAt posting])) ⟨w, posting.id, runner, createdAt⟩
    have hin := (mem_contenders hnam hord (c := ⟨w, id⟩)).mpr hid
    rw [← mem_insertionSort Contender.precedes, hsort] at hin
    exact absurd hin not_mem_nil
  | cons winner rest =>
    have hwinn : winner.worker = w := honly winner (head_contenders hsort).1
    simp only [if_pos hwinn]
    exact ⟨_, rfl, rfl⟩

lemma not_wins_of_older (hcs : Increasing cs) (hnew : ∀ c ∈ cs, c.id < posting.id)
    {v : Text} {id : Nat} (hv : v ≠ w) (hcont : Contends (parseClaimRecords cs) v id)
    (hnewc : ∀ r ∈ parseClaimRecords cs, r.worker ≠ w) :
    ¬ Wins cs w runner createdAt posting := by
  obtain ⟨hnam, hord, hknown, hoth⟩ := merged_records w runner createdAt hcs hnew
  rintro ⟨decision, hdec, hwon⟩
  have hriv := (mem_contenders hnam hord (c := ⟨v, id⟩)).mpr ((hoth v hv id).mpr hcont)
  have hlt : id < posting.id := by
    obtain ⟨r, hr, -, hid⟩ := hcont.mem
    obtain ⟨c, hc, hca⟩ := commentId_of_parse hr
    rw [← hid, ← hca]
    exact hnew c hc
  unfold reconcileClaim at hdec
  rw [if_neg w.2.1] at hdec
  cases hsort : (contenders neverStale _ _).insertionSort Contender.precedes with
  | nil =>
    rw [← mem_insertionSort Contender.precedes, hsort] at hriv
    exact absurd hriv not_mem_nil
  | cons winner rest =>
    rw [hsort] at hdec
    obtain ⟨hin, hfirst⟩ := head_contenders hsort
    have hwinn : winner.worker ≠ w := by
      intro heq
      have hclaim := (mem_contenders hnam hord).mp hin
      have hyoung : posting.id ≤ winner.claimId := by
        obtain ⟨a, ha, haw, haid⟩ := hclaim.mem
        rcases hknown a ha with hold | hown
        · exact absurd (haw.trans heq) (hnewc a hold)
        · omega
      rcases hfirst ⟨v, id⟩ hriv with hsame | hlt' | ⟨hsame, -⟩
      · exact hv ((congrArg Contender.worker hsame).trans heq)
      · exact absurd (hlt'.trans hlt) (not_lt.mpr hyoung)
      · simp only at hsame
        omega
    simp only [if_neg hwinn] at hdec
    cases hdec
    cases hwon

end

section
variable {cs : List RawClaimComment}

lemma exists_newer (cs : List RawClaimComment) : ∃ n, ∀ c ∈ cs, c.id < n := by
  induction cs with
  | nil => exact ⟨0, fun c hc => absurd hc not_mem_nil⟩
  | cons c cs ih =>
    obtain ⟨n, hn⟩ := ih
    refine ⟨max n (c.id + 1), fun d hd => ?_⟩
    rcases mem_cons.mp hd with rfl | hd
    · omega
    · have := hn d hd
      omega

lemma Increasing.snoc (hcs : Increasing cs) {c : RawClaimComment} (hc : Newer cs c) :
    Increasing (cs ++ [c]) :=
  pairwise_append.mpr ⟨hcs, pairwise_singleton _ _, fun d hd _ he =>
    mem_singleton.mp he ▸ hc d hd⟩

lemma silence (hcs : Increasing cs) (vs : List Text) (hvs : ∀ v ∈ vs, v ≠ [] ∧ Clean v) :
    ∃ more, Increasing (cs ++ more) ∧
      (∀ r ∈ parseClaimRecords more, r.worker ∈ vs ∧ r.kind = .concede) ∧
      (∀ v ∈ vs, lastWord (parseClaimRecords (cs ++ more)) v = some .concede) ∧
      ∀ v ∉ vs, lastWord (parseClaimRecords (cs ++ more)) v = lastWord (parseClaimRecords cs) v := by
  induction vs with
  | nil =>
    refine ⟨[], by rwa [append_nil], ?_, ?_, ?_⟩
    · exact fun r hr => absurd hr not_mem_nil
    · exact fun v hv => absurd hv not_mem_nil
    · intro v _
      rw [append_nil]
  | cons v vs ih =>
    obtain ⟨more, hmore, hkinds, hsil, hframe⟩ := ih fun u hu =>
      hvs u (mem_cons_of_mem v hu)
    obtain ⟨n, hn⟩ := exists_newer (cs ++ more)
    have hv := hvs v mem_cons_self
    let c : RawClaimComment :=
      ⟨n, renderClaimComment { worker := v } .concede (some .released), none⟩
    obtain ⟨r, hparse, hwork, hkind, -⟩ :=
      @parse_marker v hv.1 hv.2 .concede (some .released) none none c rfl
    have hass : cs ++ (more ++ [c]) = cs ++ more ++ [c] := (append_assoc _ _ _).symm
    have hword : ∀ u, lastWord (parseClaimRecords (cs ++ (more ++ [c]))) u =
        if v = u then some .concede else lastWord (parseClaimRecords (cs ++ more)) u := by
      intro u
      rw [hass, parseClaimRecords_append, hparse, lastWord_append, hwork, hkind]
    refine ⟨more ++ [c], ?_, ?_, ?_, ?_⟩
    · rw [hass]
      exact hmore.snoc hn
    · intro a ha
      rw [parseClaimRecords_append, hparse] at ha
      rcases mem_append.mp ha with ha | ha
      · exact ⟨mem_cons_of_mem v (hkinds a ha).1, (hkinds a ha).2⟩
      · rw [mem_singleton.mp ha, hwork]
        exact ⟨mem_cons_self, hkind⟩
    · intro u hu
      rw [hword]
      split_ifs with heq
      · rfl
      · exact hsil u ((mem_cons.mp hu).resolve_left fun h => heq h.symm)
    · intro u hu
      have hne : v ≠ u := by
        intro heq
        rw [heq] at hu
        exact hu mem_cons_self
      rw [hword, if_neg hne]
      exact hframe u fun h => hu (mem_cons_of_mem v h)

lemma exists_newcomer (names : List Text) : ∃ w : Identity, (w : Text) ∉ names := by
  have hname : ∀ k, Clean (replicate k 'a') := by
    intro k
    constructor
    · intro c hc
      rw [eq_of_mem_replicate hc]
      decide
    · intro hc
      exact absurd (eq_of_mem_replicate hc) (by decide)
  have hlong : ∃ k, ∀ name ∈ names, name.length < k := by
    induction names with
    | nil => exact ⟨0, fun name h => absurd h not_mem_nil⟩
    | cons name names ih =>
      obtain ⟨k, hk⟩ := ih
      refine ⟨max k (name.length + 1), fun other h => ?_⟩
      rcases mem_cons.mp h with rfl | h
      · omega
      · have := hk other h
        omega
  obtain ⟨k, hk⟩ := hlong
  refine ⟨⟨replicate (k + 1) 'a', cons_ne_nil _ _, hname _⟩, fun hin => ?_⟩
  have hlt := hk _ hin
  rw [length_replicate] at hlt
  omega

end

section
variable {opts : AcquireClaimOptions} {issue : Nat} {self : Identity} {runner : Option Runner}
  {createdAt : Option Text} {cs final : List RawClaimComment} {body : Text} {n : Nat}
  {trace : ClaimTrace} {outcome : Outcome ClaimDecision}

lemma leavesNoClaim_iff (hfin : Increasing final) : LeavesNoClaim self final ↔
    lastWord (parseClaimRecords final) self ≠ some .claim := by
  constructor
  · intro hleav hclaim
    let others : List Text :=
      ((parseClaimRecords final).map (·.worker)).filter fun v : Text => v ≠ (self : Text)
    have hnames : ∀ v ∈ others, v ≠ [] ∧ Clean v := by
      intro v hv
      obtain ⟨r, hr, rfl⟩ := mem_map.mp (mem_filter.mp hv).1
      exact clean_of_parse hr
    obtain ⟨more, hmore, hkinds, hsil, hframe⟩ := silence hfin _ hnames
    have hself : (self : Text) ∉ others := by
      intro hin
      exact of_decide_eq_true (mem_filter.mp hin).2 rfl
    obtain ⟨w, hw⟩ := exists_newcomer
      ((self : Text) :: (parseClaimRecords (final ++ more)).map (·.worker))
    obtain ⟨m, hm⟩ := exists_newer (final ++ more)
    have hclaim' := (hframe self hself).trans hclaim
    obtain ⟨i, hi⟩ : ∃ i, firstClaim (parseClaimRecords (final ++ more)) self = some i := by
      apply Option.ne_none_iff_exists'.mp
      intro hnone
      obtain ⟨r, hr, hkind⟩ := Option.map_eq_some_iff.mp hclaim'
      have hwork : r.worker = self := by simpa using find?_some hr
      exact firstClaim_eq_none.mp hnone r
        (mem_reverse.mp (mem_of_find?_eq_some hr)) hwork hkind
    have hother : (self : Text) ≠ w := by
      intro heq
      rw [← heq] at hw
      exact hw mem_cons_self
    have hnewc : ∀ r ∈ parseClaimRecords (final ++ more), r.worker ≠ w := by
      intro r hr heq
      rw [← heq] at hw
      exact hw (mem_cons_of_mem _ (mem_map_of_mem hr))
    let posting : Posting := ⟨m, none⟩
    have hlos : ¬ Wins (final ++ more) w none none posting :=
      not_wins_of_older hmore hm hother ⟨hclaim', hi⟩ hnewc
    apply hlos
    apply hleav more w none none posting hmore hm
    · intro r hr heq
      exact absurd (heq ▸ (hkinds r hr).1) hself
    · intro v hv _ hstands
      by_cases hin : v ∈ others
      · rw [hsil v hin] at hstands
        cases hstands
      · rw [hframe v hin] at hstands
        obtain ⟨r, hr, -⟩ := Option.map_eq_some_iff.mp hstands
        have hwork : r.worker = v := by simpa using find?_some hr
        apply hin
        apply mem_filter.mpr
        refine ⟨mem_map.mpr ⟨r, ?_, hwork⟩, decide_eq_true hv⟩
        exact mem_reverse.mp (mem_of_find?_eq_some hr)
  · intro hno more w runner createdAt posting hmore hnew hkinds hoth
    apply wins_of_alone hmore hnew
    intro v hv hstands
    by_cases hself : v = self
    · subst hself
      rw [parseClaimRecords_append, lastWord_append_list] at hstands
      cases hlast : lastWord (parseClaimRecords more) self with
      | none =>
        rw [hlast, Option.none_or] at hstands
        exact hno hstands
      | some kind =>
        rw [hlast, Option.some_or] at hstands
        obtain ⟨r, hr, hkind⟩ := Option.map_eq_some_iff.mp (hlast.trans hstands)
        have hwork : r.worker = self := by simpa using find?_some hr
        exact hkinds r (mem_reverse.mp (mem_of_find?_eq_some hr)) hwork hkind
    · exact hoth v hself hv hstands

lemma Writes.extends (h : Writes cs trace final) (hcs : Increasing cs) :
    Increasing final ∧ ∃ more, final = cs ++ more := by
  induction h with
  | done cs => exact ⟨hcs, [], (append_nil cs).symm⟩
  | other c hnew _ ih =>
    obtain ⟨hfin, more, rfl⟩ := ih (hcs.snoc hnew)
    exact ⟨hfin, c :: more, append_assoc _ _ _⟩
  | post hnew _ ih =>
    obtain ⟨hfin, more, rfl⟩ := ih (hcs.snoc hnew)
    exact ⟨hfin, _, append_assoc _ _ _⟩
  | list _ ih => exact ih hcs
  | concede hnew _ ih =>
    obtain ⟨hfin, more, rfl⟩ := ih (hcs.snoc hnew)
    exact ⟨hfin, _, append_assoc _ _ _⟩
  | concedeLost _ ih => exact ih hcs
  | audit _ ih => exact ih hcs

lemma Writes.posted (h : Writes cs (⟨.postClaim body, some n⟩ :: trace) final)
    (hcs : Increasing cs) : Increasing final ∧ ∃ before postedAt behind,
      final = before ++ [⟨n, body, postedAt⟩] ++ behind := by
  generalize hall : (⟨.postClaim body, some n⟩ :: trace : ClaimTrace) = whole at h
  induction h with
  | other c hnew _ ih => exact ih (hcs.snoc hnew) hall
  | @post cs _ _ _ _ postedAt hnew hrest ih =>
    cases hall
    obtain ⟨hfin, more, hmore⟩ := hrest.extends (hcs.snoc hnew)
    exact ⟨hfin, cs, postedAt, more, hmore⟩
  | _ => cases hall

/-- A failed attempt leaves no claim in the way of a later worker exactly where the last
marker of its worker behind the claim is a concede. -/
theorem failed_leaves_no_claim_iff (hcs : Increasing cs)
    (hrun : Run (acquireClaim opts issue ⟨self, runner, createdAt⟩)
      (⟨.postClaim body, some n⟩ :: trace) .failed)
    (hwrites : Writes cs (⟨.postClaim body, some n⟩ :: trace) final) :
    LeavesNoClaim self final ↔
      lastWord (parseClaimRecords (final.filter fun c => n < c.id)) self = some .concede := by
  have hbody : body = renderClaimComment
      { worker := self, runner := runner.map Runner.text, createdAt := createdAt } .claim none := by
    cases hrun with
    | ask _ => rfl
  obtain ⟨hfin, before, postedAt, behind, rfl⟩ := hwrites.posted hcs
  obtain ⟨r, hparse, hwork, hkind, -⟩ := parse_marker self.2.1 self.2.2
    (c := (⟨n, body, postedAt⟩ : RawClaimComment)) hbody
  obtain ⟨hfront, -, hbeh⟩ := pairwise_append.mp hfin
  obtain ⟨-, -, hbef⟩ := pairwise_append.mp hfront
  have hfilt : filter (fun c : RawClaimComment => n < c.id)
      (before ++ [⟨n, body, postedAt⟩] ++ behind) = behind := by
    have hold : filter (fun c : RawClaimComment => n < c.id)
        (before ++ [⟨n, body, postedAt⟩]) = [] := by
      apply filter_eq_nil_iff.mpr
      intro c hc
      rcases mem_append.mp hc with hc | hc
      · have hlt : c.id < n := hbef c hc _ mem_cons_self
        simp only [decide_eq_true_eq]
        omega
      · rw [mem_singleton.mp hc]
        simp
    have hnew : behind.filter (fun c : RawClaimComment => n < c.id) = behind := by
      apply filter_eq_self.mpr
      intro c hc
      exact decide_eq_true (hbeh ⟨n, body, postedAt⟩
        (mem_append_right _ mem_cons_self) c hc)
    rw [filter_append, hold, hnew, nil_append]
  have hclaim : lastWord (parseClaimRecords (before ++ [⟨n, body, postedAt⟩])) self =
      some .claim := by
    rw [parseClaimRecords_append, hparse, lastWord_append, hwork, hkind, if_pos rfl]
  rw [leavesNoClaim_iff hfin, hfilt, parseClaimRecords_append, lastWord_append_list, hclaim]
  cases hlast : lastWord (parseClaimRecords behind) self with
  | none => simp
  | some kind => cases kind <;> simp

end

section

lemma alice_proper : "host:a".toList ≠ [] ∧ Clean "host:a".toList := by
  decide

def alice : Identity := ⟨"host:a".toList, alice_proper⟩

def outageOptions : AcquireClaimOptions := ⟨neverStale, false, none, false, fun _ => none⟩

def claimBody : Text :=
  renderClaimComment { worker := alice, runner := none, createdAt := none } .claim none

def outage : ClaimTrace :=
  [⟨.postClaim claimBody, some 1⟩, ⟨.listClaims, some fun _ => .error "HTTP 502".toList⟩]

lemma run_outage : Run (acquireClaim outageOptions 7 ⟨alice, none, none⟩) outage .failed :=
  Run.ask (Run.ask Run.fail)

lemma writes_outage : Writes [] outage [⟨1, claimBody, none⟩] := by
  refine Writes.post ?_ (Writes.list (Writes.done _))
  intro c hc
  exact absurd hc not_mem_nil

theorem outage_leaves_claim : LeavesNoClaim alice [⟨1, claimBody, none⟩] ↔
      lastWord (parseClaimRecords ([⟨1, claimBody, none⟩].filter fun c => 1 < c.id)) alice =
        some .concede :=
  failed_leaves_no_claim_iff List.Pairwise.nil run_outage writes_outage

/-- Every read-back throws: the attempt rejects, and its claim stays in the way of others. -/
theorem rejected_but_in_the_way : ∃ (trace : ClaimTrace) (final : List RawClaimComment),
      Run (acquireClaim outageOptions 7 ⟨alice, none, none⟩) trace .failed ∧
        Writes [] trace final ∧ ¬ LeavesNoClaim alice final := by
  refine ⟨outage, [⟨1, claimBody, none⟩], run_outage, writes_outage, ?_⟩
  rw [leavesNoClaim_iff (pairwise_singleton _ _), not_not]
  obtain ⟨r, hparse, hwork, hkind, -⟩ :=
    @parse_marker alice alice.2.1 alice.2.2 .claim none none none ⟨1, claimBody, none⟩ rfl
  rw [hparse, ← nil_append [r], lastWord_append, hwork, hkind, if_pos rfl]

end

end Redskilled.Tracker.ClaimAttempt
