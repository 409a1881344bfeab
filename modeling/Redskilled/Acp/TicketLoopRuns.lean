import Redskilled.Acp.TicketLoop

/-!
# What a Ticket loop asks

Whatever the loop is answered, it asks to publish only after a round that was not cancelled
and whose gate is green. It asks to land once at most, and only what was published and, where
there is a gate of countersigns, allowed by it. Every round either spends one of the budget
or one retry, so the loop comes to an end, and the stages that ran are in its records.
-/
namespace Redskilled.Acp.TicketLoop
open Foundation List

/-- A round that was not cancelled, and its gate is green. -/
def Gated (history : List Event) : Prop :=
  ∃ before handoff round implemented run,
    history = before ++ [Event.asked (.implement handoff round),
      .answered (.implemented (.ok implemented)), .asked (.gate round),
      .answered (.gated (.ok run))] ∧
    implemented.stopReason ≠ .cancelled ∧ (gateVerdict run.stages).ok = true

def Published (history : List Event) (publication : WorkerPublication) : Prop :=
  ∃ before, Gated before ∧ history = before ++ [Event.asked .publishTurn,
    .answered (.published (.ok (some (.requested publication))))]

def Judged (deps : TicketLoopDeps) (history : List Event) (publication : WorkerPublication) :
    Prop :=
  if deps.countersigned then
    ∃ before, Published before publication ∧ history = before ++
      [Event.asked (.check publication.commit (resolveVerifyRequirement deps.ticket.labels)),
        .answered (.judged (.ok .allowed))]
  else Published history publication

def Permitted (deps : TicketLoopDeps) (history : List Event) : Call → Prop
  | .publishTurn => Gated history
  | .land request => ∃ publication, Judged deps history publication ∧
      request.commit = publication.commit ∧ request.branch = publication.branch
  | _ => True

def Ordered (deps : TicketLoopDeps) (history : List Event) : Prop :=
  ∀ before call after, history = before ++ Event.asked call :: after → Permitted deps before call

def isLand : Event → Bool
  | .asked (.land _) => true
  | _ => false

def isImplement : Event → Bool
  | .asked (.implement _ _) => true
  | _ => false

section
variable {deps : TicketLoopDeps} {history : List Event}

lemma split_concat {before after : List Event} {event last : Event}
    (h : history ++ [last] = before ++ event :: after) :
    (history = before ∧ last = event) ∨ ∃ rest, history = before ++ event :: rest := by
  rcases eq_nil_or_concat after with rfl | ⟨rest, e, rfl⟩
  · obtain ⟨hbef, hlast⟩ := append_inj' h rfl
    exact .inl ⟨hbef, singleton_inj.mp hlast⟩
  · rw [concat_eq_append, ← cons_append, ← append_assoc] at h
    exact .inr ⟨rest, (append_inj' h rfl).1⟩

lemma Ordered.answered (h : Ordered deps history) (answer : Answer) :
    Ordered deps (history ++ [Event.answered answer]) := by
  intro before call after hspl
  rcases split_concat hspl with ⟨_, hlast⟩ | ⟨rest, hrest⟩
  · cases hlast
  · exact h before call rest hrest

lemma Ordered.asked (h : Ordered deps history) {call : Call}
    (hcall : Permitted deps history call) : Ordered deps (history ++ [Event.asked call]) := by
  intro before other after hspl
  rcases split_concat hspl with ⟨rfl, hlast⟩ | ⟨rest, hrest⟩
  · injection hlast with hsame
    exact hsame ▸ hcall
  · exact h before other rest hrest

end

def Call.stage : Call → TicketLoopStage
  | .githubWrite .. => .claim
  | .implement .. => .implement
  | .gate _ => .gate
  | .publishTurn => .publish
  | .check .. => .land
  | .land _ => .land

def Call.round : Call → Option ℕ
  | .implement _ round => some round
  | .gate round => some round
  | _ => none

def Noted (records : List TicketLoopRecord) (call : Call) : Prop :=
  ∃ record ∈ records, record.stage = call.stage ∧ record.round = call.round

def Phase.pending (rounds : ℕ) : Phase → Option (TicketLoopStage × Option ℕ)
  | .claiming => some (.claim, none)
  | .implementing => some (.implement, some rounds)
  | .gating => some (.gate, some rounds)
  | .publishing => some (.publish, none)
  | .judging _ => some (.land, none)
  | .landing _ => some (.land, none)
  | .returned _ _ => none
  | .rejected _ => none

def Recorded (s : State) : Prop :=
  ∀ call, .asked call ∈ s.history →
    Noted s.records call ∨ s.phase.pending s.rounds = some (call.stage, call.round)

def AllNoted (s : State) : Prop := ∀ call, .asked call ∈ s.history → Noted s.records call

lemma Noted.append {records more : List TicketLoopRecord} {call : Call} (h : Noted records call) :
    Noted (records ++ more) call := by
  obtain ⟨record, hmem, hsame⟩ := h
  exact ⟨record, mem_append_left more hmem, hsame⟩

lemma Recorded.note {s : State} (h : Recorded s) {record : TicketLoopRecord}
    (hpend : s.phase.pending s.rounds = some (record.stage, record.round)) (answer : Answer)
    (diff : Option WorktreeDiffStat) : AllNoted ((s.hear answer).note diff record) := by
  intro call hcall
  have hold : .asked call ∈ s.history := by
    rcases mem_append.mp hcall with hmem | hlast
    · exact hmem
    · exact absurd (mem_singleton.mp hlast) (by simp)
  rcases h call hold with hnoted | hcurr
  · exact hnoted.append
  · rw [hpend] at hcurr
    injection hcurr with hsame
    injection hsame with hstage hround
    exact ⟨_, mem_append_right _ mem_cons_self, hstage, hround⟩

lemma AllNoted.ask {s : State} (h : AllNoted s) {phase : Phase} {call : Call}
    (hpend : phase.pending s.rounds = some (call.stage, call.round)) :
    Recorded (s.ask phase call) := by
  intro other hoth
  rcases mem_append.mp hoth with hmem | hlast
  · exact .inl (h other hmem)
  · injection mem_singleton.mp hlast with hsame
    exact .inr (hsame ▸ hpend)

def Phase.mayHaveLanded : Phase → Bool
  | .landing _ => true
  | .returned _ _ => true
  | .rejected _ => true
  | _ => false

/-- What holds before and after an answer is read. -/
structure Core (deps : TicketLoopDeps) (s : State) : Prop where
  ordered : Ordered deps s.history
  lands : s.history.countP isLand ≤ 1
  unlanded : s.phase.mayHaveLanded = false → s.history.countP isLand = 0
  implements : s.history.countP isImplement = s.rounds
  rounds : s.rounds ≤ deps.budget + 1 + s.failureRetriesUsed
  retries : s.failureRetriesUsed ≤ workerFailureGlobalRetryLimit

def Waits (deps : TicketLoopDeps) (rounds : ℕ) (history : List Event) : Phase → Prop
  | .claiming => rounds = 0
  | .implementing => ∃ before handoff, history = before ++ [Event.asked (.implement handoff rounds)]
  | .gating => ∃ before handoff implemented, history = before ++
      [Event.asked (.implement handoff rounds), .answered (.implemented (.ok implemented)),
        .asked (.gate rounds)] ∧ implemented.stopReason ≠ .cancelled
  | .publishing => ∃ before, Gated before ∧ history = before ++ [Event.asked .publishTurn]
  | .judging publication => ∃ before, Published before publication ∧
      history = before ++ [Event.asked (.check publication.commit
        (resolveVerifyRequirement deps.ticket.labels))] ∧ deps.countersigned = true
  | _ => True

/-- The answers whose error is not caught. -/
def Answer.Throws (thrown : Thrown) : Answer → Prop
  | .gated answer => answer = .error thrown
  | .published answer => answer = .error thrown
  | .judged answer => answer = .error thrown
  | _ => False

structure Inv (deps : TicketLoopDeps) (s : State) : Prop where
  core : Core deps s
  waits : Waits deps s.rounds s.history s.phase
  recorded : (∀ thrown, s.phase ≠ .rejected thrown) → Recorded s
  returned : ∀ outcome records, s.phase = .returned outcome records → records = s.records
  rejected : ∀ thrown, s.phase = .rejected thrown →
    ∃ before answer, s.history = before ++ [Event.answered answer] ∧ answer.Throws thrown

section
variable {deps : TicketLoopDeps} {s : State}

lemma Core.hear (h : Core deps s) (answer : Answer) : Core deps (s.hear answer) where
  ordered := h.ordered.answered answer
  lands := by
    have hlands := h.lands
    simpa [State.hear, isLand] using hlands
  unlanded := by
    intro hphase
    have hnone := h.unlanded hphase
    simpa [State.hear, isLand] using hnone
  implements := by
    have hcount := h.implements
    simpa [State.hear, isImplement] using hcount
  rounds := h.rounds
  retries := h.retries

lemma Core.note (h : Core deps s) (diff : Option WorktreeDiffStat) (record : TicketLoopRecord) :
    Core deps (s.note diff record) := { h with }

variable {phase : Phase} {publication : WorkerPublication} {s' : State} {step : Step}

lemma Core.ended (h : Core deps s) (hphase : phase.mayHaveLanded = true) :
    Core deps { s with phase } :=
  { h with unlanded := fun hnot => absurd (hphase.symm.trans hnot) (by simp) }

lemma Core.ask (h : Core deps s) {call : Call}
    (hcall : Permitted deps s.history call) (hland : isLand (.asked call) = false)
    (himpl : isImplement (.asked call) = false)
    (hopen : phase.mayHaveLanded = false → s.phase.mayHaveLanded = false) :
    Core deps (s.ask phase call) where
  ordered := h.ordered.asked hcall
  lands := by
    have hlands := h.lands
    simpa [State.ask, hland] using hlands
  unlanded := by
    intro hphase
    have hnone := h.unlanded (hopen hphase)
    simpa [State.ask, hland] using hnone
  implements := by
    have hcount := h.implements
    simpa [State.ask, himpl] using hcount
  rounds := h.rounds
  retries := h.retries

lemma Core.startRound (h : Core deps s) (hopen : s.phase.mayHaveLanded = false)
    (hpaid : s.rounds ≤ deps.budget + s.failureRetriesUsed) : Core deps (s.startRound deps) where
  ordered := h.ordered.asked trivial
  lands := by
    have hlands := h.lands
    simpa [State.startRound, State.ask, isLand] using hlands
  unlanded := by
    intro _
    have hnone := h.unlanded hopen
    simpa [State.startRound, State.ask, isLand] using hnone
  implements := by
    have hcount := h.implements
    simpa [State.startRound, State.ask, isImplement] using hcount
  rounds := by
    change s.rounds + 1 ≤ deps.budget + 1 + s.failureRetriesUsed
    omega
  retries := h.retries

lemma Core.askLand (h : Core deps s)
    (hopen : s.phase.mayHaveLanded = false) (hjudg : Judged deps s.history publication) :
    Core deps (s.askLand deps publication) where
  ordered := h.ordered.asked ⟨publication, hjudg, rfl, rfl⟩
  lands := by
    have hnone := h.unlanded hopen
    simp [State.askLand, State.ask, isLand, hnone]
  unlanded := by
    intro hphase
    cases hphase
  implements := by
    have hcount := h.implements
    simpa [State.askLand, State.ask, isImplement] using hcount
  rounds := h.rounds
  retries := h.retries

lemma Core.retried (h : Core deps s) {retriesUsed : ℕ}
    (hused : retriesUsed = s.failureRetriesUsed + 1)
    (hlim : retriesUsed ≤ workerFailureGlobalRetryLimit)
    {failureClass : WorkerFailureRetryClass} {classRetriesUsed : ℕ} {evidence : Text} :
    Core deps (s.retry deps failureClass retriesUsed classRetriesUsed evidence) where
  ordered := h.ordered
  lands := h.lands
  unlanded := h.unlanded
  implements := h.implements
  rounds := by
    have hbound := h.rounds
    change s.rounds ≤ deps.budget + 1 + retriesUsed
    omega
  retries := hlim

lemma inv_finish (h : Core deps s) (hnoted : AllNoted s) (outcome : TicketLoopOutcome) :
    Inv deps (s.finish outcome) where
  core := h.ended rfl
  waits := trivial
  recorded := fun _ call hcall => .inl (hnoted call hcall)
  returned := by
    intro other records hphase
    injection hphase with _ hrecor
    exact hrecor.symm
  rejected := by
    intro thrown hphase
    cases hphase

lemma inv_reject (h : Core deps s) {answer : Answer} {thrown : Thrown}
    (hthr : answer.Throws thrown) : Inv deps ((s.hear answer).reject thrown) where
  core := (h.hear answer).ended rfl
  waits := trivial
  recorded := fun hnot => absurd rfl (hnot thrown)
  returned := by
    intro outcome records hphase
    cases hphase
  rejected := by
    intro other hphase
    injection hphase with hsame
    exact ⟨s.history, answer, rfl, hsame ▸ hthr⟩

lemma inv_ask {call : Call} (hcore : Core deps (s.ask phase call))
    (hwaits : Waits deps s.rounds (s.history ++ [.asked call]) phase)
    (hrec : Recorded (s.ask phase call)) (hopen : phase.pending s.rounds ≠ none) :
    Inv deps (s.ask phase call) where
  core := hcore
  waits := hwaits
  recorded := fun _ => hrec
  returned := by
    intro outcome records hphase
    subst hphase
    exact absurd rfl hopen
  rejected := by
    intro thrown hphase
    change phase = _ at hphase
    subst hphase
    exact absurd rfl hopen

lemma inv_startRound (h : Core deps s) (hopen : s.phase.mayHaveLanded = false)
    (hpaid : s.rounds ≤ deps.budget + s.failureRetriesUsed) (hnoted : AllNoted s) :
    Inv deps (s.startRound deps) := by
  have hcounted : AllNoted { s with rounds := s.rounds + 1 } := hnoted
  apply inv_ask (h.startRound hopen hpaid)
  · exact ⟨s.history, _, rfl⟩
  · exact hcounted.ask rfl
  · simp [Phase.pending]

lemma inv_begin (deps : TicketLoopDeps) (diff : Option WorktreeDiffStat) :
    Inv deps (State.begin deps diff) := by
  have hcore : ∀ s : State, s.history = [] → s.rounds = 0 → s.failureRetriesUsed = 0 →
      Core deps s := by
    intro s hhist hrounds hretr
    constructor
    · intro before call after hspl
      rw [hhist] at hspl
      simp at hspl
    · simp [hhist]
    · simp [hhist]
    · simp [hhist, hrounds]
    · omega
    · omega
  have hnoted : ∀ s : State, s.history = [] → AllNoted s := by
    intro s hhist call hcall
    rw [hhist] at hcall
    cases hcall
  unfold State.begin
  cases deps.preflightRefusal with
  | some detail => exact inv_finish (hcore _ rfl rfl rfl) (hnoted _ rfl) _
  | none =>
    dsimp only
    split_ifs
    · apply inv_startRound
      · exact hcore _ rfl rfl rfl
      · rfl
      · exact Nat.zero_le _
      · exact hnoted _ rfl
    · apply inv_ask
      · apply Core.ask (hcore _ rfl rfl rfl)
        · trivial
        · rfl
        · rfl
        · exact fun _ => rfl
      · rfl
      · exact (hnoted _ rfl).ask rfl
      · simp [Phase.pending]

lemma Inv.claimAnswered (h : Inv deps s) (hphase : s.phase = .claiming)
    (answer : Except Thrown Unit) (diff : Option WorktreeDiffStat) :
    Inv deps ((s.hear (.claimed answer)).claimAnswered deps diff answer) := by
  have hrec := h.recorded (by simp [hphase])
  have hcore := h.core.hear (.claimed answer)
  have hpend : s.phase.pending s.rounds = some (.claim, none) := by
    rw [hphase]
    rfl
  cases answer with
  | error thrown => exact inv_finish (hcore.note diff _) (hrec.note hpend _ diff) _
  | ok _ =>
    have hwaits := h.waits
    rw [hphase] at hwaits
    have hzero : s.rounds = 0 := hwaits
    apply inv_startRound (hcore.note diff _)
    · change s.phase.mayHaveLanded = false
      rw [hphase]
      rfl
    · change s.rounds ≤ _
      omega
    · exact hrec.note hpend _ diff

lemma Inv.implementAnswered (h : Inv deps s) (hphase : s.phase = .implementing)
    (answer : Except Thrown TicketImplementOutcome) (diff : Option WorktreeDiffStat) :
    Inv deps ((s.hear (.implemented answer)).implementAnswered deps diff answer) := by
  have hrec := h.recorded (by simp [hphase])
  have hcore := h.core.hear (.implemented answer)
  have hopen : s.phase.mayHaveLanded = false := by
    rw [hphase]
    rfl
  have hpend : s.phase.pending s.rounds = some (.implement, some s.rounds) := by
    rw [hphase]
    rfl
  cases answer with
  | error thrown =>
    simp only [State.implementAnswered, State.implementFailed]
    cases hdec : (s.hear (.implemented (.error thrown))).decide thrown with
    | park failureClass reason retriesUsed classRetriesUsed evidence =>
      exact inv_finish (hcore.note diff _) (hrec.note hpend _ diff) _
    | retry failureClass shape retriesUsed classRetriesUsed instruction evidence =>
      obtain ⟨hused, hlim, _, _⟩ := decideWorkerFailureRetry_retry hdec
      have hcounted : retriesUsed = s.failureRetriesUsed + 1 := hused
      have hbound := h.core.rounds
      apply inv_startRound
      · exact (hcore.note diff _).retried hcounted hlim
      · exact hopen
      · change s.rounds ≤ deps.budget + retriesUsed
        omega
      · exact hrec.note hpend _ diff
  | ok implemented =>
    have hnoted : AllNoted ((s.hear (.implemented (.ok implemented))).noteImplemented diff
        implemented) := hrec.note hpend _ diff
    simp only [State.implementAnswered]
    split_ifs with hcanc
    · exact inv_finish (hcore.note diff _) hnoted _
    · obtain ⟨before, handoff, hhist⟩ : ∃ before handoff,
          s.history = before ++ [.asked (.implement handoff s.rounds)] := by
        have hwaits := h.waits
        rw [hphase] at hwaits
        exact hwaits
      apply inv_ask
      · apply (hcore.note diff _).ask
        · trivial
        · rfl
        · rfl
        · exact fun _ => hopen
      · refine ⟨before, handoff, implemented, ?_, hcanc⟩
        change (s.history ++ _) ++ _ = _
        rw [hhist]
        simp [State.noteImplemented, State.note, State.hear]
      · exact hnoted.ask rfl
      · simp [Phase.pending]

lemma Inv.gateAnswered (h : Inv deps s) (hphase : s.phase = .gating)
    (answer : Except Thrown TicketGateRun) (diff : Option WorktreeDiffStat) :
    Inv deps ((s.hear (.gated answer)).gateAnswered deps diff answer) := by
  have hrec := h.recorded (by simp [hphase])
  have hcore := h.core.hear (.gated answer)
  have hopen : s.phase.mayHaveLanded = false := by
    rw [hphase]
    rfl
  have hpend : s.phase.pending s.rounds = some (.gate, some s.rounds) := by
    rw [hphase]
    rfl
  cases answer with
  | error thrown => exact inv_reject h.core rfl
  | ok run =>
    have hnotedC : Core deps ((s.hear (.gated (.ok run))).noteGate diff run) := { hcore with }
    have hnoted : AllNoted ((s.hear (.gated (.ok run))).noteGate diff run) :=
      @Recorded.note s hrec {
        stage := .gate
        ok := (gateVerdict run.stages).ok
        round := s.rounds
        detail := gateDetail (gateVerdict run.stages) run.detail } hpend (.gated (.ok run)) diff
    simp only [State.gateAnswered, State.gateNoted]
    split_ifs with hok hspent
    · obtain ⟨before, handoff, implemented, hhist, hcanc⟩ :
          ∃ before handoff implemented, s.history = before ++
            [.asked (.implement handoff s.rounds), .answered (.implemented (.ok implemented)),
              .asked (.gate s.rounds)] ∧ implemented.stopReason ≠ .cancelled := by
        have hwaits := h.waits
        rw [hphase] at hwaits
        exact hwaits
      have hgat : Gated (s.history ++ [.answered (.gated (.ok run))]) := by
        refine ⟨before, handoff, s.rounds, implemented, run, ?_, hcanc, hok⟩
        rw [hhist]
        simp
      apply inv_ask
      · apply hnotedC.ask
        · exact hgat
        · rfl
        · rfl
        · exact fun _ => hopen
      · exact ⟨_, hgat, rfl⟩
      · exact hnoted.ask rfl
      · simp [Phase.pending]
    · exact inv_finish hnotedC hnoted _
    · apply inv_startRound
      · exact { hnotedC with }
      · exact hopen
      · change s.rounds ≤ deps.budget + s.failureRetriesUsed
        change ¬deps.budget < s.rounds at hspent
        omega
      · exact hnoted

lemma inv_askLand (h : Core deps s)
    (hopen : s.phase.mayHaveLanded = false) (hjudg : Judged deps s.history publication)
    (hrec : ∀ call, .asked call ∈ s.history →
      Noted s.records call ∨ (call.stage, call.round) = (.land, none)) :
    Inv deps (s.askLand deps publication) := by
  apply inv_ask (h.askLand hopen hjudg)
  · trivial
  · intro call hcall
    rcases mem_append.mp hcall with hmem | hlast
    · rcases hrec call hmem with hnoted | hland
      · exact .inl hnoted
      · exact .inr (congrArg some hland.symm)
    · injection mem_singleton.mp hlast with hsame
      subst hsame
      exact .inr rfl
  · simp [Phase.pending]

lemma Inv.publishAnswered (h : Inv deps s) (hphase : s.phase = .publishing)
    (answer : Except Thrown (Option WorkerPublishOutcome)) (diff : Option WorktreeDiffStat) :
    Inv deps ((s.hear (.published answer)).publishAnswered deps diff answer) := by
  have hrec := h.recorded (by simp [hphase])
  have hcore := h.core.hear (.published answer)
  have hopen : s.phase.mayHaveLanded = false := by
    rw [hphase]
    rfl
  have hpend : s.phase.pending s.rounds = some (.publish, none) := by
    rw [hphase]
    rfl
  cases answer with
  | error thrown => exact inv_reject h.core rfl
  | ok outcome =>
    cases outcome with
    | none => exact inv_finish (hcore.note diff _) (hrec.note hpend _ diff) _
    | some outcome =>
      cases outcome with
      | refused publication detail =>
        exact inv_finish (hcore.note diff _) (hrec.note hpend _ diff) _
      | requested publication =>
        obtain ⟨before, hgat, hhist⟩ :
            ∃ before, Gated before ∧ s.history = before ++ [.asked .publishTurn] := by
          have hwaits := h.waits
          rw [hphase] at hwaits
          exact hwaits
        have hpubl : Published
            (s.history ++ [.answered (.published (.ok (some (.requested publication))))])
            publication := by
          refine ⟨before, hgat, ?_⟩
          rw [hhist]
          simp
        have hnoted := @Recorded.note s hrec {
          stage := .publish
          ok := true
          detail := publicationDetail publication } hpend
            (.published (.ok (some (.requested publication)))) diff
        simp only [State.publishAnswered, State.published]
        split_ifs with hcounters
        · apply inv_ask
          · apply (hcore.note diff _).ask
            · trivial
            · rfl
            · rfl
            · exact fun _ => hopen
          · exact ⟨_, hpubl, rfl, hcounters⟩
          · exact hnoted.ask rfl
          · simp [Phase.pending]
        · apply inv_askLand (hcore.note diff _) hopen
          · rw [Judged, if_neg hcounters]
            exact hpubl
          · exact fun call hcall => .inl (hnoted call hcall)

lemma Inv.judgeAnswered (h : Inv deps s)
    (hphase : s.phase = .judging publication) (answer : Except Thrown LandCountersignDecision)
    (diff : Option WorktreeDiffStat) :
    Inv deps ((s.hear (.judged answer)).judgeAnswered deps diff publication answer) := by
  have hrec := h.recorded (by simp [hphase])
  have hcore := h.core.hear (.judged answer)
  have hopen : s.phase.mayHaveLanded = false := by
    rw [hphase]
    rfl
  have hpend : s.phase.pending s.rounds = some (.land, none) := by
    rw [hphase]
    rfl
  cases answer with
  | error thrown => exact inv_reject h.core rfl
  | ok decision =>
    cases decision with
    | refused message => exact inv_finish (hcore.note diff _) (hrec.note hpend _ diff) _
    | allowed =>
      obtain ⟨before, hpubl, hhist, hcounters⟩ : ∃ before, Published before publication ∧
            s.history = before ++ [.asked (.check publication.commit
              (resolveVerifyRequirement deps.ticket.labels))] ∧
            deps.countersigned = true := by
        have hwaits := h.waits
        rw [hphase] at hwaits
        exact hwaits
      apply inv_askLand hcore hopen
      · rw [Judged, if_pos hcounters]
        refine ⟨before, hpubl, ?_⟩
        change s.history ++ _ = _
        rw [hhist]
        simp
      · intro call hcall
        rcases mem_append.mp hcall with hmem | hlast
        · rcases hrec call hmem with hnoted | hcurr
          · exact .inl hnoted
          · rw [hpend] at hcurr
            exact .inr (Option.some.inj hcurr).symm
        · exact absurd (mem_singleton.mp hlast) (by simp)

lemma Inv.landAnswered (h : Inv deps s)
    (hphase : s.phase = .landing publication) (answer : Except Thrown (Option ℤ))
    (diff : Option WorktreeDiffStat) :
    Inv deps ((s.hear (.landed answer)).landAnswered diff publication answer) := by
  have hrec := h.recorded (by simp [hphase])
  have hcore := h.core.hear (.landed answer)
  have hpend : s.phase.pending s.rounds = some (.land, none) := by
    rw [hphase]
    rfl
  cases answer with
  | error thrown => exact inv_finish (hcore.note diff _) (hrec.note hpend _ diff) _
  | ok answer =>
    simp only [State.landAnswered]
    cases State.pullRequestNumber answer with
    | error detail => exact inv_finish (hcore.note diff _) (hrec.note hpend _ diff) _
    | ok pullRequest =>
      exact inv_finish (hcore.note diff _) (hrec.note hpend _ diff) _

lemma inv_next (h : Inv deps s) (hnext : s.next deps step = some s') : Inv deps s' := by
  unfold State.next at hnext
  split at hnext
  · next answer hphase _ =>
      cases hnext
      exact h.claimAnswered hphase answer step.diff
  · next answer hphase _ =>
      cases hnext
      exact h.implementAnswered hphase answer step.diff
  · next answer hphase _ =>
      cases hnext
      exact h.gateAnswered hphase answer step.diff
  · next answer hphase _ =>
      cases hnext
      exact h.publishAnswered hphase answer step.diff
  · next publication answer hphase _ =>
      cases hnext
      exact h.judgeAnswered hphase answer step.diff
  · next publication answer hphase _ =>
      cases hnext
      exact h.landAnswered hphase answer step.diff
  · cases hnext

def Phase.ended : Phase → Bool
  | .returned _ _ => true
  | .rejected _ => true
  | _ => false

def Phase.awaits : Phase → Answer → Bool
  | .claiming, .claimed _ => true
  | .implementing, .implemented _ => true
  | .gating, .gated _ => true
  | .publishing, .published _ => true
  | .judging _, .judged _ => true
  | .landing _, .landed _ => true
  | _, _ => false

lemma next_of_awaits (h : s.phase.awaits step.answer = true) :
    ∃ s', s.next deps step = some s' := by
  unfold State.next
  cases hphase : s.phase <;> cases hansw : step.answer <;>
    first
    | exact ⟨_, rfl⟩
    | simp [hphase, hansw, Phase.awaits] at h

lemma exists_awaits (h : s.phase.ended = false) : ∃ answer, s.phase.awaits answer = true := by
  cases hphase : s.phase with
  | claiming => exact ⟨.claimed (.ok ()), rfl⟩
  | implementing => exact ⟨.implemented (.ok ⟨.endTurn, none⟩), rfl⟩
  | gating => exact ⟨.gated (.ok ⟨[], none⟩), rfl⟩
  | publishing => exact ⟨.published (.ok none), rfl⟩
  | judging publication => exact ⟨.judged (.ok .allowed), rfl⟩
  | landing publication => exact ⟨.landed (.ok none), rfl⟩
  | returned outcome records => simp [hphase, Phase.ended] at h
  | rejected thrown => simp [hphase, Phase.ended] at h

/-- How many answers there are at most after this phase, without another round. -/
def Phase.weight : Phase → ℕ
  | .claiming => 6
  | .implementing => 5
  | .gating => 4
  | .publishing => 3
  | .judging _ => 2
  | .landing _ => 1
  | .returned _ _ => 0
  | .rejected _ => 0

/-- How many answers there are at most. -/
def remaining (deps : TicketLoopDeps) (s : State) : ℕ :=
  3 * (deps.budget + 1 + workerFailureGlobalRetryLimit - s.rounds) + s.phase.weight

lemma remaining_lt (weight : ℕ) (hrounds : s'.rounds = s.rounds)
    (hweight : s'.phase.weight = weight) (hlow : weight < s.phase.weight) :
    remaining deps s' < remaining deps s := by
  unfold remaining
  omega

lemma remaining_startRound_lt (hrounds : s'.rounds = s.rounds)
    (hpaid : s.rounds < deps.budget + 1 + workerFailureGlobalRetryLimit)
    (hweight : 4 ≤ s.phase.weight) : remaining deps (s'.startRound deps) < remaining deps s := by
  have hmore : (s'.startRound deps).rounds = s.rounds + 1 := congrArg (· + 1) hrounds
  have hnew : (s'.startRound deps).phase.weight = 5 := rfl
  unfold remaining
  omega

lemma remaining_next (h : Inv deps s)
    (hnext : s.next deps step = some s') : remaining deps s' < remaining deps s := by
  have hbound := h.core.rounds
  have hretr := h.core.retries
  unfold State.next at hnext
  split at hnext
  · next answer hphase _ =>
      cases hnext
      have hweight : s.phase.weight = 6 := by rw [hphase]; rfl
      have hwaits := h.waits
      rw [hphase] at hwaits
      have hzero : s.rounds = 0 := hwaits
      cases answer with
      | error thrown => exact remaining_lt 0 rfl rfl (by omega)
      | ok _ => exact remaining_startRound_lt rfl (by omega) (by omega)
  · next answer hphase _ =>
      cases hnext
      have hweight : s.phase.weight = 5 := by rw [hphase]; rfl
      cases answer with
      | error thrown =>
        simp only [State.implementAnswered, State.implementFailed]
        cases hdec : (s.hear (.implemented (.error thrown))).decide thrown with
        | park => exact remaining_lt 0 rfl rfl (by omega)
        | retry =>
          obtain ⟨hused, hlim, _, _⟩ := decideWorkerFailureRetry_retry hdec
          change _ = s.failureRetriesUsed + 1 at hused
          exact remaining_startRound_lt rfl (by omega) (by omega)
      | ok implemented =>
        simp only [State.implementAnswered]
        split_ifs
        · exact remaining_lt 0 rfl rfl (by omega)
        · exact remaining_lt 4 rfl rfl (by omega)
  · next answer hphase _ =>
      cases hnext
      have hweight : s.phase.weight = 4 := by rw [hphase]; rfl
      cases answer with
      | error thrown => exact remaining_lt 0 rfl rfl (by omega)
      | ok run =>
        simp only [State.gateAnswered, State.gateNoted]
        split_ifs with hok hspent
        · exact remaining_lt 3 rfl rfl (by omega)
        · exact remaining_lt 0 rfl rfl (by omega)
        · change ¬deps.budget < s.rounds at hspent
          exact remaining_startRound_lt rfl (by omega) (by omega)
  · next answer hphase _ =>
      cases hnext
      have hweight : s.phase.weight = 3 := by rw [hphase]; rfl
      cases answer with
      | error thrown => exact remaining_lt 0 rfl rfl (by omega)
      | ok outcome =>
        cases outcome with
        | none => exact remaining_lt 0 rfl rfl (by omega)
        | some outcome =>
          cases outcome with
          | refused publication detail => exact remaining_lt 0 rfl rfl (by omega)
          | requested publication =>
            simp only [State.publishAnswered, State.published]
            split_ifs
            · exact remaining_lt 2 rfl rfl (by omega)
            · exact remaining_lt 1 rfl rfl (by omega)
  · next publication answer hphase _ =>
      cases hnext
      have hweight : s.phase.weight = 2 := by rw [hphase]; rfl
      cases answer with
      | error thrown => exact remaining_lt 0 rfl rfl (by omega)
      | ok decision =>
        cases decision with
        | refused message => exact remaining_lt 0 rfl rfl (by omega)
        | allowed => exact remaining_lt 1 rfl rfl (by omega)
  · next publication answer hphase _ =>
      cases hnext
      have hweight : s.phase.weight = 1 := by rw [hphase]; rfl
      cases answer with
      | error thrown => exact remaining_lt 0 rfl rfl (by omega)
      | ok answer =>
        simp only [State.landAnswered]
        cases State.pullRequestNumber answer with
        | error detail => exact remaining_lt 0 rfl rfl (by omega)
        | ok pullRequest => exact remaining_lt 0 rfl rfl (by omega)
  · cases hnext

end

/-- What holds after a run. -/
structure TicketRun (deps : TicketLoopDeps) (steps : List Step) (s : State) : Prop where
  gated : ∀ before after, s.history = before ++ Event.asked .publishTurn :: after → Gated before
  judged : ∀ before request after, s.history = before ++ Event.asked (.land request) :: after →
    ∃ publication, Judged deps before publication ∧ request.commit = publication.commit ∧
      request.branch = publication.branch
  once : s.history.countP isLand ≤ 1
  implements : s.history.countP isImplement ≤ deps.budget + 1 + workerFailureGlobalRetryLimit
  ends : steps.length ≤ 3 * (deps.budget + 1 + workerFailureGlobalRetryLimit) + 6
  goesOn : s.phase.ended = false → (∃ answer, s.phase.awaits answer = true) ∧
    ∀ step : Step, s.phase.awaits step.answer = true → ∃ s', s.next deps step = some s'
  returns : ∀ outcome records, s.phase = .returned outcome records →
    ∀ call, .asked call ∈ s.history → Noted records call
  throws : ∀ thrown, s.phase = .rejected thrown →
    ∃ before answer, s.history = before ++ [Event.answered answer] ∧ answer.Throws thrown

section
variable {deps : TicketLoopDeps} {s₀ s : State} {steps : List Step}

lemma inv_of_start (h : (ticketLoop deps).start s₀) : Inv deps s₀ := by
  obtain ⟨diff, rfl⟩ := h
  exact inv_begin deps diff

/-- Every run of the loop keeps its order, lands once at most and stays within the budget. -/
theorem ticket_run (hstart : (ticketLoop deps).start s₀)
    (hrun : (ticketLoop deps).Run anyStep s₀ steps s) : TicketRun deps steps s := by
  have hinv₀ := inv_of_start hstart
  have hinv : Inv deps s :=
    hrun.inv (Inv deps) (fun _ _ _ hinv _ hnext => inv_next hinv hnext) hinv₀
  have hlength := hrun.length_add_le (Inv deps) (remaining deps)
    (fun _ _ _ hinv _ hnext => inv_next hinv hnext)
    (fun _ _ _ hinv _ hnext => remaining_next hinv hnext) hinv₀
  have hcore := hinv.core
  constructor
  · exact fun before after hspl => hcore.ordered before .publishTurn after hspl
  · exact fun before request after hspl => hcore.ordered before (.land request) after hspl
  · exact hcore.lands
  · have hcount := hcore.implements
    have hrounds := hcore.rounds
    have hretr := hcore.retries
    omega
  · have hweight : s₀.phase.weight ≤ 6 := by
      cases s₀.phase <;> simp [Phase.weight]
    unfold remaining at hlength
    omega
  · exact fun hopen => ⟨exists_awaits hopen, fun step hstep => next_of_awaits hstep⟩
  · intro outcome records hphase call hcall
    have hrec := hinv.recorded (by simp [hphase])
    rcases hrec call hcall with hnoted | hpend
    · exact hinv.returned outcome records hphase ▸ hnoted
    · rw [hphase] at hpend
      cases hpend
  · exact hinv.rejected

end

section

def fixTicket : TicketLoopTicket where
  number := 7
  title := "Fix".toList
  labels := []
  base := "main".toList
  handoff := "## Acceptance criteria\n\n- the test passes".toList

def countersignedDeps : TicketLoopDeps where
  ticket := fixTicket
  sessionId := "s".toList
  claimComment := "claimed".toList
  reseedBudget := some 2
  countersigned := true

def broken : Thrown := ⟨"broken".toList, .unknown⟩

def passed : Answer := .gated (.ok ⟨[⟨.feedback, true, false⟩], none⟩)

def blocked : Answer := .gated (.ok ⟨[⟨.feedback, false, false⟩], none⟩)

def fixed : WorkerPublication := ⟨"red/w/7".toList, "c0ffee".toList⟩

def landingSteps : List Step :=
  [.claimed (.ok ()), .implemented (.error broken), .implemented (.ok ⟨.endTurn, none⟩), blocked,
    .implemented (.ok ⟨.endTurn, none⟩), passed, .published (.ok (some (.requested fixed))),
    .judged (.ok .allowed), .landed (.ok (some 12))].map fun answer => ⟨answer, none⟩

def outcomeOf (s : State) : Option (ℤ × ℕ) :=
  match s.phase with
  | .returned (.landed _ pullRequest rounds) _ => some (pullRequest, rounds)
  | _ => none

theorem third_round_lands :
    ∃ s, outcomeOf s = some (12, 3) ∧ TicketRun countersignedDeps landingSteps s := by
  have hrun : ((ticketLoop countersignedDeps).exec (State.begin countersignedDeps none)
      landingSteps).map outcomeOf = some (some (12, 3)) := by
    decide +kernel
  obtain ⟨s, hexec, houtc⟩ := Option.map_eq_some_iff.mp hrun
  exact ⟨s, houtc, ticket_run ⟨none, rfl⟩ (Machine.run_of_exec hexec)⟩

def rejectedOf (s : State) : Option Text :=
  match s.phase with
  | .rejected thrown => some thrown.message
  | _ => none

/-- The gate throws, and so does the run. -/
theorem gate_throws :
    ¬ ∀ s, (ticketLoop countersignedDeps).Reach anyStep s → ∀ thrown, s.phase ≠ .rejected thrown := by
  intro hall
  have hrun : ((ticketLoop countersignedDeps).exec (State.begin countersignedDeps none)
      [⟨.claimed (.ok ()), none⟩, ⟨.implemented (.ok ⟨.endTurn, none⟩), none⟩,
        ⟨.gated (.error broken), none⟩]).map rejectedOf = some (some "broken".toList) := by
    decide +kernel
  obtain ⟨s, hexec, hrej⟩ := Option.map_eq_some_iff.mp hrun
  have hreach := Machine.reach_of_exec (M := ticketLoop countersignedDeps) ⟨none, rfl⟩ hexec
  cases hphase : s.phase with
  | rejected thrown => exact hall s hreach thrown hphase
  | _ => simp [rejectedOf, hphase] at hrej

end

end Redskilled.Acp.TicketLoop
