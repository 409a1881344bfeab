import Redskilled.Foundation.Machine
import Redskilled.Foundation.JsText

/-!
# The takeover handshake

An incumbent that is to be replaced starts its successor and listens on a private socket. The
successor connects, writes a token as one line and waits for a line. Once the incumbent has
read the token it flushes, stops serving, and writes `commit` and exits; where its stop fails
it writes `abort` and stays. The successor serves on `commit`, and ends on anything else.

Each of the two has a deadline. The incumbent clears its own when it has read the token; that
of the successor runs on until it has read a line. What is written arrives in order, in chunks
of any length.
-/
namespace Redskilled.Update.Takeover
open Foundation List

def takeoverHandshakeMs : ℕ := 30000

/-- Where the incumbent stands in `replaceWithViableSuccessor`. -/
inductive Incumbent where
  /-- The successor is started, and `line` is read of what it writes. -/
  | staging (deadline : ℕ) (line : Text)
  /-- The handshake failed, and the incumbent stays live. -/
  | refused
  | flushing
  | flushingRegistration
  | stopping
  | stopFailed
  | exited
  deriving DecidableEq

/-- Where the successor stands in `awaitRedskilledTakeoverCommit`. -/
inductive Successor where
  | booting
  | connecting (deadline : ℕ)
  | waiting (deadline : ℕ) (line : Text)
  | serving
  | gone
  deriving DecidableEq

def Successor.isWaiting : Successor → Bool
  | .waiting _ _ => true
  | _ => false

structure State where
  now : ℕ
  incumbent : Incumbent
  successor : Successor
  /-- What is written and not yet read, in the two directions. -/
  toIncumbent : Text
  toSuccessor : Text
  /-- The incumbent has closed its side, behind what it wrote. -/
  ended : Bool
  listening : Bool
  /-- `SIGTERM` is sent to the successor. -/
  signalled : Bool
  /-- Whether the successor was waiting when `commit` was sent. -/
  committedTo : Option Bool

inductive Step where
  | tick (ms : ℕ)
  | boot
  | connect
  | successorDeadline
  | successorExits
  | successorReads (n : ℕ)
  | successorClosed
  | successorKilled
  | incumbentReads (n : ℕ)
  | incumbentDeadline
  | childExit
  | peerLost
  | flushed
  | registrationFlushed
  | stopped (ok : Bool)

/-- `line.slice(0, line.indexOf("\n"))`. -/
def firstLine (line : Text) : Text := line.takeWhile (· ≠ '\n')

def commitLine : Text := ['c', 'o', 'm', 'm', 'i', 't']
def abortLine : Text := ['a', 'b', 'o', 'r', 't']

section
variable (token : Text) (s : State)

def fail : State :=
  { s with incumbent := .refused, ended := true, listening := false, signalled := true }

def verdict (line : Text) (incumbent : Incumbent) : State :=
  { s with incumbent, toSuccessor := s.toSuccessor ++ line ++ ['\n'], ended := true, listening := false }

def incumbentReads (deadline : ℕ) (line : Text) (n : ℕ) : State :=
  let read := line ++ s.toIncumbent.take n
  let s := { s with toIncumbent := s.toIncumbent.drop n }
  if '\n' ∉ read then { s with incumbent := .staging deadline read }
  else if firstLine read ≠ token then fail s
  else { s with incumbent := .flushing }

def successorReads (deadline : ℕ) (line : Text) (n : ℕ) : State :=
  let read := line ++ s.toSuccessor.take n
  let s := { s with toSuccessor := s.toSuccessor.drop n }
  if '\n' ∉ read then { s with successor := .waiting deadline read }
  else if firstLine read = commitLine then { s with successor := .serving }
  else { s with successor := .gone }

def next : Step → Option State
  | .tick ms => some { s with now := s.now + ms }
  | .boot =>
    match s.successor with
    | .booting => some { s with successor := .connecting (s.now + takeoverHandshakeMs) }
    | _ => none
  | .connect =>
    match s.successor with
    | .connecting deadline =>
      if s.listening then
        some { s with successor := .waiting deadline [], toIncumbent := token ++ ['\n'] }
      else some { s with successor := .gone }
    | _ => none
  | .successorDeadline =>
    match s.successor with
    | .connecting deadline | .waiting deadline _ =>
      if deadline ≤ s.now then some { s with successor := .gone } else none
    | _ => none
  | .successorExits =>
    match s.successor with
    | .booting | .connecting _ | .waiting _ _ => some { s with successor := .gone }
    | _ => none
  | .successorReads n =>
    match s.successor with
    | .waiting deadline line =>
      if 0 < n ∧ n ≤ s.toSuccessor.length then some (successorReads s deadline line n) else none
    | _ => none
  | .successorClosed =>
    match s.successor with
    | .waiting _ _ =>
      if s.ended ∧ s.toSuccessor = [] then some { s with successor := .gone } else none
    | _ => none
  | .successorKilled => if s.signalled then some { s with successor := .gone } else none
  | .incumbentReads n =>
    match s.incumbent with
    | .staging deadline line =>
      if 0 < n ∧ n ≤ s.toIncumbent.length then some (incumbentReads token s deadline line n)
      else none
    | _ => none
  | .incumbentDeadline =>
    match s.incumbent with
    | .staging deadline _ => if deadline ≤ s.now then some (fail s) else none
    | _ => none
  | .childExit | .peerLost =>
    match s.incumbent with
    | .staging _ _ => if s.successor = .gone then some (fail s) else none
    | _ => none
  | .flushed => if s.incumbent = .flushing then some { s with incumbent := .flushingRegistration } else none
  | .registrationFlushed =>
    if s.incumbent = .flushingRegistration then some { s with incumbent := .stopping } else none
  | .stopped ok =>
    if s.incumbent = .stopping then
      some (if ok then
        { verdict s commitLine .exited with committedTo := some s.successor.isWaiting }
      else { verdict s abortLine .stopFailed with signalled := true })
    else none

end

structure Start (s : State) : Prop where
  incumbent : s.incumbent = .staging (s.now + takeoverHandshakeMs) []
  successor : s.successor = .booting
  toIncumbent : s.toIncumbent = []
  toSuccessor : s.toSuccessor = []
  ended : s.ended = false
  listening : s.listening = true
  signalled : s.signalled = false
  committedTo : s.committedTo = none

def takeover (token : Text) : Machine State Step where
  start := Start
  next := next token

/-- The successor has neither timed out nor exited when the stop completes, and does neither
once `commit` is on its way. -/
def Steady (s : State) : Step → Prop
  | .stopped true => s.successor ≠ .gone
  | .successorDeadline | .successorExits => s.incumbent ≠ .exited
  | _ => True

def GoesOn (token : Text) (s : State) : Prop :=
  s.successor = .serving ∨ ∃ n t, next token s (.successorReads n) = some t ∧ t.successor = .serving

structure HandedOver (token : Text) (s : State) : Prop where
  afterStop : s.successor = .serving → s.incumbent = .exited
  stopFailed : s.incumbent = .stopFailed → s.successor ≠ .serving
  committed : s.incumbent = .exited → s.committedTo = some true ∧ GoesOn token s

def sent : Incumbent → Text
  | .exited => commitLine ++ ['\n']
  | .stopFailed => abortLine ++ ['\n']
  | _ => []

/-- The successor has read a front of what was sent, and serves on `commit` only. Until it
has connected the incumbent reads nothing. -/
def Agrees (incumbent : Incumbent) (toIncumbent toSuccessor : Text) : Successor → Prop
  | .booting | .connecting _ =>
    toIncumbent = [] ∧ toSuccessor = [] ∧
      ((∃ deadline, incumbent = .staging deadline []) ∨ incumbent = .refused)
  | .waiting _ line => '\n' ∉ line ∧ line ++ toSuccessor = sent incumbent
  | .serving => incumbent = .exited
  | .gone => True

structure Inv (s : State) : Prop where
  agrees : Agrees s.incumbent s.toIncumbent s.toSuccessor s.successor
  signalled : s.signalled = true → s.incumbent = .refused ∨ s.incumbent = .stopFailed

section
variable {token : Text} {s t : State}

variable {deadline n : ℕ} {incumbent : Incumbent} {line : Text}

lemma Inv.waiting (h : Inv s) (hs : s.successor = .waiting deadline line) :
    '\n' ∉ line ∧ line ++ s.toSuccessor = sent s.incumbent := by
  have hagr := h.agrees
  rw [hs] at hagr
  exact hagr

lemma Inv.serving (h : Inv s) (hs : s.successor = .serving) : s.incumbent = .exited := by
  have hagr := h.agrees
  rw [hs] at hagr
  exact hagr

lemma Inv.past (h : Inv s) (hpast : ∀ deadline, s.incumbent ≠ .staging deadline [])
    (hrefus : s.incumbent ≠ .refused) (hexit : s.incumbent ≠ .exited) :
    s.successor.isWaiting = true ∨ s.successor = .gone := by
  have hagr := h.agrees
  cases hs : s.successor with
  | waiting deadline line => exact .inl rfl
  | gone => exact .inr rfl
  | serving => exact absurd (h.serving hs) hexit
  | booting =>
    rw [hs] at hagr
    rcases hagr.2.2 with ⟨d, hstag⟩ | href
    · exact absurd hstag (hpast d)
    · exact absurd href hrefus
  | connecting deadline =>
    rw [hs] at hagr
    rcases hagr.2.2 with ⟨d, hstag⟩ | href
    · exact absurd hstag (hpast d)
    · exact absurd href hrefus

lemma agrees_write {successor : Successor} {incumbent' : Incumbent}
    {toIncumbent toIncumbent' toSuccessor written : Text}
    (h : Agrees incumbent toIncumbent toSuccessor successor)
    (hstarted : successor.isWaiting = true ∨ successor = .gone)
    (hsent : sent incumbent' = sent incumbent ++ written) :
    Agrees incumbent' toIncumbent' (toSuccessor ++ written) successor := by
  cases successor with
  | waiting deadline line =>
    obtain ⟨hline, hread⟩ := h
    refine ⟨hline, ?_⟩
    rw [← append_assoc, hread, hsent]
  | gone => trivial
  | _ => rcases hstarted with hs | hs <;> cases hs

lemma Inv.fail (h : Inv s) (hs : s.incumbent = .staging deadline line) : Inv (fail s) := by
  constructor
  · have hagr := h.agrees
    rw [hs] at hagr
    change Agrees .refused s.toIncumbent s.toSuccessor s.successor
    cases hsucc : s.successor with
    | waiting d l => rw [hsucc] at hagr; exact hagr
    | gone => trivial
    | serving => rw [hsucc] at hagr; cases hagr
    | booting => rw [hsucc] at hagr; exact ⟨hagr.1, hagr.2.1, .inr rfl⟩
    | connecting d => rw [hsucc] at hagr; exact ⟨hagr.1, hagr.2.1, .inr rfl⟩
  · exact fun _ => .inl rfl

lemma Inv.started (h : Inv s) (hread : s.toIncumbent ≠ []) (hexit : s.incumbent ≠ .exited) :
    s.successor.isWaiting = true ∨ s.successor = .gone := by
  have hagr := h.agrees
  cases hs : s.successor with
  | waiting deadline line => exact .inl rfl
  | gone => exact .inr rfl
  | serving => exact absurd (h.serving hs) hexit
  | booting => rw [hs] at hagr; exact absurd hagr.1 hread
  | connecting deadline => rw [hs] at hagr; exact absurd hagr.1 hread

lemma Inv.incumbentReads (h : Inv s)
    (hs : s.incumbent = .staging deadline line) (hn : 0 < n ∧ n ≤ s.toIncumbent.length) :
    Inv (incumbentReads token s deadline line n) := by
  have hstarted : s.successor.isWaiting = true ∨ s.successor = .gone := by
    apply h.started
    · intro hnil
      rw [hnil, length_nil] at hn
      omega
    · rw [hs]
      rintro ⟨⟩
  have hmov : ∀ incumbent, sent incumbent = [] →
      Agrees incumbent (s.toIncumbent.drop n) s.toSuccessor s.successor := by
    intro incumbent hsent
    have hwrite : Agrees incumbent (s.toIncumbent.drop n) (s.toSuccessor ++ []) s.successor :=
      agrees_write h.agrees hstarted (by rw [hsent, hs]; rfl)
    rwa [append_nil] at hwrite
  have hquiet : s.signalled = false := by
    apply Bool.eq_false_iff.mpr
    intro hon
    rcases h.signalled hon with hi | hi
    · rw [hs] at hi
      cases hi
    · rw [hs] at hi
      cases hi
  unfold Takeover.incumbentReads
  dsimp only
  split_ifs
  · exact ⟨hmov _ rfl, fun _ => .inl rfl⟩
  · exact ⟨hmov _ rfl, fun hon => absurd hon (by simp [hquiet])⟩
  · exact ⟨hmov _ rfl, fun hon => absurd hon (by simp [hquiet])⟩

lemma firstLine_append {read : Text} (h : '\n' ∈ read) (rest : Text) :
    firstLine (read ++ rest) = firstLine read := by
  unfold firstLine
  rw [takeWhile_append, if_neg]
  intro hlength
  have hall : read.takeWhile (· ≠ '\n') = read :=
    (List.takeWhile_prefix _).eq_of_length hlength
  have hnone := takeWhile_eq_self_iff.mp hall '\n' h
  simp at hnone

/-- A line that has arrived is `commit` where the incumbent has exited, and nowhere else. -/
lemma firstLine_sent {read rest : Text} (hread : '\n' ∈ read)
    (h : read ++ rest = sent incumbent) : firstLine read = commitLine ↔ incumbent = .exited := by
  have hempty : sent incumbent ≠ [] := by
    intro hnil
    rw [hnil, append_eq_nil_iff] at h
    rw [h.1] at hread
    cases hread
  rw [← firstLine_append hread rest, h]
  cases incumbent with
  | exited => decide
  | stopFailed => decide
  | _ => exact absurd rfl hempty

lemma Inv.successorReads (h : Inv s)
    (hs : s.successor = .waiting deadline line) : Inv (successorReads s deadline line n) := by
  have hwhole : line ++ s.toSuccessor.take n ++ s.toSuccessor.drop n = sent s.incumbent := by
    rw [append_assoc, take_append_drop]
    exact (h.waiting hs).2
  unfold Takeover.successorReads
  dsimp only
  split_ifs with hnewl hcomm
  · exact ⟨(firstLine_sent hnewl hwhole).mp hcomm, h.signalled⟩
  · exact ⟨trivial, h.signalled⟩
  · exact ⟨⟨hnewl, hwhole⟩, h.signalled⟩

lemma Inv.flushed (h : Inv s) (hold : sent s.incumbent = [])
    (hnew : sent incumbent = []) (hstarted : s.successor.isWaiting = true ∨ s.successor = .gone)
    (hquiet : s.signalled = false) : Inv { s with incumbent } := by
  constructor
  · have hwrite : Agrees incumbent s.toIncumbent (s.toSuccessor ++ []) s.successor :=
      agrees_write h.agrees hstarted (by rw [hold, hnew]; rfl)
    rwa [append_nil] at hwrite
  · exact fun hon => absurd hon (by simp [hquiet])

lemma Inv.stopped (h : Inv s) (hs : s.incumbent = .stopping)
    (hsent : sent incumbent = line ++ ['\n']) :
    Agrees incumbent s.toIncumbent (s.toSuccessor ++ line ++ ['\n']) s.successor := by
  have hstarted : s.successor.isWaiting = true ∨ s.successor = .gone := by
    apply h.past <;> simp [hs]
  rw [append_assoc]
  apply agrees_write h.agrees hstarted
  rw [hsent, hs]
  rfl

lemma Inv.step (h : Inv s) {a : Step} (hn : next token s a = some t) : Inv t := by
  have hquiet : s.incumbent ≠ .refused → s.incumbent ≠ .stopFailed → s.signalled = false := by
    intro hrefus hfail
    apply Bool.eq_false_iff.mpr
    intro hon
    exact (h.signalled hon).elim hrefus hfail
  cases a with
  | tick ms =>
    cases hn
    exact ⟨h.agrees, h.signalled⟩
  | boot =>
    simp only [next] at hn
    split at hn
    · next hs =>
        cases hn
        have hagr := h.agrees
        rw [hs] at hagr
        exact ⟨hagr, h.signalled⟩
    · cases hn
  | connect =>
    simp only [next] at hn
    split at hn
    · next deadline hs =>
        have hagr := h.agrees
        rw [hs] at hagr
        split_ifs at hn
        · cases hn
          refine ⟨⟨by simp, ?_⟩, h.signalled⟩
          change [] ++ s.toSuccessor = sent s.incumbent
          rw [hagr.2.1]
          rcases hagr.2.2 with ⟨d, hi⟩ | hi <;> rw [hi] <;> rfl
        · cases hn
          exact ⟨trivial, h.signalled⟩
    · cases hn
  | successorDeadline =>
    simp only [next] at hn
    split at hn
    · split_ifs at hn
      cases hn
      exact ⟨trivial, h.signalled⟩
    · split_ifs at hn
      cases hn
      exact ⟨trivial, h.signalled⟩
    · cases hn
  | successorExits =>
    simp only [next] at hn
    split at hn
    · cases hn
      exact ⟨trivial, h.signalled⟩
    · cases hn
      exact ⟨trivial, h.signalled⟩
    · cases hn
      exact ⟨trivial, h.signalled⟩
    · cases hn
  | successorReads n =>
    simp only [next] at hn
    split at hn
    · next deadline line hs =>
        split_ifs at hn
        cases hn
        exact h.successorReads hs
    · cases hn
  | successorClosed =>
    simp only [next] at hn
    split at hn
    · split_ifs at hn
      cases hn
      exact ⟨trivial, h.signalled⟩
    · cases hn
  | successorKilled =>
    simp only [next] at hn
    split_ifs at hn
    cases hn
    exact ⟨trivial, h.signalled⟩
  | incumbentReads n =>
    simp only [next] at hn
    split at hn
    · next deadline line hs =>
        split_ifs at hn with hlength
        cases hn
        exact h.incumbentReads hs hlength
    · cases hn
  | flushed =>
    simp only [next] at hn
    split_ifs at hn with hs
    cases hn
    apply h.flushed (by rw [hs]; rfl) rfl
    · apply h.past <;> simp [hs]
    · apply hquiet <;> simp [hs]
  | registrationFlushed =>
    simp only [next] at hn
    split_ifs at hn with hs
    cases hn
    apply h.flushed (by rw [hs]; rfl) rfl
    · apply h.past <;> simp [hs]
    · apply hquiet <;> simp [hs]
  | stopped ok =>
    simp only [next] at hn
    split_ifs at hn with hs hok
    · cases hn
      refine ⟨h.stopped hs rfl, fun hon => ?_⟩
      have hoff : s.signalled = false := hquiet (by simp [hs]) (by simp [hs])
      exact absurd hon (by simp [verdict, hoff])
    · cases hn
      exact ⟨h.stopped hs rfl, fun _ => .inr rfl⟩
  | _ =>
    simp only [next] at hn
    split at hn
    · next deadline line hs =>
        split_ifs at hn
        cases hn
        exact h.fail hs
    · cases hn

def Committed (s : State) : Prop :=
  s.incumbent = .exited → s.committedTo = some true ∧ s.successor ≠ .gone

lemma Inv.started_of_exited (h : Inv s) (hi : s.incumbent = .exited) :
    s.successor.isWaiting = true ∨ s.successor = .serving ∨ s.successor = .gone := by
  have hagr := h.agrees
  rw [hi] at hagr
  cases hs : s.successor with
  | waiting deadline line => exact .inl rfl
  | serving => exact .inr (.inl rfl)
  | gone => exact .inr (.inr rfl)
  | booting =>
    rw [hs] at hagr
    rcases hagr.2.2 with ⟨d, hd⟩ | hd <;> cases hd
  | connecting deadline =>
    rw [hs] at hagr
    rcases hagr.2.2 with ⟨d, hd⟩ | hd <;> cases hd

lemma Committed.successor (hc : Committed s) {successor : Successor}
    {toIncumbent toSuccessor : Text}
    (hstays : s.incumbent = .exited → successor ≠ .gone) :
    Committed { s with successor, toIncumbent, toSuccessor } :=
  fun hi => ⟨(hc hi).1, hstays hi⟩

lemma Committed.successorReads (hc : Committed s) (h : Inv s)
    (hs : s.successor = .waiting deadline line) : Committed (successorReads s deadline line n) := by
  have hwhole : line ++ s.toSuccessor.take n ++ s.toSuccessor.drop n = sent s.incumbent := by
    rw [append_assoc, take_append_drop]
    exact (h.waiting hs).2
  unfold Takeover.successorReads
  dsimp only
  split_ifs with hnewl hcomm
  · exact hc.successor fun _ => by rintro ⟨⟩
  · exact hc.successor fun hi => absurd ((firstLine_sent hnewl hwhole).mpr hi) hcomm
  · exact hc.successor fun _ => by rintro ⟨⟩

lemma Committed.step (hc : Committed s) (h : Inv s) {a : Step} (hsteady : Steady s a)
    (hn : next token s a = some t) : Committed t := by
  cases a with
  | tick ms =>
    cases hn
    exact hc
  | boot =>
    simp only [next] at hn
    split at hn
    · cases hn
      exact hc.successor fun _ => by rintro ⟨⟩
    · cases hn
  | connect =>
    simp only [next] at hn
    split at hn
    · next deadline hs =>
        split_ifs at hn
        · cases hn
          exact hc.successor fun _ => by rintro ⟨⟩
        · cases hn
          apply hc.successor
          intro hi
          rcases h.started_of_exited hi with hw | hw | hw <;> rw [hs] at hw <;> cases hw
    · cases hn
  | successorDeadline =>
    simp only [next] at hn
    split at hn
    · split_ifs at hn
      cases hn
      exact hc.successor fun hi => absurd hi hsteady
    · split_ifs at hn
      cases hn
      exact hc.successor fun hi => absurd hi hsteady
    · cases hn
  | successorExits =>
    simp only [next] at hn
    split at hn
    · cases hn
      exact hc.successor fun hi => absurd hi hsteady
    · cases hn
      exact hc.successor fun hi => absurd hi hsteady
    · cases hn
      exact hc.successor fun hi => absurd hi hsteady
    · cases hn
  | successorReads n =>
    simp only [next] at hn
    split at hn
    · next deadline line hs =>
        split_ifs at hn
        cases hn
        exact hc.successorReads h hs
    · cases hn
  | successorClosed =>
    simp only [next] at hn
    split at hn
    · next deadline line hs =>
        split_ifs at hn with hclos
        cases hn
        apply hc.successor
        intro hi
        obtain ⟨hline, hread⟩ := h.waiting hs
        rw [hclos.2, hi, append_nil] at hread
        rw [hread] at hline
        exact absurd (by decide) hline
    · cases hn
  | successorKilled =>
    simp only [next] at hn
    split_ifs at hn with hon
    cases hn
    apply hc.successor
    intro hi
    rcases h.signalled hon with hs | hs <;> rw [hi] at hs <;> cases hs
  | incumbentReads n =>
    simp only [next] at hn
    split at hn
    · split_ifs at hn
      cases hn
      intro hi
      unfold Takeover.incumbentReads at hi
      dsimp only at hi
      split_ifs at hi
      cases hi
    · cases hn
  | flushed =>
    simp only [next] at hn
    split_ifs at hn
    cases hn
    rintro ⟨⟩
  | registrationFlushed =>
    simp only [next] at hn
    split_ifs at hn
    cases hn
    rintro ⟨⟩
  | stopped ok =>
    simp only [next] at hn
    split_ifs at hn with hs hok
    · cases hn
      subst hok
      have hwait : s.successor.isWaiting = true := by
        apply (h.past (by simp [hs]) (by simp [hs]) (by simp [hs])).resolve_right
        exact hsteady
      intro _
      exact ⟨congrArg some hwait, hsteady⟩
    · cases hn
      rintro ⟨⟩
  | _ =>
    simp only [next] at hn
    split at hn
    · split_ifs at hn
      cases hn
      rintro ⟨⟩
    · cases hn

lemma Inv.goesOn (h : Inv s) (hi : s.incumbent = .exited) (hs : s.successor ≠ .gone) :
    GoesOn token s := by
  cases hsucc : s.successor with
  | serving => exact .inl hsucc
  | gone => exact absurd hsucc hs
  | waiting deadline line =>
    obtain ⟨hline, hread⟩ := h.waiting hsucc
    have hnewl : '\n' ∈ line ++ s.toSuccessor := by
      rw [hread, hi]
      decide
    have hpos : 0 < s.toSuccessor.length := by
      apply length_pos_of_ne_nil
      rintro hnil
      rw [hnil, append_nil] at hnewl
      exact hline hnewl
    have hcomm : firstLine (line ++ s.toSuccessor) = commitLine := by
      rw [hread, hi]
      decide
    have hserves : (Takeover.successorReads s deadline line s.toSuccessor.length).successor =
        .serving := by
      unfold Takeover.successorReads
      dsimp only
      rw [take_length, if_neg (not_not.mpr hnewl), if_pos hcomm]
    refine .inr ⟨s.toSuccessor.length, _, ?_, hserves⟩
    simp only [next, hsucc, hpos, le_refl, and_self, if_true]
  | booting =>
    rcases h.started_of_exited hi with hw | hw | hw <;> rw [hsucc] at hw <;> cases hw
  | connecting deadline =>
    rcases h.started_of_exited hi with hw | hw | hw <;> rw [hsucc] at hw <;> cases hw

lemma inv_start (h : Start s) : Inv s := by
  constructor
  · rw [h.successor]
    exact ⟨h.toIncumbent, h.toSuccessor, .inl ⟨_, h.incumbent⟩⟩
  · intro hon
    rw [h.signalled] at hon
    cases hon

lemma committed_start (h : Start s) : Committed s := by
  intro hi
  rw [h.incumbent] at hi
  cases hi

/-- In every run the successor serves only after the stop, and never after a stop that failed. -/
theorem takeover_hands_over : (∀ s, (takeover token).Reach anyStep s →
      (s.successor = .serving → s.incumbent = .exited) ∧
        (s.incumbent = .stopFailed → s.successor ≠ .serving)) ∧
    ∀ s, (takeover token).Reach Steady s → HandedOver token s := by
  have haft : ∀ s, Inv s → (s.successor = .serving → s.incumbent = .exited) ∧
      (s.incumbent = .stopFailed → s.successor ≠ .serving) := by
    intro s h
    refine ⟨h.serving, ?_⟩
    intro hfail hserv
    rw [h.serving hserv] at hfail
    cases hfail
  constructor
  · intro s hreach
    exact haft s (hreach.inv Inv (fun _ hstart => inv_start hstart)
      fun _ _ _ h _ hn => h.step hn)
  · intro s hreach
    obtain ⟨h, hc⟩ := hreach.inv (fun s => Inv s ∧ Committed s)
      (fun _ hstart => ⟨inv_start hstart, committed_start hstart⟩)
      fun _ _ _ h hok hn => ⟨h.1.step hn, h.2.step h.1 hok hn⟩
    obtain ⟨hserv, hfail⟩ := haft s h
    exact ⟨hserv, hfail, fun hi => ⟨(hc hi).1, h.goesOn hi (hc hi).2⟩⟩

end

section

def started : State :=
  { now := 0, incumbent := .staging takeoverHandshakeMs [], successor := .booting
    toIncumbent := [], toSuccessor := [], ended := false, listening := true, signalled := false
    committedTo := none }

lemma start_started : Start started := ⟨rfl, rfl, rfl, rfl, rfl, rfl, rfl, rfl⟩

def proved : List Step := [.boot, .connect, .incumbentReads 2, .flushed, .registrationFlushed]

def longStop : List Step :=
  proved ++ [Step.tick takeoverHandshakeMs, .successorDeadline, .stopped true]

/-- The incumbent stops as the successor gives up, and nobody serves. -/
theorem not_always_handed : ¬ ∀ token s, (takeover token).Reach anyStep s → HandedOver token s := by
  intro h
  have hrun : ((takeover ['t']).exec started longStop).map (fun s =>
      decide (s.incumbent = .exited ∧ s.committedTo = some false ∧ s.successor = .gone)) =
        some true := by
    decide +kernel
  obtain ⟨s, hs, hdata⟩ := Option.map_eq_some_iff.mp hrun
  obtain ⟨hexit, hcommitt, -⟩ := of_decide_eq_true hdata
  have hhand := h _ s (Machine.reach_of_exec start_started hs)
  rw [(hhand.committed hexit).1] at hcommitt
  cases hcommitt

def steady (s : State) : Step → Bool
  | .stopped true => s.successor ≠ .gone
  | .successorDeadline | .successorExits => s.incumbent ≠ .exited
  | _ => true

lemma steady_of {s : State} {a : Step} (h : steady s a = true) : Steady s a := by
  cases a with
  | stopped ok =>
    cases ok with
    | false => trivial
    | true => simpa [steady, Steady] using h
  | successorDeadline => simpa [steady, Steady] using h
  | successorExits => simpa [steady, Steady] using h
  | _ => trivial

def handedOver : List Step :=
  proved ++ [Step.tick 29999, .stopped true, .successorReads 3, .successorReads 4]

theorem handed_in_time :
    ∃ s, (takeover ['t']).execIf steady started handedOver = some s ∧ s.successor = .serving ∧
      HandedOver ['t'] s := by
  have hrun : ((takeover ['t']).execIf steady started handedOver).map (·.successor) =
      some .serving := by
    decide +kernel
  obtain ⟨s, hs, hserv⟩ := Option.map_eq_some_iff.mp hrun
  have hreach : (takeover ['t']).Reach Steady s :=
    ⟨_, handedOver, start_started, (Machine.run_of_execIf hs).mono fun _ _ => steady_of⟩
  exact ⟨s, hs, hserv, takeover_hands_over.2 s hreach⟩

end

end Redskilled.Update.Takeover
