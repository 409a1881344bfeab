import Redskilled.Foundation.Conduct
import Redskilled.Foundation.Machine
import Redskilled.Manager.EffortStore

/-!
# Sessions on one effort

Any number of sessions, on any hosts, run calls on the files of one effort, in any order of
their operations. An operation can fail, and a session can stop anywhere. What is recorded
beside the files are the rows that were stored, what each save wrote over, and the leases
that were returned and not ended since.
-/
namespace Redskilled.Manager
open Foundation Foundation.Text Dialogue

structure Store where
  effort : Option EffortRow
  lease : Option EffortLease

def perform (store : Store) : (q : FileOp) → Option (Answer q) × Store
  | .readEffort => (store.effort, store)
  | .renameEffort row => (some (), { store with effort := some row })
  | .readLease => (store.lease, store)
  | .renameLease lease => (some (), { store with lease := some lease })
  | .unlinkLease => (store.lease.map fun _ => (), { store with lease := none })
  | .mkdir => (some (), store)
  | .writeEffort _ => (some (), store)
  | .writeLease _ => (some (), store)
  | .unlinkTemporary => (some (), store)

inductive Call where
  | start (intent effortId : Text)
  | save (effort : EffortRecord)
  | manage (effort : EffortRecord) (ttlMs : ℤ) (host : Text)
  | ending (effort : EffortRecord)

inductive Returned where
  | started (effort : EffortRecord)
  | saved (effort : EffortRecord)
  | managed (effort : EffortRecord) (lease : EffortLease)
  | ended (effort : EffortRecord)

section
variable (secretShaped : Text → Bool)

def Call.program (now : ℤ) : Call → Program Returned
  | .start intent effortId => do
      let effort ← startEffort secretShaped ⟨intent, now, effortId⟩
      pure (.started effort)
  | .save effort => do
      let effort ← saveEffort secretShaped effort now
      pure (.saved effort)
  | .manage effort ttlMs host => do
      let managed ← manageEffort secretShaped effort ⟨now, ttlMs, host⟩
      pure (.managed managed.1 managed.2)
  | .ending effort => do
      let effort ← endEffort secretShaped effort now
      pure (.ended effort)

end

/-- A call under way: when it was made, what it has asked, what is left of it, and whether an
end had completed when it was made. -/
structure Session where
  call : Call
  calledAt : ℤ
  past : List (Exchange FileOp Answer)
  program : Program Returned
  afterEnd : Bool

structure Efforts where
  store : Store
  time : ℤ
  sessions : ℕ → Option Session
  history : List EffortRow
  /-- The generation that was stored, and the one that a save wrote over it. -/
  saves : List (Option ℕ × ℕ)
  /-- The leases that were returned, and not ended since. -/
  holds : List EffortLease
  ended : Bool

def Efforts.first : Efforts := ⟨⟨none, none⟩, 0, fun _ => none, [], [], [], false⟩

def storedBy : Exchange FileOp Answer → Option EffortRow
  | ⟨.renameEffort row, some ()⟩ => some row
  | _ => none

/-- A question that is answered now: of which session, what is left of its program, and the
files behind it. -/
structure Asked where
  session : Session
  exchange : Exchange FileOp Answer
  next : Program Returned
  store : Store

namespace Efforts

def savesAfter (s : Efforts) (call : Call) (e : Exchange FileOp Answer) : List (Option ℕ × ℕ) :=
  match call, storedBy e with
  | .start _ _, _ => s.saves
  | _, some row => s.saves ++ [(s.store.effort.map (·.generation), row.generation)]
  | _, none => s.saves

def holdsAfter (s : Efforts) : Program Returned → List EffortLease
  | .done (.managed _ lease) => lease :: s.holds
  | .done (.ended _) => []
  | _ => s.holds

def endedAfter (s : Efforts) : Program Returned → Bool
  | .done (.ended _) => true
  | _ => s.ended

def asked (s : Efforts) (id : ℕ) (works : Bool) : Option Asked :=
  match s.sessions id with
  | none => none
  | some session =>
    match session.program with
    | .ask q next =>
      if works then
        some ⟨session, ⟨q, (perform s.store q).1⟩, next (perform s.store q).1,
          (perform s.store q).2⟩
      else some ⟨session, ⟨q, none⟩, next none, s.store⟩
    | _ => none

def answered (s : Efforts) (id : ℕ) (found : Asked) : Efforts where
  store := found.store
  time := s.time
  sessions := Function.update s.sessions id
    (some { found.session with past := found.session.past ++ [found.exchange], program := found.next })
  history := s.history ++ (storedBy found.exchange).toList
  saves := s.savesAfter found.session.call found.exchange
  holds := s.holdsAfter found.next
  ended := s.endedAfter found.next

def setSession (s : Efforts) (id : ℕ) (session : Option Session) : Efforts :=
  { s with sessions := Function.update s.sessions id session }

end Efforts

inductive Move where
  | tick (time : ℤ)
  | call (id : ℕ) (call : Call)
  | op (id : ℕ) (works : Bool)
  | stop (id : ℕ)

def sessions (secretShaped : Text → Bool) : Machine Efforts Move where
  start s := s = .first
  next s
    | .tick time => if s.time ≤ time then some { s with time := time } else none
    | .call id call =>
      match s.sessions id with
      | none => some (s.setSession id
          (some ⟨call, s.time, [], call.program secretShaped s.time, s.ended⟩))
      | some _ => none
    | .op id works => (s.asked id works).map (s.answered id)
    | .stop id =>
      match s.sessions id with
      | some _ => some (s.setSession id none)
      | none => none

section
variable {s : Efforts} {id other : ℕ} {works : Bool} {found : Asked} {session : Session}

lemma answered_cases (h : (s.answered id found).sessions other = some session) :
    (other = id ∧ session = { found.session with
        past := found.session.past ++ [found.exchange], program := found.next }) ∨
      (other ≠ id ∧ s.sessions other = some session) := by
  simp only [Efforts.answered, Function.update_apply] at h
  split_ifs at h with hid
  · exact .inl ⟨hid, (Option.some.inj h).symm⟩
  · exact .inr ⟨hid, h⟩

lemma setSession_cases {put : Option Session}
    (h : (s.setSession id put).sessions other = some session) :
    (other = id ∧ put = some session) ∨ (other ≠ id ∧ s.sessions other = some session) := by
  simp only [Efforts.setSession, Function.update_apply] at h
  split_ifs at h with hid
  · exact .inl ⟨hid, h⟩
  · exact .inr ⟨hid, h⟩

/-- What an operation does to the files. -/
def Changes (store : Store) (e : Exchange FileOp Answer) (after : Store) : Prop :=
  (∃ row, e = ⟨.renameEffort row, some ()⟩ ∧ after = { store with effort := some row }) ∨
  (∃ lease, e = ⟨.renameLease lease, some ()⟩ ∧ after = { store with lease := some lease }) ∨
  (∃ answer, e = ⟨.unlinkLease, answer⟩ ∧ after = { store with lease := none }) ∨
  (storedBy e = none ∧ (∀ lease, e ≠ ⟨.renameLease lease, some ()⟩) ∧ after = store)

lemma changes_perform (store : Store) (q : FileOp) :
    Changes store ⟨q, (perform store q).1⟩ (perform store q).2 := by
  cases q with
  | renameEffort row => exact .inl ⟨row, rfl, rfl⟩
  | renameLease lease => exact .inr (.inl ⟨lease, rfl, rfl⟩)
  | unlinkLease => exact .inr (.inr (.inl ⟨_, rfl, rfl⟩))
  | _ => exact .inr (.inr (.inr ⟨rfl, by rintro _ ⟨⟩, rfl⟩))

lemma changes_fail (store : Store) (q : FileOp) : Changes store ⟨q, none⟩ store := by
  refine .inr (.inr (.inr ⟨?_, ?_, rfl⟩))
  · cases q <;> rfl
  · rintro lease heq
    cases q <;> cases heq

lemma asked_spec (h : s.asked id works = some found) :
    s.sessions id = some found.session ∧ Changes s.store found.exchange found.store ∧
      ∃ next, found.session.program = .ask found.exchange.question next ∧
        found.next = next found.exchange.answer := by
  unfold Efforts.asked at h
  split at h
  · cases h
  · next session hsess =>
      split at h
      · next q next hprogr =>
          split_ifs at h
          · cases h
            exact ⟨hsess, changes_perform _ _, next, hprogr, rfl⟩
          · cases h
            exact ⟨hsess, changes_fail _ _, next, hprogr, rfl⟩
      · cases h

end

def Stored (past : List (Exchange FileOp Answer)) : Prop :=
  ∃ row, (⟨.renameEffort row, some ()⟩ : Exchange FileOp Answer) ∈ past

def Writes (secretShaped : Text → Bool) : Call → EffortRow → Prop
  | .start intent effortId, row =>
    ∃ now, encodeEffortRow secretShaped (startedEffort ⟨intent, now, effortId⟩) = some row
  | .save effort, row =>
    ∃ now, encodeEffortRow secretShaped (bumped effort now) = some row
  | .manage effort _ _, row => effort.lifecycle ∉ terminal ∧ ∃ now,
      encodeEffortRow secretShaped
        (bumped { effort with lifecycle := targetLifecycle effort } now) = some row
  | .ending effort, row => effort.lifecycle = .active ∧ ∃ now,
      encodeEffortRow secretShaped (bumped { effort with lifecycle := .completed } now) = some row

/-- The effort that the last reading of a call answered. -/
def effortRead (past : List (Exchange FileOp Answer)) : Option EffortRow :=
  past.foldl (fun read e => match e with
    | ⟨.readEffort, answer⟩ => answer
    | _ => read) none

def leaseRead (past : List (Exchange FileOp Answer)) : Option EffortLease :=
  past.foldl (fun read e => match e with
    | ⟨.readLease, answer⟩ => answer
    | _ => read) none

/-- A call that read the effort writes the generation behind the one it read. -/
def Compared (call : Call) (past : List (Exchange FileOp Answer)) (row : EffortRow) : Prop :=
  (∃ intent effortId, call = .start intent effortId) ∨
    ∀ found, effortRead past = some found → row.generation = found.generation + 1

/-- The lease that was read is the host's own, or had expired when the call was made. -/
def Checked (now : ℤ) (past : List (Exchange FileOp Answer)) (host : Text) : Prop :=
  ∀ found, leaseRead past = some found → found.expiresAt ≤ now ∨ found.host = host

/-- What a call may ask: nothing behind the removal of a lease, which ends it. -/
def asks (secretShaped : Text → Bool) (call : Call) (now : ℤ)
    (past : List (Exchange FileOp Answer)) (q : FileOp) : Prop :=
  (∀ answer, past.getLast? ≠ some ⟨.unlinkLease, answer⟩) ∧
    match q with
    | .renameEffort row => Writes secretShaped call row ∧ Compared call past row
    | .renameLease lease => ∃ effort ttlMs host, call = .manage effort ttlMs host ∧
        Stored past ∧ lease.effortId = effort.effortId ∧ lease.host = host ∧
          1 ≤ lease.generation ∧ Checked now past host
    | .unlinkLease => (∃ effort, call = .ending effort) ∧ Stored past
    | _ => True

/-- How a call ends: with what it was made for, a manager right behind its lease. -/
def ends (call : Call) (past : List (Exchange FileOp Answer)) : Option Returned → Prop
  | none => ∀ answer, past.getLast? ≠ some ⟨.unlinkLease, answer⟩
  | some (.started _) => (∃ intent effortId, call = .start intent effortId) ∧
      ∀ answer, past.getLast? ≠ some ⟨.unlinkLease, answer⟩
  | some (.saved _) => (∃ effort, call = .save effort) ∧
      ∀ answer, past.getLast? ≠ some ⟨.unlinkLease, answer⟩
  | some (.managed _ lease) => (∃ effort ttlMs host, call = .manage effort ttlMs host) ∧
      Stored past ∧ past.getLast? = some ⟨.renameLease lease, some ()⟩
  | some (.ended _) => (∃ effort, call = .ending effort) ∧ Stored past

def Session.Conducted (secretShaped : Text → Bool) (session : Session) : Prop :=
  session.program.Conducts (asks secretShaped session.call session.calledAt) (ends session.call)
    session.past

section
variable {secretShaped : Text → Bool} {call : Call} {past : List (Exchange FileOp Answer)}
  {now : ℤ}

/-- No lease was removed just now. -/
def NotUnlinked (past : List (Exchange FileOp Answer)) : Prop :=
  ∀ answer, past.getLast? ≠ some ⟨.unlinkLease, answer⟩

lemma notUnlinked_concat {q : FileOp} {answer : Option (Answer q)} (h : q ≠ .unlinkLease) :
    NotUnlinked (past ++ [⟨q, answer⟩]) := by
  intro other heq
  rw [List.getLast?_concat] at heq
  have hq := congrArg Exchange.question (Option.some.inj heq)
  exact h hq

lemma Stored.concat (h : Stored past) (e : Exchange FileOp Answer) : Stored (past ++ [e]) := by
  obtain ⟨row, hrow⟩ := h
  exact ⟨row, List.mem_append_left _ hrow⟩

lemma effortRead_concat {q : FileOp} {answer : Option (Answer q)} (h : q ≠ .readEffort) :
    effortRead (past ++ [⟨q, answer⟩]) = effortRead past := by
  rw [effortRead, List.foldl_append]
  cases q <;> first | rfl | exact absurd rfl h

lemma effortRead_read (answer : Option EffortRow) :
    effortRead (past ++ [⟨.readEffort, answer⟩]) = answer := by
  rw [effortRead, List.foldl_append]
  rfl

lemma leaseRead_concat {q : FileOp} {answer : Option (Answer q)} (h : q ≠ .readLease) :
    leaseRead (past ++ [⟨q, answer⟩]) = leaseRead past := by
  rw [leaseRead, List.foldl_append]
  cases q <;> first | rfl | exact absurd rfl h

lemma leaseRead_read (answer : Option EffortLease) :
    leaseRead (past ++ [⟨.readLease, answer⟩]) = answer := by
  rw [leaseRead, List.foldl_append]
  rfl

def Put (put : List (Exchange FileOp Answer) → Prop) (past : List (Exchange FileOp Answer))
    (value : Option Unit) : Prop :=
  NotUnlinked past ∧ (value = some () → put past)

lemma asks_harmless {q : FileOp} (hpast : NotUnlinked past) (hq : match q with
    | .renameEffort _ => False
    | .renameLease _ => False
    | .unlinkLease => False
    | _ => True) : asks secretShaped call now past q := by
  refine ⟨hpast, ?_⟩
  cases q <;> first | exact hq.elim | trivial

lemma writeAtomic_conducts {write rename : Program Unit}
    {kept put : List (Exchange FileOp Answer) → Prop} (hpast : NotUnlinked past)
    (hkept : kept past) (hmore : ∀ past answer, kept past → kept (past ++ [⟨.mkdir, answer⟩]))
    (h : ∀ past, NotUnlinked past → kept past → (do write; rename : Program Unit).Conducts
      (asks secretShaped call now) (Put put) past) :
    (writeAtomic write rename).Conducts (asks secretShaped call now) (Put put) past := by
  have hmkd : (need FileOp.mkdir : Program Unit).Conducts (asks secretShaped call now)
      (fun past _ => NotUnlinked past ∧ kept past) past :=
    conducts_need (asks_harmless hpast trivial)
      fun answer => ⟨notUnlinked_concat (by decide), hmore past answer hkept⟩
  apply hmkd.seq
  · rintro _ past ⟨hpast, hkept⟩
    have hcaught : (caught (do write; rename) : Program (Option Unit)).Conducts
        (asks secretShaped call now)
        (fun past value => ∃ found, value = some found ∧ Put put past found) past :=
      Conducts.caught ((h past hpast hkept).mono fun past value hput => ⟨value, rfl, hput⟩)
    apply hcaught.seq
    · rintro written past ⟨_, ⟨⟩, hwritt⟩
      cases written with
      | some _ => exact hwritt
      | none =>
        have hunl : (attempt FileOp.unlinkTemporary : Program (Option Unit)).Conducts
            (asks secretShaped call now) (fun past _ => NotUnlinked past) past :=
          conducts_attempt (asks_harmless hwritt.1 trivial)
            fun answer => notUnlinked_concat (by decide)
        apply hunl.seq
        · intro _ past hpast
          refine ⟨hpast, ?_⟩
          rintro ⟨⟩
        · intro past hpast
          refine ⟨hpast, ?_⟩
          rintro ⟨⟩
    · rintro past ⟨_, ⟨⟩, -⟩
  · rintro past ⟨hpast, -⟩
    refine ⟨hpast, ?_⟩
    rintro ⟨⟩

/-- The files were not read again. -/
def SameReads (past later : List (Exchange FileOp Answer)) : Prop :=
  effortRead later = effortRead past ∧ leaseRead later = leaseRead past

lemma SameReads.concat {later : List (Exchange FileOp Answer)} (h : SameReads past later)
    {q : FileOp} {answer : Option (Answer q)} (heff : q ≠ .readEffort)
    (hlease : q ≠ .readLease) : SameReads past (later ++ [⟨q, answer⟩]) :=
  ⟨(effortRead_concat heff).trans h.1, (leaseRead_concat hlease).trans h.2⟩

variable {effort : EffortRecord}

lemma writeEffortAtomic_conducts
    (hwrit : ∀ row, encodeEffortRow secretShaped effort = some row →
      Writes secretShaped call row ∧ Compared call past row) (hpast : NotUnlinked past) :
    (writeEffortAtomic secretShaped effort).Conducts (asks secretShaped call now)
      (Put fun later => Stored later ∧ leaseRead later = leaseRead past) past := by
  unfold writeEffortAtomic
  split
  · refine ⟨hpast, ?_⟩
    rintro ⟨⟩
  · next row hrow =>
      have hstart : SameReads past past := ⟨rfl, rfl⟩
      refine writeAtomic_conducts hpast hstart
        (fun _ _ h => h.concat (by decide) (by decide)) ?_
      intro later hlat hkept
      have hwrite : (need (FileOp.writeEffort row) : Program Unit).Conducts
          (asks secretShaped call now) (fun later _ => NotUnlinked later ∧ SameReads past later)
          later :=
        conducts_need (asks_harmless hlat trivial) fun answer =>
          ⟨notUnlinked_concat (by rintro ⟨⟩), hkept.concat (by rintro ⟨⟩) (by rintro ⟨⟩)⟩
      apply hwrite.seq
      · rintro _ later ⟨hlat, hkept⟩
        obtain ⟨hrowWr, hcomp⟩ := hwrit row hrow
        refine conducts_need ⟨hlat, hrowWr, ?_⟩ ?_
        · exact hcomp.imp_right fun h found hfound => h found (hkept.1 ▸ hfound)
        · intro answer
          refine ⟨notUnlinked_concat (by rintro ⟨⟩), ?_⟩
          rintro rfl
          exact ⟨⟨row, List.mem_append_right _ (List.mem_singleton_self _)⟩,
            (hkept.concat (by rintro ⟨⟩) (by rintro ⟨⟩)).2⟩
      · rintro later ⟨hlat, -⟩
        refine ⟨hlat, ?_⟩
        rintro ⟨⟩

/-- What the reading returns is what is read in the answer. -/
def ReadAs (lease : Option EffortLease) (past : List (Exchange FileOp Answer))
    (value : Option (Option EffortRecord)) : Prop :=
  NotUnlinked past ∧ leaseRead past = lease ∧ ∀ found, value = some found →
    (effortRead past).map (·.generation) = found.map (·.generation)

lemma readEffort_conducts (hpast : NotUnlinked past) : readEffort.Conducts
    (asks secretShaped call now) (ReadAs (leaseRead past)) past := by
  have hread : (attempt FileOp.readEffort : Program (Option EffortRow)).Conducts
      (asks secretShaped call now) (fun later value => NotUnlinked later ∧
        leaseRead later = leaseRead past ∧ ∀ found, value = some found → effortRead later = found)
      past := by
    refine conducts_attempt (asks_harmless hpast trivial) fun answer =>
      ⟨notUnlinked_concat (by decide), leaseRead_concat (by decide), ?_⟩
    rintro found ⟨⟩
    exact effortRead_read answer
  apply hread.seq
  · rintro found later ⟨hlat, hlease, hfound⟩
    have hansw : effortRead later = found := hfound found rfl
    split
    · refine ⟨hlat, hlease, ?_⟩
      rintro _ ⟨⟩
      rw [hansw]
      rfl
    · next row =>
        split
        · next effort hdec =>
            refine ⟨hlat, hlease, ?_⟩
            rintro _ ⟨⟩
            rw [hansw]
            exact congrArg some (of_decode hdec).1
        · refine ⟨hlat, hlease, ?_⟩
          rintro _ ⟨⟩
  · rintro later ⟨hlat, hlease, -⟩
    refine ⟨hlat, hlease, ?_⟩
    rintro _ ⟨⟩

/-- What a save returns is what it stored. -/
def SavedAs (saved : EffortRecord) (lease : Option EffortLease)
    (past : List (Exchange FileOp Answer)) (value : Option EffortRecord) : Prop :=
  NotUnlinked past ∧ ∀ found, value = some found →
    found = saved ∧ Stored past ∧ leaseRead past = lease

lemma saveEffort_conducts {at' : ℤ}
    (hwrit : ∀ row, encodeEffortRow secretShaped (bumped effort at') = some row →
      Writes secretShaped call row) (hpast : NotUnlinked past) :
    (saveEffort secretShaped effort at').Conducts (asks secretShaped call now)
      (SavedAs (bumped effort at') (leaseRead past)) past := by
  have hwrite : ∀ later, NotUnlinked later → leaseRead later = leaseRead past →
      (∀ found, effortRead later = some found → found.generation = effort.generation) → (do
      writeEffortAtomic secretShaped (bumped effort at')
      pure (bumped effort at') : Program EffortRecord).Conducts (asks secretShaped call now)
        (SavedAs (bumped effort at') (leaseRead past)) later := by
    intro later hlat hlease hsame
    have hcompar : ∀ row, encodeEffortRow secretShaped (bumped effort at') = some row →
        Writes secretShaped call row ∧ Compared call later row := by
      intro row hrow
      refine ⟨hwrit row hrow, .inr fun found hfound => ?_⟩
      rw [hsame found hfound]
      exact (of_encode hrow).1
    apply (writeEffortAtomic_conducts hcompar hlat).seq
    · rintro ⟨⟩ last ⟨hlast, hput⟩
      refine ⟨hlast, ?_⟩
      rintro _ ⟨⟩
      exact ⟨rfl, (hput rfl).1, (hput rfl).2.trans hlease⟩
    · rintro last ⟨hlast, -⟩
      refine ⟨hlast, ?_⟩
      rintro _ ⟨⟩
  apply (readEffort_conducts hpast).seq
  · rintro stored later ⟨hlat, hlease, hread⟩
    have hgen := hread stored rfl
    split
    · next found =>
        split_ifs with hne
        · refine ⟨hlat, ?_⟩
          rintro _ ⟨⟩
        · apply hwrite later hlat hlease
          intro row hrow
          rw [hrow] at hgen
          exact (Option.some.inj hgen).trans (not_not.mp hne)
    · apply hwrite later hlat hlease
      intro row hrow
      rw [hrow] at hgen
      cases hgen
  · rintro later ⟨hlat, -⟩
    refine ⟨hlat, ?_⟩
    rintro _ ⟨⟩

lemma writeLeaseAtomic_conducts {lease : EffortLease} {read : Option EffortLease}
    (hpast : NotUnlinked past) (hstor : Stored past) (hread : leaseRead past = read)
    (hasks : ∀ past, NotUnlinked past → Stored past → leaseRead past = read →
      asks secretShaped call now past (.renameLease lease)) :
    (writeLeaseAtomic lease).Conducts (asks secretShaped call now)
      (Put fun past => Stored past ∧ past.getLast? = some ⟨.renameLease lease, some ()⟩) past := by
  refine @writeAtomic_conducts _ _ _ _ _ _ (fun later => Stored later ∧ leaseRead later = read) _
    hpast ⟨hstor, hread⟩ (fun _ _ h =>
      ⟨h.1.concat _, (leaseRead_concat (by decide)).trans h.2⟩) ?_
  rintro past hpast ⟨hstor, hread⟩
  have hwrite : (need (FileOp.writeLease lease) : Program Unit).Conducts
      (asks secretShaped call now)
      (fun past _ => NotUnlinked past ∧ Stored past ∧ leaseRead past = read) past :=
    conducts_need (asks_harmless hpast trivial) fun answer =>
      ⟨notUnlinked_concat (by rintro ⟨⟩), hstor.concat _,
        (leaseRead_concat (by rintro ⟨⟩)).trans hread⟩
  apply hwrite.seq
  · rintro _ past ⟨hpast, hstor, hread⟩
    refine conducts_need (hasks past hpast hstor hread) ?_
    intro answer
    refine ⟨notUnlinked_concat (by rintro ⟨⟩), ?_⟩
    rintro rfl
    exact ⟨hstor.concat _, List.getLast?_concat ..⟩
  · rintro past ⟨hpast, -⟩
    refine ⟨hpast, ?_⟩
    rintro ⟨⟩

lemma notUnlinked_nil : NotUnlinked [] := by
  rintro _ ⟨⟩

lemma mayManage_notTerminal {options : ManageEffortOptions}
    {lease : Option EffortLease} (h : mayManage effort options lease = true) :
    effort.lifecycle ∉ terminal := by
  unfold mayManage at h
  split at h
  · cases hlif : effort.lifecycle <;> simp_all [resumable, terminal]
  · split_ifs at h
    · simpa using h
    · cases hlif : effort.lifecycle <;> simp_all [resumable, terminal]

lemma expired_or_own {options : ManageEffortOptions} {lease : EffortLease}
    (h : mayManage effort options (some lease) = true) :
    lease.expiresAt ≤ options.now ∨ lease.host = options.host := by
  simp only [mayManage] at h
  split_ifs at h with hexp
  · exact .inl (of_decide_eq_true hexp)
  · simp only [Bool.and_eq_true, beq_iff_eq] at h
    exact .inr h.1

lemma readLease_conducts (hpast : NotUnlinked past) : readLease.Conducts
    (asks secretShaped call now) (fun past value => NotUnlinked past ∧
      ∀ found, value = some found → leaseRead past = found) past := by
  have hread : (attempt FileOp.readLease : Program (Option EffortLease)).Conducts
      (asks secretShaped call now) (fun past value => NotUnlinked past ∧
        ∀ found, value = some found → leaseRead past = found) past := by
    refine conducts_attempt (asks_harmless hpast trivial) fun answer =>
      ⟨notUnlinked_concat (by decide), ?_⟩
    rintro found ⟨⟩
    exact leaseRead_read answer
  apply hread.seq
  · rintro found past ⟨hpast, hfound⟩
    have hansw : leaseRead past = found := hfound found rfl
    split
    · refine ⟨hpast, ?_⟩
      rintro _ ⟨⟩
      exact hansw
    · split_ifs
      · refine ⟨hpast, ?_⟩
        rintro _ ⟨⟩
        exact hansw
      · refine ⟨hpast, ?_⟩
        rintro _ ⟨⟩
  · rintro past ⟨hpast, -⟩
    refine ⟨hpast, ?_⟩
    rintro _ ⟨⟩

lemma manageEffort_conducts {ttlMs : ℤ} {host : Text} :
    (manageEffort secretShaped effort ⟨now, ttlMs, host⟩).Conducts
      (asks secretShaped (.manage effort ttlMs host) now) (fun past value => NotUnlinked past ∧
        ∀ found, value = some found →
          Stored past ∧ past.getLast? = some ⟨.renameLease found.2, some ()⟩) [] := by
  unfold manageEffort
  apply (readLease_conducts notUnlinked_nil).seq
  · rintro lease past ⟨hpast, hread⟩
    have hlease : leaseRead past = lease := hread lease rfl
    split_ifs with hmay
    · have hwrit : ∀ row, encodeEffortRow secretShaped
          (bumped { effort with lifecycle := targetLifecycle effort } now) = some row →
            Writes secretShaped (.manage effort ttlMs host) row :=
        fun row hrow => ⟨mayManage_notTerminal hmay, now, hrow⟩
      apply (saveEffort_conducts hwrit hpast).seq
      · rintro saved past ⟨hpast, hsav⟩
        obtain ⟨rfl, hstor, hkept⟩ := hsav saved rfl
        refine (writeLeaseAtomic_conducts hpast hstor (hkept.trans hlease) ?_).seq ?_ ?_
        · intro past hpast hstor hread
          refine ⟨hpast, effort, ttlMs, host, rfl, hstor, rfl, rfl, Nat.le_add_left _ _, ?_⟩
          intro found hfound
          rw [← hread, hfound] at hmay
          exact expired_or_own hmay
        · rintro ⟨⟩ past ⟨hpast, hput⟩
          refine ⟨hpast, ?_⟩
          rintro _ ⟨⟩
          exact hput rfl
        · rintro past ⟨hpast, -⟩
          refine ⟨hpast, ?_⟩
          rintro _ ⟨⟩
      · rintro past ⟨hpast, -⟩
        refine ⟨hpast, ?_⟩
        rintro _ ⟨⟩
    · refine ⟨hpast, ?_⟩
      rintro _ ⟨⟩
  · rintro past ⟨hpast, -⟩
    refine ⟨hpast, ?_⟩
    rintro _ ⟨⟩

lemma endEffort_conducts :
    (endEffort secretShaped effort now).Conducts (asks secretShaped (.ending effort) now)
      (fun past value => (value = none → NotUnlinked past) ∧
        ∀ found, value = some found → Stored past) [] := by
  unfold endEffort
  split_ifs with hact
  · refine ⟨fun _ => notUnlinked_nil, ?_⟩
    rintro _ ⟨⟩
  · have hwrit : ∀ row, encodeEffortRow secretShaped
        (bumped { effort with lifecycle := .completed } now) = some row →
          Writes secretShaped (.ending effort) row :=
      fun row hrow => ⟨by simpa using hact, now, hrow⟩
    apply (saveEffort_conducts hwrit notUnlinked_nil).seq
    · rintro saved past ⟨hpast, hsav⟩
      obtain ⟨-, hstor, -⟩ := hsav saved rfl
      have hunl : (attempt FileOp.unlinkLease : Program (Option Unit)).Conducts
          (asks secretShaped (.ending effort) now) (fun past value => value ≠ none ∧ Stored past) past :=
        conducts_attempt ⟨hpast, ⟨effort, rfl⟩, hstor⟩
          fun answer => ⟨by rintro ⟨⟩, hstor.concat _⟩
      have hrel : releaseLease.Conducts (asks secretShaped (.ending effort) now)
          (fun past value => value ≠ none ∧ Stored past) past := by
        apply hunl.seq
        · rintro _ past ⟨-, hstor⟩
          exact ⟨by rintro ⟨⟩, hstor⟩
        · rintro past ⟨hnone, -⟩
          exact absurd rfl hnone
      apply hrel.seq
      · rintro _ past ⟨-, hstor⟩
        refine ⟨by rintro ⟨⟩, ?_⟩
        rintro _ ⟨⟩
        exact hstor
      · rintro past ⟨hnone, -⟩
        exact absurd rfl hnone
    · rintro past ⟨hpast, -⟩
      refine ⟨fun _ => hpast, ?_⟩
      rintro _ ⟨⟩

lemma program_conducts (call : Call) (now : ℤ) (afterEnd : Bool) :
    (⟨call, now, [], call.program secretShaped now, afterEnd⟩ : Session).Conducted secretShaped := by
  unfold Session.Conducted
  cases call with
  | start intent effortId =>
    have hwrit : ∀ row, encodeEffortRow secretShaped (startedEffort ⟨intent, now, effortId⟩) =
        some row → Writes secretShaped (.start intent effortId) row ∧
          Compared (.start intent effortId) [] row :=
      fun row hrow => ⟨⟨now, hrow⟩, .inl ⟨intent, effortId, rfl⟩⟩
    have hstart : (startEffort secretShaped ⟨intent, now, effortId⟩).Conducts
        (asks secretShaped (.start intent effortId) now) (fun past _ => NotUnlinked past) [] :=
      (writeEffortAtomic_conducts hwrit notUnlinked_nil).seq (fun _ _ h => h.1) fun _ h => h.1
    exact hstart.seq (fun _ _ h => ⟨⟨intent, effortId, rfl⟩, h⟩) fun _ h => h
  | save effort =>
    have hwrit : ∀ row, encodeEffortRow secretShaped (bumped effort now) = some row →
        Writes secretShaped (.save effort) row := fun row hrow => ⟨now, hrow⟩
    exact (saveEffort_conducts hwrit notUnlinked_nil).seq
      (fun _ _ h => ⟨⟨effort, rfl⟩, h.1⟩) fun _ h => h.1
  | manage effort ttlMs host =>
    apply manageEffort_conducts.seq
    · rintro managed past ⟨-, hman⟩
      exact ⟨⟨effort, ttlMs, host, rfl⟩, hman managed rfl⟩
    · exact fun _ h => h.1
  | ending effort =>
    apply endEffort_conducts.seq
    · rintro ended past ⟨-, hend⟩
      exact ⟨⟨effort, rfl⟩, hend ended rfl⟩
    · exact fun _ h => h.1 rfl

section
variable {s : Efforts} {id : ℕ} {works : Bool} {found : Asked}

lemma conducted_asked (h : s.asked id works = some found)
    (hcond : found.session.Conducted secretShaped) :
    asks secretShaped found.session.call found.session.calledAt found.session.past
        found.exchange.question ∧
      found.next.Conducts (asks secretShaped found.session.call found.session.calledAt)
        (ends found.session.call)
        (found.session.past ++ [found.exchange]) := by
  obtain ⟨-, -, next, hprogr, hnext⟩ := asked_spec h
  unfold Session.Conducted at hcond
  rw [hprogr] at hcond
  rw [hnext]
  exact ⟨hcond.1, hcond.2 _⟩

lemma ended_of_unlinked (h : s.asked id works = some found)
    (hcond : found.session.Conducted secretShaped) {answer : Option Unit}
    (he : found.exchange = ⟨.unlinkLease, answer⟩) :
    ∃ effort, found.next = .done (.ended effort) := by
  obtain ⟨-, hnext⟩ := conducted_asked h hcond
  have hlast : (found.session.past ++ [found.exchange]).getLast? =
      some ⟨.unlinkLease, answer⟩ := by rw [List.getLast?_concat, he]
  cases hprogr : found.next with
  | done value =>
    rw [hprogr] at hnext
    cases value with
    | started effort => exact absurd hlast (hnext.2 answer)
    | saved effort => exact absurd hlast (hnext.2 answer)
    | managed effort lease =>
      rw [hnext.2.2] at hlast
      cases hlast
    | ended effort => exact ⟨effort, rfl⟩
  | fail =>
    rw [hprogr] at hnext
    exact absurd hlast (hnext answer)
  | ask q next =>
    rw [hprogr] at hnext
    exact absurd hlast (hnext.1.1 answer)

lemma leased_of_managed (h : s.asked id works = some found)
    (hcond : found.session.Conducted secretShaped) {effort : EffortRecord}
    {lease : EffortLease} (hprogr : found.next = .done (.managed effort lease)) :
    found.exchange = ⟨.renameLease lease, some ()⟩ := by
  obtain ⟨-, hnext⟩ := conducted_asked h hcond
  rw [hprogr] at hnext
  have hlast := hnext.2.2
  rw [List.getLast?_concat] at hlast
  exact Option.some.inj hlast

end
end
end Redskilled.Manager
