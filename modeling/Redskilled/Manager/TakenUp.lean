import Mathlib.Data.List.Nodup
import Redskilled.Manager.OneWriter

/-!
# Taking an effort up again

A call that manages an effort stores it as active before it writes the lease. Where it stops
in between and no lease is in the file, nobody can manage the effort: it is active, which only
an expired lease lets a host reclaim.
-/
namespace Redskilled.Manager
open Foundation Foundation.Text Dialogue

def Call.manages : Call → Bool
  | .manage _ _ _ => true
  | _ => false

def isRunning : Program Returned → Bool
  | .ask _ _ => true
  | _ => false

def isFailed : Program Returned → Bool
  | .fail => true
  | _ => false

def storedIn (past : List (Exchange FileOp Answer)) : Bool := past.any fun e => (storedBy e).isSome

def isKnown (secretShaped : Text → Bool) (s : Efforts) (effort : EffortRecord) : Bool :=
  s.history.any fun row =>
    decide (encodeEffortRow secretShaped effort = some row) ||
      decide (decodeEffortRow row = some effort)

/-- The effort that is overwritten is the one that was read, and what is stored can be read. -/
def storesWell (s : Efforts) (found : Asked) : Bool :=
  match storedBy found.exchange with
  | some row => stands s.store.effort found.session && (decodeEffortRow row).isSome
  | none => true

/-- A manager does not fail between effort and lease, or a lease is in the file. -/
def failsWell (s : Efforts) (found : Asked) : Bool :=
  !found.session.call.manages || !isFailed found.next ||
    !storedIn (found.session.past ++ [found.exchange]) || s.store.lease.isSome

/-- A manager does not stop between effort and lease, or a lease is in the file. -/
def stopsWell (s : Efforts) (session : Session) : Bool :=
  !session.call.manages || !isRunning session.program || !storedIn session.past ||
    s.store.lease.isSome

def callsWell (secretShaped : Text → Bool) (s : Efforts) : Move → Bool
  | .call _ (.save _) => false
  | .call _ (.manage effort _ host) => isKnown secretShaped s effort && host ≠ []
  | .call _ (.ending effort) => isKnown secretShaped s effort
  | _ => true

def careful (secretShaped : Text → Bool) (s : Efforts) (move : Move) : Bool :=
  callsWell secretShaped s move &&
    match move with
    | .op id works => (s.asked id works).all fun found => storesWell s found && failsWell s found
    | .stop id => (s.sessions id).all fun session => stopsWell s session
    | _ => true

def Known (secretShaped : Text → Bool) (history : List EffortRow) (effort : EffortRecord) : Prop :=
  ∃ row ∈ history, encodeEffortRow secretShaped effort = some row ∨
    decodeEffortRow row = some effort

def Called (secretShaped : Text → Bool) (history : List EffortRow) : Call → Prop
  | .start _ _ => True
  | .save _ => False
  | .manage effort _ host => Known secretShaped history effort ∧ host ≠ []
  | .ending effort => Known secretShaped history effort

structure Careful (secretShaped : Text → Bool) (s : Efforts) : Prop where
  stored : s.store.effort = s.history.getLast?
  rising : (s.history.map (·.generation)).Pairwise (· < ·)
  readable : ∀ row ∈ s.history, ∃ effort, decodeEffortRow row = some effort ∧
    isSecretFree secretShaped effort = true
  leases : ∀ lease, s.store.lease = some lease → isLeaseDecoded lease = true
  conducted : ∀ id session, s.sessions id = some session → session.Conducted secretShaped
  calls : ∀ id session, s.sessions id = some session → Called secretShaped s.history session.call
  leased : ∀ row, s.store.effort = some row → row.lifecycle = .active →
    s.store.lease.isSome = true ∨ ∃ id session, s.sessions id = some session ∧
      session.call.manages = true ∧ storedIn session.past = true ∧ isRunning session.program = true
  finished : (s.ended = true ∨ ∃ id session effort, s.sessions id = some session ∧
      session.call = .ending effort ∧ storedIn session.past = true) →
    ∃ row, s.store.effort = some row ∧ row.lifecycle = .completed
  late : ∀ id session, s.sessions id = some session → session.afterEnd = true →
    s.ended = true ∧ (session.call.manages = true → storedIn session.past = false)

section
variable {secretShaped : Text → Bool} {effort found : EffortRecord} {row : EffortRow}

lemma secretFree_of_decode (henc : encodeEffortRow secretShaped effort = some row)
    (hdec : decodeEffortRow row = some found) : isSecretFree secretShaped found = true := by
  obtain ⟨-, -, hid, hname, hint, hroute, hfree⟩ := of_encode henc
  obtain ⟨-, -, hid', hname', hint', hroute', -⟩ := of_decode hdec
  unfold isSecretFree at *
  rw [← hid', ← hname', ← hint', ← hroute', hid, hname, hint, hroute]
  exact hfree

end

lemma Called.append {secretShaped : Text → Bool} {history : List EffortRow} {call : Call}
    (h : Called secretShaped history call) (more : List EffortRow) :
    Called secretShaped (history ++ more) call := by
  have hknown : ∀ effort, Known secretShaped history effort →
      Known secretShaped (history ++ more) effort := by
    rintro effort ⟨row, hrow, hmade⟩
    exact ⟨row, List.mem_append_left _ hrow, hmade⟩
  cases call with
  | start intent effortId => trivial
  | save effort => exact h
  | manage effort ttlMs host => exact ⟨hknown effort h.1, h.2⟩
  | ending effort => exact hknown effort h

section
variable {past : List (Exchange FileOp Answer)} {e : Exchange FileOp Answer}

lemma storedBy_eq_some {row : EffortRow} :
    storedBy e = some row ↔ e = ⟨.renameEffort row, some ()⟩ := by
  constructor
  · intro h
    unfold storedBy at h
    split at h
    · cases h
      rfl
    · cases h
  · rintro rfl
    rfl

lemma storedIn_concat : storedIn (past ++ [e]) = (storedIn past || (storedBy e).isSome) := by
  simp [storedIn]

lemma storedIn_of_stored (h : Stored past) : storedIn past = true := by
  obtain ⟨row, hrow⟩ := h
  exact List.any_eq_true.mpr ⟨_, hrow, rfl⟩

end

section
variable {secretShaped : Text → Bool} {s t : Efforts} {id : ℕ} {works : Bool} {found : Asked}

lemma Careful.lifecycle (hs : Careful secretShaped s) {effort : EffortRecord} {stored : EffortRow}
    (hknown : Known secretShaped s.history effort) (hstor : s.store.effort = some stored)
    (hgen : stored.generation = effort.generation) :
    stored.lifecycle = effort.lifecycle := by
  obtain ⟨row, hrow, hmade⟩ := hknown
  have hsame : row.generation = effort.generation ∧ row.lifecycle = effort.lifecycle := by
    rcases hmade with hmade | hmade
    · exact ⟨(of_encode hmade).1, (of_encode hmade).2.1⟩
    · exact ⟨(of_decode hmade).1, (of_decode hmade).2.1⟩
  have hmem : stored ∈ s.history := List.mem_of_getLast? (by rw [← hs.stored, hstor])
  have hnod : (s.history.map (·.generation)).Nodup :=
    hs.rising.imp fun hlt => Nat.ne_of_lt hlt
  have hrows : stored = row :=
    List.inj_on_of_nodup_map hnod hmem hrow (by rw [hgen, hsame.1])
  rw [hrows, hsame.2]

lemma storesWell_of_careful (hok : careful secretShaped s (.op id works) = true)
    (h : s.asked id works = some found) : storesWell s found = true ∧ failsWell s found = true := by
  simpa [careful, callsWell, h] using hok

lemma Careful.overwrites (hs : Careful secretShaped s) (h : s.asked id works = some found)
    (hok : careful secretShaped s (.op id works) = true) {row : EffortRow}
    (he : found.exchange = ⟨.renameEffort row, some ()⟩) :
    (∃ effort, decodeEffortRow row = some effort ∧ isSecretFree secretShaped effort = true) ∧
    ((s.store.effort = none ∧ row.lifecycle = .inbox ∧ found.session.call.manages = false ∧
        ∀ effort, found.session.call ≠ .ending effort) ∨
      ∃ stored, s.store.effort = some stored ∧ row.generation = stored.generation + 1 ∧
        stored.lifecycle ≠ .completed ∧
        ((found.session.call.manages = true ∧ ∀ effort, found.session.call ≠ .ending effort) ∨
          (found.session.call.manages = false ∧ row.lifecycle = .completed))) := by
  obtain ⟨hsess, -, -⟩ := asked_spec h
  obtain ⟨hasks, -⟩ := conducted_asked h (hs.conducted id _ hsess)
  have hcall := hs.calls id _ hsess
  obtain ⟨hstores, -⟩ := storesWell_of_careful hok h
  rw [storesWell, storedBy_eq_some.mpr he, Bool.and_eq_true] at hstores
  obtain ⟨hstands, hsome⟩ := hstores
  obtain ⟨read, hread⟩ := Option.isSome_iff_exists.mp hsome
  rw [he] at hasks
  obtain ⟨-, hwrit, hcomp⟩ := hasks
  have hfoll := follows_of_stands hstands hcomp
  cases hkind : found.session.call with
  | start intent effortId =>
    rw [hkind] at hwrit hfoll
    obtain ⟨now, hrow⟩ := hwrit
    refine ⟨⟨read, hread, secretFree_of_decode hrow hread⟩, .inl ⟨?_, ?_, rfl, ?_⟩⟩
    · simpa [follows] using hfoll
    · exact (of_encode hrow).2.1
    · rintro _ ⟨⟩
  | save effort =>
    rw [hkind] at hcall
    exact hcall.elim
  | manage effort ttlMs host =>
    rw [hkind] at hwrit hfoll hcall
    obtain ⟨hterm, now, hrow⟩ := hwrit
    refine ⟨⟨read, hread, secretFree_of_decode hrow hread⟩, .inr ?_⟩
    obtain ⟨stored, hstor, hnext⟩ := stored_of_follows hfoll
    have hmade : row.generation = effort.generation + 1 := (of_encode hrow).1
    have hlif := hs.lifecycle hcall.1 hstor (by omega)
    refine ⟨stored, hstor, hnext, ?_, .inl ⟨rfl, by rintro _ ⟨⟩⟩⟩
    intro hcompl
    rw [← hlif, hcompl] at hterm
    exact hterm (by decide)
  | ending effort =>
    rw [hkind] at hwrit hfoll hcall
    obtain ⟨hact, now, hrow⟩ := hwrit
    refine ⟨⟨read, hread, secretFree_of_decode hrow hread⟩, .inr ?_⟩
    obtain ⟨stored, hstor, hnext⟩ := stored_of_follows hfoll
    have hmade : row.generation = effort.generation + 1 := (of_encode hrow).1
    have hlif := hs.lifecycle hcall hstor (by omega)
    refine ⟨stored, hstor, hnext, ?_, .inr ⟨rfl, (of_encode hrow).2.1⟩⟩
    rw [hlif, hact]
    rintro ⟨⟩

lemma Careful.next_cases (hs : Careful secretShaped s) (h : s.asked id works = some found) :
    isRunning found.next = true ∨ isFailed found.next = true ∨
      (∃ effort lease, found.next = .done (.managed effort lease) ∧
        found.exchange = ⟨.renameLease lease, some ()⟩) ∨
      (∃ effort ended, found.next = .done (.ended ended) ∧ found.session.call = .ending effort ∧
        storedIn (found.session.past ++ [found.exchange]) = true) ∨
      (found.session.call.manages = false ∧ ∀ ended, found.next ≠ .done (.ended ended)) := by
  obtain ⟨hsess, -, -⟩ := asked_spec h
  have hcond := hs.conducted id _ hsess
  obtain ⟨-, hnext⟩ := conducted_asked h hcond
  cases hprogr : found.next with
  | ask q next => exact .inl rfl
  | fail => exact .inr (.inl rfl)
  | done value =>
    rw [hprogr] at hnext
    cases value with
    | started effort =>
      obtain ⟨⟨intent, effortId, hcall⟩, -⟩ := hnext
      exact .inr (.inr (.inr (.inr ⟨by rw [hcall]; rfl, by rintro _ ⟨⟩⟩)))
    | saved effort =>
      obtain ⟨⟨effort, hcall⟩, -⟩ := hnext
      exact .inr (.inr (.inr (.inr ⟨by rw [hcall]; rfl, by rintro _ ⟨⟩⟩)))
    | managed effort lease =>
      exact .inr (.inr (.inl ⟨effort, lease, rfl, leased_of_managed h hcond hprogr⟩))
    | ended ended =>
      obtain ⟨⟨effort, hcall⟩, hstor⟩ := hnext
      exact .inr (.inr (.inr (.inl
        ⟨effort, ended, rfl, hcall, storedIn_of_stored hstor⟩)))

lemma Careful.endedAfter (hs : Careful secretShaped s) (h : s.asked id works = some found)
    (hend : s.endedAfter found.next = true) : s.ended = true ∨
      ∃ effort, found.session.call = .ending effort ∧
        storedIn (found.session.past ++ [found.exchange]) = true := by
  unfold Efforts.endedAfter at hend
  split at hend
  · next effort hnext =>
      rcases hs.next_cases h with hrun | hfail | ⟨_, _, hdone, -⟩ | ⟨effort, _, -, hcall, hstor⟩ |
        ⟨-, hnot⟩
      · rw [hnext] at hrun
        cases hrun
      · rw [hnext] at hfail
        cases hfail
      · rw [hnext] at hdone
        cases hdone
      · exact .inr ⟨effort, hcall, hstor⟩
      · exact absurd hnext (hnot effort)
  · exact .inl hend

lemma Careful.conducted_answered (hs : Careful secretShaped s)
    (h : s.asked id works = some found) (other : ℕ) (session : Session)
    (hoth : (s.answered id found).sessions other = some session) :
    session.Conducted secretShaped ∧
      Called secretShaped (s.answered id found).history session.call := by
  obtain ⟨hsess, -, -⟩ := asked_spec h
  rcases answered_cases hoth with ⟨-, rfl⟩ | ⟨-, hoth⟩
  · exact ⟨(conducted_asked h (hs.conducted id _ hsess)).2, (hs.calls id _ hsess).append _⟩
  · exact ⟨hs.conducted other session hoth, (hs.calls other session hoth).append _⟩

/-- An operation that does not store the effort: it leaves the lease, writes one, or comes
behind the end. -/
lemma Careful.keeps (hs : Careful secretShaped s) (h : s.asked id works = some found)
    (hok : careful secretShaped s (.op id works) = true) (hnone : storedBy found.exchange = none)
    (heff : found.store.effort = s.store.effort)
    (hlease : ((∀ lease, found.exchange ≠ ⟨.renameLease lease, some ()⟩) ∧
        found.store.lease = s.store.lease) ∨
      (∃ lease, found.store.lease = some lease ∧ isLeaseDecoded lease = true) ∨
      (found.store.lease = none ∧ ∃ row, s.store.effort = some row ∧ row.lifecycle = .completed)) :
    Careful secretShaped (s.answered id found) := by
  obtain ⟨hsess, -, -⟩ := asked_spec h
  obtain ⟨-, hfails⟩ := storesWell_of_careful hok h
  have hhist : (s.answered id found).history = s.history := by
    simp [Efforts.answered, hnone]
  have hpast : storedIn (found.session.past ++ [found.exchange]) = storedIn found.session.past := by
    rw [storedIn_concat, hnone, Option.isSome_none, Bool.or_false]
  refine ⟨?_, by rw [hhist]; exact hs.rising, by rw [hhist]; exact hs.readable, ?_,
    fun other session hoth => (hs.conducted_answered h other session hoth).1,
    fun other session hoth => (hs.conducted_answered h other session hoth).2, ?_, ?_, ?_⟩
  · rw [hhist, ← hs.stored]
    exact heff
  · intro lease hfound
    change found.store.lease = some lease at hfound
    rcases hlease with ⟨-, hsame⟩ | ⟨written, hwritt, hdecod⟩ | ⟨hgone, -⟩
    · exact hs.leases lease (by rw [← hsame]; exact hfound)
    · rw [hwritt] at hfound
      cases hfound
      exact hdecod
    · rw [hgone] at hfound
      cases hfound
  · intro row hrow hact
    change found.store.effort = some row at hrow
    rw [heff] at hrow
    have hstays : s.store.lease.isSome = true → (s.answered id found).store.lease.isSome = true := by
      intro hsome
      rcases hlease with ⟨-, hsame⟩ | ⟨written, hwritt, -⟩ | ⟨-, stored, hstor, hcompl⟩
      · change found.store.lease.isSome = true
        rw [hsame]
        exact hsome
      · change found.store.lease.isSome = true
        rw [hwritt]
        rfl
      · rw [hstor] at hrow
        cases hrow
        rw [hact] at hcompl
        cases hcompl
    rcases hs.leased row hrow hact with hsome | ⟨other, session, hoth, hman, hstor, hrun⟩
    · exact .inl (hstays hsome)
    · by_cases hid : other = id
      · subst hid
        rw [hsess] at hoth
        cases hoth
        rcases hs.next_cases h with hrun | hfailed | ⟨effort, lease, hnext, he⟩ |
          ⟨effort, ended, -, hcall, -⟩ | ⟨hnot, -⟩
        · refine .inr ⟨other, _, Function.update_self .., hman, ?_, hrun⟩
          exact hpast.trans hstor
        · apply Or.inl
          apply hstays
          simpa [failsWell, hman, hfailed, hpast, hstor] using hfails
        · rcases hlease with ⟨hnotL, -⟩ | ⟨written, hwritt, -⟩ | ⟨-, stored, hleft, hcompl⟩
          · exact absurd he (hnotL lease)
          · apply Or.inl
            change found.store.lease.isSome = true
            rw [hwritt]
            rfl
          · rw [hleft] at hrow
            cases hrow
            rw [hact] at hcompl
            cases hcompl
        · rw [hcall] at hman
          cases hman
        · rw [hman] at hnot
          cases hnot
      · refine .inr ⟨other, session, ?_, hman, hstor, hrun⟩
        rw [← hoth]
        exact Function.update_of_ne hid ..
  · intro hfin
    have hbef : s.ended = true ∨ ∃ id session effort, s.sessions id = some session ∧
        session.call = .ending effort ∧ storedIn session.past = true := by
      rcases hfin with hend | ⟨other, session, effort, hoth, hcall, hstor⟩
      · rcases hs.endedAfter h hend with hend | ⟨effort, hcall, hstor⟩
        · exact .inl hend
        · exact .inr ⟨id, _, effort, hsess, hcall, hpast.symm.trans hstor⟩
      · rcases answered_cases hoth with ⟨-, rfl⟩ | ⟨-, hoth⟩
        · exact .inr ⟨id, _, effort, hsess, hcall, hpast.symm.trans hstor⟩
        · exact .inr ⟨other, session, effort, hoth, hcall, hstor⟩
    obtain ⟨row, hrow, hcompl⟩ := hs.finished hbef
    exact ⟨row, heff.trans hrow, hcompl⟩
  · intro other session hoth hlate
    have hmono : s.ended = true → (s.answered id found).ended = true := by
      intro hend
      simp only [Efforts.answered, Efforts.endedAfter]
      split
      · rfl
      · exact hend
    rcases answered_cases hoth with ⟨-, rfl⟩ | ⟨-, hoth⟩
    · obtain ⟨hend, hnotSt⟩ := hs.late id _ hsess hlate
      exact ⟨hmono hend, fun hman => hpast.trans (hnotSt hman)⟩
    · obtain ⟨hend, hnotSt⟩ := hs.late other session hoth hlate
      exact ⟨hmono hend, hnotSt⟩

lemma Careful.stores (hs : Careful secretShaped s) (h : s.asked id works = some found)
    (hok : careful secretShaped s (.op id works) = true) {row : EffortRow}
    (he : found.exchange = ⟨.renameEffort row, some ()⟩)
    (hstore : found.store = { s.store with effort := some row }) :
    Careful secretShaped (s.answered id found) := by
  obtain ⟨hsess, -, -⟩ := asked_spec h
  obtain ⟨-, hfails⟩ := storesWell_of_careful hok h
  obtain ⟨hreads, hover⟩ := hs.overwrites h hok he
  have hhist : (s.answered id found).history = s.history ++ [row] := by
    simp [Efforts.answered, he, storedBy]
  have heff : (s.answered id found).store.effort = some row := by
    simp [Efforts.answered, hstore]
  have hlease : (s.answered id found).store.lease = s.store.lease := by
    simp [Efforts.answered, hstore]
  have hpast : storedIn (found.session.past ++ [found.exchange]) = true := by
    rw [storedIn_concat, he]
    exact Bool.or_true _
  -- An end that was about to complete had stored before, and nothing is stored over that.
  have hunf : s.ended = false ∧ ∀ other session effort,
      s.sessions other = some session → session.call = .ending effort →
        storedIn session.past = false := by
    have hnot : ¬ ∃ stored, s.store.effort = some stored ∧ stored.lifecycle = .completed := by
      rintro ⟨stored, hstor, hcompl⟩
      rcases hover with ⟨hnone, -⟩ | ⟨before, hfound, -, hopen, -⟩
      · rw [hnone] at hstor
        cases hstor
      · rw [hfound] at hstor
        cases hstor
        exact hopen hcompl
    constructor
    · apply Bool.eq_false_iff.mpr
      intro hend
      exact hnot (hs.finished (.inl hend))
    · intro other session effort hoth hcall
      apply Bool.eq_false_iff.mpr
      intro hstor
      exact hnot (hs.finished (.inr ⟨other, session, effort, hoth, hcall, hstor⟩))
  refine ⟨by rw [heff, hhist, List.getLast?_concat], ?_, ?_, ?_,
    fun other session hoth => (hs.conducted_answered h other session hoth).1,
    fun other session hoth => (hs.conducted_answered h other session hoth).2, ?_, ?_, ?_⟩
  · rw [hhist]
    rcases hover with ⟨hnone, -⟩ | ⟨stored, hstor, hnext, -⟩
    · have hempty : s.history = [] := by
        rw [← List.getLast?_eq_none_iff, ← hs.stored, hnone]
      rw [hempty]
      exact List.pairwise_singleton _ _
    · exact rising_concat hs.rising (hs.stored.symm.trans hstor) (by omega)
  · rw [hhist]
    intro written hwritt
    rcases List.mem_append.mp hwritt with hwritt | hwritt
    · exact hs.readable written hwritt
    · rw [List.mem_singleton.mp hwritt]
      exact hreads
  · intro lease hfound
    rw [hlease] at hfound
    exact hs.leases lease hfound
  · intro written hwritt hact
    rw [heff] at hwritt
    cases hwritt
    rcases hover with ⟨-, hinb, -⟩ | ⟨stored, -, -, -, ⟨hman, hnotEnd⟩ | ⟨-, hcompl⟩⟩
    · rw [hact] at hinb
      cases hinb
    · rcases hs.next_cases h with hrun | hfailed | ⟨effort, lease, -, heLease⟩ |
        ⟨effort, ended, -, hcall, -⟩ | ⟨hnot, -⟩
      · exact .inr ⟨id, _, Function.update_self .., hman, hpast, hrun⟩
      · apply Or.inl
        rw [hlease]
        simpa [failsWell, hman, hfailed, hpast] using hfails
      · rw [he] at heLease
        cases heLease
      · exact absurd hcall (hnotEnd effort)
      · rw [hman] at hnot
        cases hnot
    · rw [hact] at hcompl
      cases hcompl
  · intro hfin
    refine ⟨row, heff, ?_⟩
    have hending : ∃ effort, found.session.call = .ending effort := by
      rcases hfin with hend | ⟨other, session, effort, hoth, hcall, hstor⟩
      · rcases hs.endedAfter h hend with hend | ⟨effort, hcall, -⟩
        · rw [hunf.1] at hend
          cases hend
        · exact ⟨effort, hcall⟩
      · rcases answered_cases hoth with ⟨-, rfl⟩ | ⟨-, hoth⟩
        · exact ⟨effort, hcall⟩
        · rw [hunf.2 other session effort hoth hcall] at hstor
          cases hstor
    obtain ⟨effort, hcall⟩ := hending
    rcases hover with ⟨-, -, -, hnot⟩ | ⟨_, -, -, -, ⟨-, hnot⟩ | ⟨-, hcompl⟩⟩
    · exact absurd hcall (hnot effort)
    · exact absurd hcall (hnot effort)
    · exact hcompl
  · intro other session hoth hlate
    rcases answered_cases hoth with ⟨-, rfl⟩ | ⟨-, hoth⟩
    · obtain ⟨hend, -⟩ := hs.late id _ hsess hlate
      rw [hunf.1] at hend
      cases hend
    · obtain ⟨hend, -⟩ := hs.late other session hoth hlate
      rw [hunf.1] at hend
      cases hend

lemma Careful.answered (hs : Careful secretShaped s) (h : s.asked id works = some found)
    (hok : careful secretShaped s (.op id works) = true) :
    Careful secretShaped (s.answered id found) := by
  obtain ⟨hsess, hchang, -⟩ := asked_spec h
  have hcond := hs.conducted id _ hsess
  obtain ⟨hasks, -⟩ := conducted_asked h hcond
  have hcalled := hs.calls id _ hsess
  rcases hchang with ⟨row, he, hstore⟩ | ⟨lease, he, hstore⟩ | ⟨answer, he, hstore⟩ |
    ⟨hnone, hnot, hstore⟩
  · exact hs.stores h hok he hstore
  · refine hs.keeps h hok (by rw [he]; rfl) (by rw [hstore]) (.inr (.inl ⟨lease, by rw [hstore], ?_⟩))
    rw [he] at hasks
    obtain ⟨-, effort, ttlMs, host, hcall, -, hid, hhost, hgen⟩ := hasks
    rw [hcall] at hcalled
    obtain ⟨⟨row, hrow, hmade⟩, hnotEmpty⟩ := hcalled
    have hidR : effort.effortId ≠ [] := by
      obtain ⟨read, hread, -⟩ := hs.readable row hrow
      have hrowId := (of_decode hread).2.2.2.2.2.2
      rcases hmade with hmade | hmade
      · rw [← (of_encode hmade).2.2.1]
        exact hrowId
      · rw [← (of_decode hmade).2.2.1]
        exact hrowId
    simp [isLeaseDecoded, hid, hhost, hgen, hidR, hnotEmpty]
  · refine hs.keeps h hok (by rw [he]; rfl) (by rw [hstore]) (.inr (.inr ⟨by rw [hstore], ?_⟩))
    rw [he] at hasks
    obtain ⟨-, ⟨effort, hcall⟩, hstor⟩ := hasks
    exact hs.finished (.inr ⟨id, _, effort, hsess, hcall, storedIn_of_stored hstor⟩)
  · exact hs.keeps h hok hnone (by rw [hstore]) (.inl ⟨hnot, by rw [hstore]⟩)

lemma careful_first : Careful secretShaped .first := by
  refine ⟨rfl, .nil, ?_, ?_, ?_, ?_, ?_, ?_, ?_⟩
  · rintro row ⟨⟩
  · rintro lease ⟨⟩
  · rintro id session ⟨⟩
  · rintro id session ⟨⟩
  · rintro row ⟨⟩
  · rintro (⟨⟨⟩⟩ | ⟨_, _, _, ⟨⟩, -⟩)
  · rintro id session ⟨⟩

lemma known_of_isKnown {effort : EffortRecord} (h : isKnown secretShaped s effort = true) :
    Known secretShaped s.history effort := by
  obtain ⟨row, hrow, hmade⟩ := List.any_eq_true.mp h
  rw [Bool.or_eq_true, decide_eq_true_iff, decide_eq_true_iff] at hmade
  exact ⟨row, hrow, hmade⟩

lemma called_of_careful {call : Call} (hok : careful secretShaped s (.call id call) = true) :
    Called secretShaped s.history call := by
  have hcalls : callsWell secretShaped s (.call id call) = true := (Bool.and_eq_true_iff.mp hok).1
  cases call with
  | start intent effortId => trivial
  | save effort => cases hcalls
  | manage effort ttlMs host =>
    obtain ⟨hknown, hhost⟩ := Bool.and_eq_true_iff.mp hcalls
    exact ⟨known_of_isKnown hknown, by simpa using hhost⟩
  | ending effort => exact known_of_isKnown hcalls

lemma Careful.call (hs : Careful secretShaped s) {call : Call} (hnone : s.sessions id = none)
    (hcalled : Called secretShaped s.history call) :
    Careful secretShaped (s.setSession id
      (some ⟨call, s.time, [], call.program secretShaped s.time, s.ended⟩)) := by
  refine ⟨hs.stored, hs.rising, hs.readable, hs.leases, ?_, ?_, ?_, ?_, ?_⟩
  · intro other session hoth
    rcases setSession_cases hoth with ⟨-, hput⟩ | ⟨-, hoth⟩
    · cases hput
      exact program_conducts call s.time s.ended
    · exact hs.conducted other session hoth
  · intro other session hoth
    rcases setSession_cases hoth with ⟨-, hput⟩ | ⟨-, hoth⟩
    · cases hput
      exact hcalled
    · exact hs.calls other session hoth
  · intro row hrow hact
    rcases hs.leased row hrow hact with hsome | ⟨other, session, hoth, hmanager⟩
    · exact .inl hsome
    · refine .inr ⟨other, session, ?_, hmanager⟩
      rw [← hoth]
      apply Function.update_of_ne
      rintro rfl
      rw [hnone] at hoth
      cases hoth
  · rintro (hend | ⟨other, session, effort, hoth, hcall, hstor⟩)
    · exact hs.finished (.inl hend)
    · rcases setSession_cases hoth with ⟨-, hput⟩ | ⟨-, hoth⟩
      · cases hput
        cases hstor
      · exact hs.finished (.inr ⟨other, session, effort, hoth, hcall, hstor⟩)
  · intro other session hoth hlate
    rcases setSession_cases hoth with ⟨-, hput⟩ | ⟨-, hoth⟩
    · cases hput
      exact ⟨hlate, fun _ => rfl⟩
    · exact hs.late other session hoth hlate

lemma Careful.stop (hs : Careful secretShaped s) (hok : careful secretShaped s (.stop id) = true) :
    Careful secretShaped (s.setSession id none) := by
  have hleft : ∀ other session, (s.setSession id none).sessions other = some session →
      s.sessions other = some session := by
    intro other session hoth
    rcases setSession_cases hoth with ⟨-, hput⟩ | ⟨-, hoth⟩
    · cases hput
    · exact hoth
  refine ⟨hs.stored, hs.rising, hs.readable, hs.leases,
    fun other session hoth => hs.conducted other session (hleft other session hoth),
    fun other session hoth => hs.calls other session (hleft other session hoth), ?_, ?_,
    fun other session hoth => hs.late other session (hleft other session hoth)⟩
  · intro row hrow hact
    rcases hs.leased row hrow hact with hsome | ⟨other, session, hoth, hman, hstor, hrun⟩
    · exact .inl hsome
    · by_cases hid : other = id
      · subst hid
        apply Or.inl
        have hstops : stopsWell s session = true := by simpa [careful, callsWell, hoth] using hok
        change s.store.lease.isSome = true
        simpa [stopsWell, hman, hrun, hstor] using hstops
      · refine .inr ⟨other, session, ?_, hman, hstor, hrun⟩
        rw [← hoth]
        exact Function.update_of_ne hid ..
  · rintro (hend | ⟨other, session, effort, hoth, hcall, hstor⟩)
    · exact hs.finished (.inl hend)
    · exact hs.finished (.inr ⟨other, session, effort, hleft other session hoth, hcall, hstor⟩)

lemma Careful.next (hs : Careful secretShaped s) {move : Move}
    (hok : careful secretShaped s move = true)
    (hstep : (sessions secretShaped).next s move = some t) : Careful secretShaped t := by
  cases move with
  | tick time =>
    simp only [sessions] at hstep
    split_ifs at hstep
    cases hstep
    exact ⟨hs.stored, hs.rising, hs.readable, hs.leases, hs.conducted, hs.calls, hs.leased,
      hs.finished, hs.late⟩
  | call id call =>
    simp only [sessions] at hstep
    split at hstep
    · next hnone =>
        cases hstep
        exact hs.call hnone (called_of_careful hok)
    · cases hstep
  | op id works =>
    obtain ⟨found, hask, rfl⟩ := Option.map_eq_some_iff.mp hstep
    exact hs.answered hask hok
  | stop id =>
    simp only [sessions] at hstep
    split at hstep
    · cases hstep
      exact hs.stop hok
    · cases hstep

end

section
variable {secretShaped : Text → Bool} {store : Store} {effort : EffortRecord}
  {options : ManageEffortOptions}

lemma readLease_performed
    (h : ∀ lease, store.lease = some lease → isLeaseDecoded lease = true) :
    readLease.performed perform store = (some store.lease, store) := by
  have hread : (attempt FileOp.readLease).performed perform store = (some store.lease, store) := rfl
  unfold readLease
  rw [performed_bind hread]
  cases hlease : store.lease with
  | none => rfl
  | some lease =>
    dsimp only
    rw [if_pos (h lease hlease)]
    rfl

lemma readEffort_performed {row : EffortRow} (hstor : store.effort = some row)
    (hdec : decodeEffortRow row = some effort) :
    readEffort.performed perform store = (some (some effort), store) := by
  have hread : (attempt FileOp.readEffort).performed perform store = (some store.effort, store) := rfl
  unfold readEffort
  rw [performed_bind hread, hstor]
  dsimp only
  rw [hdec]
  rfl

lemma writeEffortAtomic_performed {row : EffortRow}
    (h : encodeEffortRow secretShaped effort = some row) :
    (writeEffortAtomic secretShaped effort).performed perform store =
      (some (), { store with effort := some row }) := by
  unfold writeEffortAtomic
  rw [h]
  rfl

lemma writeLeaseAtomic_performed (lease : EffortLease) :
    (writeLeaseAtomic lease).performed perform store =
      (some (), { store with lease := some lease }) := rfl

lemma saveEffort_performed {row written : EffortRow} {found : EffortRecord} {now : ℤ}
    (hstor : store.effort = some row) (hdec : decodeEffortRow row = some found)
    (hgen : found.generation = effort.generation)
    (henc : encodeEffortRow secretShaped (bumped effort now) = some written) :
    (saveEffort secretShaped effort now).performed perform store =
      (some (bumped effort now), { store with effort := some written }) := by
  unfold saveEffort
  rw [performed_bind (readEffort_performed hstor hdec)]
  dsimp only
  rw [if_neg (by rw [hgen]; exact fun hne => hne rfl),
    performed_bind (writeEffortAtomic_performed henc)]
  rfl

lemma manageEffort_performed {row : EffortRow} (hstor : store.effort = some row)
    (hdec : decodeEffortRow row = some effort)
    (hfree : isSecretFree secretShaped effort = true)
    (hlease : ∀ lease, store.lease = some lease → isLeaseDecoded lease = true)
    (hmay : mayManage effort options store.lease = true) :
    ∃ lease after, (manageEffort secretShaped effort options).performed perform store =
      (some (bumped { effort with lifecycle := targetLifecycle effort } options.now, lease),
        after) := by
  let saved := bumped { effort with lifecycle := targetLifecycle effort } options.now
  obtain ⟨written, henc⟩ : ∃ written, encodeEffortRow secretShaped saved = some written := by
    have hbump : isSecretFree secretShaped saved = true := hfree
    unfold encodeEffortRow
    rw [if_pos hbump]
    exact ⟨_, rfl⟩
  have hsav : (saveEffort secretShaped { effort with lifecycle := targetLifecycle effort }
      options.now).performed perform store = (some saved, { store with effort := some written }) :=
    saveEffort_performed hstor hdec rfl henc
  refine ⟨grantedLease saved options,
    { store with effort := some written, lease := some (grantedLease saved options) }, ?_⟩
  unfold manageEffort
  rw [performed_bind (readLease_performed hlease), if_pos hmay,
    performed_bind hsav, performed_bind (writeLeaseAtomic_performed _)]
  rfl

lemma manageEffort_refused (hcompl : effort.lifecycle ∈ terminal)
    (hlease : ∀ lease, store.lease = some lease → isLeaseDecoded lease = true) :
    (manageEffort secretShaped effort options).performed perform store = (none, store) := by
  have hmay : mayManage effort options store.lease = false := by
    apply Bool.eq_false_iff.mpr
    intro hmay
    exact mayManage_notTerminal hmay hcompl
  unfold manageEffort
  rw [performed_bind (readLease_performed hlease), if_neg (by rw [hmay]; exact Bool.false_ne_true)]
  rfl

end

section
variable {secretShaped : Text → Bool} {s : Efforts}

/-- Where no manager leaves an effort without a lease, and what is overwritten is what was compared:
unless a manager is at work, an effort that is stored can be managed once its lease has expired, if
it has not ended. -/
theorem taken_up
    (h : (sessions secretShaped).Reach (fun s move => careful secretShaped s move = true) s) :
    (∀ row, s.store.effort = some row → ∃ effort, decodeEffortRow row = some effort ∧
      ((∀ id session, s.sessions id = some session → session.call.manages = true →
          isRunning session.program = false) →
        row.lifecycle ∉ terminal → ∀ options : ManageEffortOptions,
        (∀ lease, s.store.lease = some lease → isLeaseExpired lease options.now = true) →
        ∃ managed after, (manageEffort secretShaped effort options).performed perform s.store =
          (some managed, after)) ∧
      (s.ended = true → ∀ options,
        (manageEffort secretShaped effort options).performed perform s.store = (none, s.store))) ∧
    ∀ id session, s.sessions id = some session → session.afterEnd = true →
      ∀ effort lease, session.program ≠ .done (.managed effort lease) := by
  have hs : Careful secretShaped s := by
    apply h.inv
    · rintro _ rfl
      exact careful_first
    · intro s move t hs hok hstep
      exact hs.next hok hstep
  constructor
  · intro row hrow
    have hmem : row ∈ s.history := List.mem_of_getLast? (by rw [← hs.stored, hrow])
    obtain ⟨effort, hdec, hfree⟩ := hs.readable row hmem
    have hlif : row.lifecycle = effort.lifecycle := (of_decode hdec).2.1
    refine ⟨effort, hdec, ?_, ?_⟩
    · intro hquiet hopen options hexp
      have hmay : mayManage effort options s.store.lease = true := by
        cases hlease : s.store.lease with
        | none =>
          -- An active effort without a lease would have a manager at work.
          have hnotAct : effort.lifecycle ≠ .active := by
            intro hact
            rcases hs.leased row hrow (hlif.trans hact) with hsome |
              ⟨id, session, hsess, hman, -, hrun⟩
            · rw [hlease] at hsome
              cases hsome
            · rw [hquiet id session hsess hman] at hrun
              cases hrun
          rw [hlif] at hopen
          cases hkind : effort.lifecycle <;> simp_all [mayManage, resumable, terminal]
        | some lease =>
          rw [hlif] at hopen
          simp [mayManage, hexp lease hlease, hopen]
      obtain ⟨lease, after, hperf⟩ :=
        manageEffort_performed hrow hdec hfree hs.leases hmay
      exact ⟨_, after, hperf⟩
    · intro hend options
      obtain ⟨stored, hstor, hcompl⟩ := hs.finished (.inl hend)
      rw [hrow] at hstor
      cases hstor
      apply manageEffort_refused
      · rw [← hlif, hcompl]
        decide
      · exact hs.leases
  · intro id session hsess hlate effort lease hdone
    obtain ⟨-, hnotSt⟩ := hs.late id session hsess hlate
    have hcond := hs.conducted id session hsess
    unfold Session.Conducted at hcond
    rw [hdone] at hcond
    obtain ⟨⟨managed, ttlMs, host, hcall⟩, hstor, -⟩ := hcond
    have hpast := hnotSt (by rw [hcall]; rfl)
    rw [storedIn_of_stored hstor] at hpast
    cases hpast

end

section

def begun : EffortRecord := startedEffort ⟨['i'], 0, ['e']⟩

def stoppedBetween : List Move :=
  startedAlone ++ Move.call 1 (.manage begun 5 ['h']) :: List.replicate 5 (.op 1 true) ++
    [Move.stop 1]

/-- A manager stops before it writes its lease, and the effort is never taken up again. -/
theorem stopped_manager_strands : ¬ ∀ (secretShaped : Text → Bool) (s : Efforts),
    (sessions secretShaped).Reach (fun s move => callsWell secretShaped s move = true) s →
      (∀ id, (s.sessions id).all (fun session => !isRunning session.program) = true) →
      ∀ row effort, s.store.effort = some row → decodeEffortRow row = some effort →
        row.lifecycle ∉ terminal → ∀ options : ManageEffortOptions,
        (∀ lease, s.store.lease = some lease → isLeaseExpired lease options.now = true) →
        ∃ managed after, (manageEffort secretShaped effort options).performed perform s.store =
          (some managed, after) := by
  intro hall
  let row : EffortRow := ⟨['e'], ['i'], ['i'], .active, 2, 0, 0, none, none, none⟩
  obtain ⟨s, hreach, hstore, hquiet⟩ : ∃ s, (sessions fun _ => false).Reach
      (fun s move => callsWell (fun _ => false) s move = true) s ∧ s.store = ⟨some row, none⟩ ∧
        ∀ id, (s.sessions id).all (fun session => !isRunning session.program) = true := by
    refine ⟨_, ⟨.first, stoppedBetween, rfl, Machine.run_of_execIf rfl⟩, rfl, ?_⟩
    intro id
    rcases id with _ | _ | id
    · rfl
    · rfl
    · rfl
  have hdec : decodeEffortRow row = some
      ⟨['e'], ['i'], ['i'], .active, 2, 0, 0, none, none, none⟩ := by decide
  obtain ⟨managed, after, hmanag⟩ := hall _ s hreach hquiet row _ (by rw [hstore]) hdec
    (by decide) ⟨100, 5, ['h']⟩ (by rw [hstore]; rintro _ ⟨⟩)
  rw [hstore] at hmanag
  have href : (manageEffort (fun _ => false)
      ⟨['e'], ['i'], ['i'], .active, 2, 0, 0, none, none, none⟩ ⟨100, 5, ['h']⟩).performed perform
        ⟨some row, none⟩ = (none, ⟨some row, none⟩) := rfl
  cases hmanag

theorem managed_again : ∃ (s : Efforts) (row : EffortRow) (effort : EffortRecord),
    s.store.effort = some row ∧ row.lifecycle = .active ∧ decodeEffortRow row = some effort ∧
      ∃ managed after, (manageEffort (fun _ => false) effort ⟨9, 5, ['g']⟩).performed perform
        s.store = (some managed, after) := by
  let row : EffortRow := ⟨['e'], ['i'], ['i'], .active, 2, 0, 0, none, none, none⟩
  obtain ⟨s, hreach, hstore, hquiet⟩ : ∃ s, (sessions fun _ => false).Reach
      (fun s move => careful (fun _ => false) s move = true) s ∧
        s.store = ⟨some row, some ⟨['e'], ['h'], 2, 0, 5⟩⟩ ∧
        ∀ id, (s.sessions id).all (fun session => !isRunning session.program) = true := by
    refine ⟨_, ⟨.first, startedAlone ++ .call 1 (.manage begun 5 ['h']) ::
      List.replicate 8 (.op 1 true), rfl, Machine.run_of_execIf rfl⟩, rfl, ?_⟩
    intro id
    rcases id with _ | _ | id
    · rfl
    · rfl
    · rfl
  obtain ⟨effort, hdec, hmanage, -⟩ := (taken_up hreach).1 row (by rw [hstore])
  refine ⟨s, row, effort, by rw [hstore], rfl, hdec, hmanage ?_ (by decide) _ ?_⟩
  · intro id session hsess _
    have hid := hquiet id
    rw [hsess] at hid
    simpa using hid
  · rw [hstore]
    rintro _ ⟨⟩
    decide

end
end Redskilled.Manager
