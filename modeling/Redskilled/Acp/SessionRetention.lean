import Redskilled.Acp.SessionJournal
import Redskilled.Foundation.Retention

/-!
# Which sessions the journal knows

Opening a session runs the retention over all the others. A session outlasts it where it
has entries or evidence, or was used within the time to live of a session without them,
and where it is among the newest. Nothing else makes the journal forget a session, and
whether a session is held open is not asked.
-/
namespace Redskilled.Acp.SessionJournal
open Foundation

section
variable (locale : Locale)

/-- The record outlasts the retention of the sessions at `nowMs`: it is no empty one past
its time to live, and among those that are not no more than the journal retains, itself
counted, are at least as new. -/
def Outlasts (sessions : Sessions) (nowMs : Option ℤ) (held : AcpSessionJournalRecord) : Prop :=
  (0 < held.entries.length ∨ 0 < held.sessionEvidence.length ∨
    ∃ now ∈ nowMs, now - stampOf locale held ≤ acpSessionEmptyTtlMs) ∧
  (sessions.values.filter (lasts locale nowMs)).countP
    (fun other => stampOf locale held ≤ stampOf locale other) ≤ acpSessionJournalCap

/-- The step opens no other session, or the session outlasts its retention. -/
def Retains (id : Text) (journal : Journal) : JournalStep → Prop
  | .call (.create other _) now =>
    other = id ∨ ∃ held, journal.sessions.lookup id = some held ∧
      Outlasts locale journal.sessions (locale.dateParse now) held
  | _ => True

def Keyed (sessions : Sessions) : Prop :=
  ∀ id held, sessions.lookup id = some held → held.publicSessionId = id

variable {locale} {call : Call} {now id : Text} {held sessions : Sessions}

variable {journal journal' : Journal} {record : AcpSessionJournalRecord}

lemma Keyed.set (h : Keyed held)
    (hrec : record.publicSessionId = id) : Keyed (held.set id record) := by
  intro other found hfound
  rw [JsMap.lookup_set] at hfound
  split_ifs at hfound with heq
  · cases hfound
    rw [hrec, heq]
  · exact h other found hfound

lemma keyed_foldl_set (records : List AcpSessionJournalRecord) (h : Keyed held) :
    Keyed (records.foldl (fun m record => m.set record.publicSessionId record) held) := by
  induction records generalizing held with
  | nil => exact h
  | cons record records ih => exact ih (h.set rfl)

lemma keyed_ofRecords (records : List AcpSessionJournalRecord) : Keyed (ofRecords records) :=
  keyed_foldl_set records fun _ _ hnone => nomatch hnone

lemma keyed_of_persist (hheld : Keyed held)
    (h : begin locale call now held = .persist sessions) : Keyed sessions := by
  rcases persist_cases h with ⟨other, project, _, rfl⟩ |
    ⟨other, record, changed, hfound, hchange, rfl⟩ | ⟨fromId, toId, label, rfl⟩
  · exact (keyed_ofRecords _).set rfl
  · have hrec := hheld other record hfound
    apply hheld.set
    rcases hchange with ⟨input, rfl⟩ | ⟨workerId, report, rfl⟩
    · exact hrec
    · exact hrec
  · intro other record hrec
    rw [JsMap.lookup_mapValues, Option.map_eq_some_iff] at hrec
    obtain ⟨found, hfound, rfl⟩ := hrec
    unfold AcpSessionJournalRecord.rekey
    split_ifs
    · exact hheld other found hfound
    · exact hheld other found hfound

lemma byStamp_trans (a b c : AcpSessionJournalRecord) (hab : byStamp locale a b)
    (hbc : byStamp locale b c) : byStamp locale a c := by
  simp only [byStamp, decide_eq_true_eq] at hab hbc ⊢
  exact hbc.trans hab

lemma byStamp_total (a b : AcpSessionJournalRecord) : byStamp locale a b || byStamp locale b a := by
  simp only [byStamp, Bool.or_eq_true, decide_eq_true_eq]
  exact le_total _ _

lemma mem_compact_of_outlasts {nowMs : Option ℤ}
    (hmem : record ∈ held.values) (h : Outlasts locale held nowMs record) :
    record ∈ compactAcpSessions locale held.values nowMs := by
  obtain ⟨hlasts, hcount⟩ := h
  have hlast : lasts locale nowMs record = true := by
    simp only [lasts, Bool.or_eq_true, decide_eq_true_eq, Option.any_eq_true]
    rw [or_assoc]
    exact hlasts
  have hfilt := List.mem_filter.mpr ⟨hmem, hlast⟩
  have htak := mem_take_mergeSort byStamp_trans byStamp_total hfilt hcount
  exact List.mem_mergeSort.mpr htak

lemma mem_ofRecords_compact {nowMs : Option ℤ}
    (hkeyed : Keyed held) (hfound : held.lookup id = some record)
    (houtl : Outlasts locale held nowMs record) :
    id ∈ ofRecords (compactAcpSessions locale held.values nowMs) := by
  apply JsMap.mem_ofRecords.mpr
  have hmem := mem_compact_of_outlasts (JsMap.mem_values.mpr ⟨id, hfound⟩) houtl
  exact List.mem_map.mpr ⟨record, hmem, hkeyed id record hfound⟩

lemma mem_of_persist (hkeyed : Keyed journal.sessions)
    (hid : id ∈ journal.sessions) (hok : Retains locale id journal (.call call now))
    (h : begin locale call now journal.sessions = .persist sessions) : id ∈ sessions := by
  rcases persist_cases h with ⟨other, project, rfl, rfl⟩ |
    ⟨other, record, changed, hfound, hchange, rfl⟩ | ⟨fromId, toId, label, rfl⟩
  · apply JsMap.mem_set.mpr
    rcases hok with rfl | ⟨record, hfound, houtl⟩
    · exact .inl rfl
    · exact .inr (mem_ofRecords_compact hkeyed hfound houtl)
  · exact JsMap.mem_set.mpr (.inr hid)
  · exact JsMap.mem_mapValues.mpr hid

lemma sessions_call (journal : Journal) (call : Call) (now : Text) :
    (journal.call locale call now).sessions = journal.sessions ∨
      begin locale call now journal.sessions =
        .persist (journal.call locale call now).sessions := by
  unfold Journal.call
  cases begin locale call now journal.sessions with
  | unknownSession => exact .inl rfl
  | done => exact .inl rfl
  | persist sessions => exact .inr rfl

lemma sessions_writeSnapshot {writable : Bool}
    (h : journal.writeSnapshot writable = some journal') : journal'.sessions = journal.sessions := by
  unfold Journal.writeSnapshot at h
  cases hpend : journal.pending with
  | nil => simp [hpend] at h
  | cons write rest =>
    simp only [hpend] at h
    split_ifs at h <;> (obtain rfl := Option.some.inj h; rfl)

lemma keyed_next {step : JournalStep}
    (hkeyed : Keyed journal.sessions) (h : (journaling locale).next journal step = some journal') :
    Keyed journal'.sessions := by
  cases step with
  | call call now =>
    cases h
    rcases sessions_call journal call now with heq | hpers
    · rw [heq]
      exact hkeyed
    · exact keyed_of_persist hkeyed hpers
  | writeSnapshot writable =>
    rw [sessions_writeSnapshot h]
    exact hkeyed

lemma keyed_of_reach {ok : Journal → JournalStep → Prop}
    (h : (journaling locale).Reach ok journal) : Keyed journal.sessions := by
  apply h.inv fun journal => Keyed journal.sessions
  · intro journal hstart
    obtain ⟨file, now, _, rfl⟩ := hstart
    exact keyed_ofRecords _
  · exact fun _ _ _ hkeyed _ hnext => keyed_next hkeyed hnext

lemma mem_of_run {steps : List JournalStep}
    (hkeyed : Keyed journal.sessions) (hid : id ∈ journal.sessions)
    (h : (journaling locale).Run (Retains locale id) journal steps journal') :
    id ∈ journal'.sessions := by
  have hboth : Keyed journal'.sessions ∧ id ∈ journal'.sessions := by
    apply h.inv fun journal => Keyed journal.sessions ∧ id ∈ journal.sessions
    · intro s step t hs hok hnext
      refine ⟨keyed_next hs.1 hnext, ?_⟩
      cases step with
      | call call now =>
        cases hnext
        rcases sessions_call s call now with heq | hpers
        · rw [heq]
          exact hs.2
        · exact mem_of_persist hs.1 hs.2 hok hpers
      | writeSnapshot writable =>
        rw [sessions_writeSnapshot hnext]
        exact hs.2
    · exact ⟨hkeyed, hid⟩
  exact hboth.2

def Call.session : Call → Option Text
  | .create _ _ => none
  | .prompt id _ => some id
  | .update id body => if body.sessionUpdate = "plan".toList then some id else none
  | .worker id _ _ _ => some id
  | .evidence id _ _ => some id
  | .checkpoint id _ _ => some id
  | .permission id _ _ _ _ _ => some id
  | .rekeyProject _ _ _ => none

variable (locale) in
/-- No call for the session fails with an unknown session, and neither does its recovery. -/
def Known (id : Text) (sessions : Sessions) : Prop :=
  (∀ call now, call.session = some id → begin locale call now sessions ≠ .unknownSession) ∧
    recovery sessions id ≠ none

lemma append_known {other : Text} {input : AcpSessionJournalEntryInput} (hid : other ∈ held) :
    append held now other input ≠ .unknownSession := by
  obtain ⟨record, hfound⟩ := JsMap.mem_iff_lookup.mp hid
  simp [append, hfound]

lemma known_of_mem (hid : id ∈ sessions) : Known locale id sessions := by
  obtain ⟨record, hfound⟩ := JsMap.mem_iff_lookup.mp hid
  constructor
  · intro call now hsess
    cases call with
    | create other project => simp [Call.session] at hsess
    | update other body =>
      simp only [Call.session] at hsess
      split_ifs at hsess with hplan
      cases hsess
      simp only [begin, update, if_pos hplan]
      exact append_known hid
    | evidence other workerId report =>
      cases hsess
      simp [begin, evidence, hfound]
    | rekeyProject fromId toId label => simp [Call.session] at hsess
    | _ =>
      cases hsess
      exact append_known hid
  · simp [recovery, hfound]

/-- A session that is created stays known through every run in which it outlasts the
retention whenever another session is opened. -/
theorem stays_known {journal journal' : Journal} {project : AcpProjectWorkspace}
    {steps : List JournalStep} (hreach : (journaling locale).Reach anyStep journal)
    (hrun : (journaling locale).Run (Retains locale id)
      (journal.call locale (.create id project) now) steps journal') :
    Known locale id journal'.sessions := by
  have hkeyed := keyed_of_reach hreach
  have hpers : begin locale (.create id project) now journal.sessions =
      .persist (journal.call locale (.create id project) now).sessions := rfl
  have hcreat : id ∈ (journal.call locale (.create id project) now).sessions := by
    exact JsMap.mem_set.mpr (.inl rfl)
  exact known_of_mem (mem_of_run (keyed_of_persist hkeyed hpers) hcreat hrun)

/-- The times of the calls, none of them before one that came earlier. -/
def NeverGoesBack (locale : Locale) (steps : List JournalStep) : Prop :=
  (steps.filterMap fun
    | .call _ now => some now
    | .writeSnapshot _ => none).Pairwise fun earlier later =>
      ∃ a b, locale.dateParse earlier = some a ∧ locale.dateParse later = some b ∧ a ≤ b

end

section

def atStart : Journal := (createAcpSessionJournal utcLocale [] epoch).call utcLocale opened epoch

def secondOpened (now : Text) : Journal :=
  atStart.call utcLocale (.create "b".toList project) now

theorem day_old_session_is_known :
    Known utcLocale "a".toList ((secondOpened nextDay).call utcLocale prompted nextDay).sessions := by
  have houtl : Outlasts utcLocale atStart.sessions (some 86400000)
      (connected "a".toList project epoch) := by
    constructor
    · exact .inr (.inr ⟨86400000, rfl, by decide +kernel⟩)
    · decide +kernel
  have hsec : Retains utcLocale "a".toList atStart
      (.call (.create "b".toList project) nextDay) := by
    exact .inr ⟨_, JsMap.lookup_set_self _ _ _, houtl⟩
  have hrun : (journaling utcLocale).Run (Retains utcLocale "a".toList) atStart
      [.call (.create "b".toList project) nextDay, .call prompted nextDay]
      ((secondOpened nextDay).call utcLocale prompted nextDay) :=
    .cons hsec rfl (.single trivial rfl)
  exact stays_known (.of_start start_empty) hrun

/-- An open session without entries is forgotten after a day. -/
theorem empty_session_is_forgotten :
    ¬ ∀ journal journal' id project now steps, (journaling utcLocale).Reach anyStep journal →
      NeverGoesBack utcLocale (.call (.create id project) now :: steps) →
      (journaling utcLocale).Run anyStep
        (journal.call utcLocale (.create id project) now) steps journal' →
      Known utcLocale id journal'.sessions := by
  intro hall
  have hclock : NeverGoesBack utcLocale
      [.call opened epoch, .call (.create "b".toList project) afterNextDay] := by
    simp only [NeverGoesBack, List.filterMap_cons, List.filterMap_nil, List.pairwise_cons,
      List.mem_singleton, forall_eq, List.not_mem_nil, false_implies, implies_true,
      List.Pairwise.nil, and_true]
    exact ⟨0, 86400001, rfl, rfl, by decide⟩
  have hrun : (journaling utcLocale).Run anyStep atStart
      [.call (.create "b".toList project) afterNextDay] (secondOpened afterNextDay) :=
    .single trivial rfl
  have hknown := hall _ _ _ _ _ _ (.of_start start_empty) hclock hrun
  have hforg : (recovery (secondOpened afterNextDay).sessions "a".toList).isSome = false := by
    decide +kernel
  apply hknown.2
  simpa using hforg

end

end Redskilled.Acp.SessionJournal
