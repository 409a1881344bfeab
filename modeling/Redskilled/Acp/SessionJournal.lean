import Redskilled.Foundation.JsMap
import Redskilled.Foundation.Json
import Redskilled.Foundation.Locale
import Redskilled.Foundation.Machine

/-!
# The journal of the public sessions

The sessions are held in memory and rewritten as a whole with every call. A call changes
the memory before it returns. Its snapshot is written when the writes before it have
ended, for all of them hang on one promise: where this one is rejected, the snapshots
behind it are not written.

A fresh journal, and every call of `create`, first drops what the retention does not keep.

How a snapshot is spelled in the file is not modelled. A write either replaces the file or
leaves it as it was, since the snapshot is renamed into its place.
-/
namespace Redskilled.Acp.SessionJournal
open Foundation List

inductive PermissionDecision where
  | attachedApproved | attachedDenied | policyPreAuthorized | hitlRequired

inductive PermissionOptionKind where
  | allowOnce | allowAlways | rejectOnce | rejectAlways

structure PermissionOption where
  optionId : Text
  kind : PermissionOptionKind

structure SessionUpdate where
  sessionUpdate : Text
  body : Json

inductive AcpSessionJournalEntryInput where
  | prompt (prompt : Json)
  | plan (update : SessionUpdate)
  | workflowPointer (workerId workerSessionId : Text) (replacement : Bool)
  | checkpoint (stopReason : Text) (workflowOutcome : Option Text)
  | permission (toolCallId policyKey : Text) (decision : PermissionDecision)
      (option : Option PermissionOption)

structure AcpSessionJournalEntry where
  sequence : ℕ
  input : AcpSessionJournalEntryInput

inductive AcpSessionEvidenceAvailability where
  | available | absent | inaccessible

structure ProviderSessionEvidenceReport where
  provider : Text
  availability : AcpSessionEvidenceAvailability
  reference : Option Text

structure AcpSessionEvidenceReference extends ProviderSessionEvidenceReport where
  workerId : Text

structure AcpSessionJournalRecord where
  publicSessionId : Text
  projectId : Text
  projectLabel : Text
  workspacePath : Text
  entries : List AcpSessionJournalEntry
  sessionEvidence : List AcpSessionEvidenceReference
  createdAt : Option Text
  updatedAt : Option Text

structure AcpProjectWorkspace where
  projectId : Text
  projectLabel : Text
  workspacePath : Text

abbrev Sessions := JsMap Text AcpSessionJournalRecord

namespace AcpSessionJournalRecord

def append (held : AcpSessionJournalRecord) (now : Text) (input : AcpSessionJournalEntryInput) :
    AcpSessionJournalRecord :=
  { held with
    updatedAt := some now
    entries := held.entries ++ [⟨held.entries.length + 1, input⟩] }

def addEvidence (held : AcpSessionJournalRecord) (now workerId : Text)
    (report : ProviderSessionEvidenceReport) : AcpSessionJournalRecord :=
  { held with
    updatedAt := some now
    sessionEvidence := held.sessionEvidence ++ [{ report with workerId }] }

def rekey (held : AcpSessionJournalRecord) (fromProjectId toProjectId projectLabel : Text) :
    AcpSessionJournalRecord :=
  if held.projectId = fromProjectId then { held with projectId := toProjectId, projectLabel }
  else held

end AcpSessionJournalRecord

def connected (publicSessionId : Text) (project : AcpProjectWorkspace) (now : Text) :
    AcpSessionJournalRecord where
  publicSessionId
  projectId := project.projectId
  projectLabel := project.projectLabel
  workspacePath := project.workspacePath
  entries := []
  sessionEvidence := []
  createdAt := some now
  updatedAt := some now

/-- The entries are numbered from one, without gap or repetition. -/
def Numbered (record : AcpSessionJournalRecord) : Prop :=
  record.entries.map (·.sequence) = List.range' 1 record.entries.length

def acpSessionEmptyTtlMs : ℤ := 24 * 60 * 60 * 1000

def acpSessionJournalCap : ℕ := 200

section
variable (locale : Locale)

def stampOf (record : AcpSessionJournalRecord) : ℤ :=
  (locale.dateParse ((record.updatedAt <|> record.createdAt).getD [])).getD 0

/-- Whether a record outlives its time to live. `nowMs` is none where the clock shows no
date. -/
def lasts (nowMs : Option ℤ) (record : AcpSessionJournalRecord) : Bool :=
  0 < record.entries.length || 0 < record.sessionEvidence.length ||
    nowMs.any fun nowMs => nowMs - stampOf locale record ≤ acpSessionEmptyTtlMs

def byStamp (left right : AcpSessionJournalRecord) : Bool :=
  stampOf locale right ≤ stampOf locale left

def byId (left right : AcpSessionJournalRecord) : Bool :=
  locale.localeCompare left.publicSessionId right.publicSessionId ≠ .gt

def compactAcpSessions (records : List AcpSessionJournalRecord) (nowMs : Option ℤ) :
    List AcpSessionJournalRecord :=
  (((records.filter (lasts locale nowMs)).mergeSort (byStamp locale)).take
    acpSessionJournalCap).mergeSort (byId locale)

def ofRecords (records : List AcpSessionJournalRecord) : Sessions :=
  JsMap.ofRecords AcpSessionJournalRecord.publicSessionId records

def loadSessions (file : List AcpSessionJournalRecord) (now : Text) : Sessions :=
  ofRecords (compactAcpSessions locale (ofRecords file).values (locale.dateParse now))

inductive Call where
  | create (publicSessionId : Text) (project : AcpProjectWorkspace)
  | prompt (publicSessionId : Text) (prompt : Json)
  | update (publicSessionId : Text) (update : SessionUpdate)
  | worker (publicSessionId workerId workerSessionId : Text) (replacement : Bool)
  | evidence (publicSessionId workerId : Text) (report : ProviderSessionEvidenceReport)
  | checkpoint (publicSessionId stopReason : Text) (workflowOutcome : Option Text)
  | permission (publicSessionId toolCallId : Text) (options : List PermissionOption)
      (policyKey : Text) (decision : PermissionDecision) (optionId : Option Text)
  | rekeyProject (fromProjectId toProjectId projectLabel : Text)

inductive Began where
  | unknownSession
  | done
  | persist (sessions : Sessions)

def append (sessions : Sessions) (now publicSessionId : Text)
    (input : AcpSessionJournalEntryInput) : Began :=
  match sessions.lookup publicSessionId with
  | none => .unknownSession
  | some held => .persist (sessions.set publicSessionId (held.append now input))

def create (sessions : Sessions) (now publicSessionId : Text) (project : AcpProjectWorkspace) :
    Began :=
  .persist ((ofRecords (compactAcpSessions locale sessions.values (locale.dateParse now))).set
    publicSessionId (connected publicSessionId project now))

def update (sessions : Sessions) (now publicSessionId : Text) (update : SessionUpdate) : Began :=
  if update.sessionUpdate = "plan".toList then append sessions now publicSessionId (.plan update)
  else .done

def evidence (sessions : Sessions) (now publicSessionId workerId : Text)
    (report : ProviderSessionEvidenceReport) : Began :=
  match sessions.lookup publicSessionId with
  | none => .unknownSession
  | some held => .persist (sessions.set publicSessionId (held.addEvidence now workerId report))

def permission (sessions : Sessions) (now publicSessionId toolCallId : Text)
    (options : List PermissionOption) (policyKey : Text) (decision : PermissionDecision)
    (optionId : Option Text) : Began :=
  append sessions now publicSessionId (.permission toolCallId policyKey decision
    (optionId.bind fun id => options.find? fun candidate => candidate.optionId = id))

def rekeyProject (sessions : Sessions) (fromProjectId toProjectId projectLabel : Text) : Began :=
  if sessions.values.any (·.projectId = fromProjectId) then
    .persist (sessions.mapValues fun held => held.rekey fromProjectId toProjectId projectLabel)
  else .done

def begin (call : Call) (now : Text) (sessions : Sessions) : Began :=
  match call with
  | .create id project => create locale sessions now id project
  | .prompt id prompt => append sessions now id (.prompt prompt)
  | .update id body => update sessions now id body
  | .worker id workerId workerSessionId replacement =>
    append sessions now id (.workflowPointer workerId workerSessionId replacement)
  | .evidence id workerId report => evidence sessions now id workerId report
  | .checkpoint id stopReason workflowOutcome =>
    append sessions now id (.checkpoint stopReason workflowOutcome)
  | .permission id toolCallId options policyKey decision optionId =>
    permission sessions now id toolCallId options policyKey decision optionId
  | .rekeyProject fromId toId label => rekeyProject sessions fromId toId label

structure AcpSessionRecoveryCheckpoint where
  publicSessionId : Text
  completedTurns : ℕ
  entries : List AcpSessionJournalEntry

def AcpSessionJournalEntryInput.isCheckpoint : AcpSessionJournalEntryInput → Bool
  | .checkpoint _ _ => true
  | _ => false

/-- None where the session is unknown. -/
def recovery (sessions : Sessions) (publicSessionId : Text) : Option AcpSessionRecoveryCheckpoint :=
  (sessions.lookup publicSessionId).map fun held =>
    ⟨publicSessionId, held.entries.countP (·.input.isCheckpoint), held.entries⟩

structure Pending where
  call : Call
  now : Text
  held : Sessions
  snapshot : List AcpSessionJournalRecord
  afterFailure : Bool

inductive Outcome where
  | threw | resolved | rejected
  deriving DecidableEq

/-- A call that has come to its end, with what the file holds at that moment. -/
structure Settled where
  call : Call
  now : Text
  held : Sessions
  afterFailure : Bool
  writable : Bool
  outcome : Outcome
  file : List AcpSessionJournalRecord

structure Journal where
  sessions : Sessions
  /-- The records of the file, none where there is no snapshot. -/
  file : List AcpSessionJournalRecord
  pending : List Pending := []
  /-- Whether the promise that all writes hang on is rejected. -/
  rejected : Bool := false
  settled : List Settled := []

def createAcpSessionJournal (file : List AcpSessionJournalRecord) (now : Text) : Journal where
  sessions := loadSessions locale file now
  file

inductive JournalStep where
  | call (call : Call) (now : Text)
  /-- The turn of the oldest snapshot has come. `writable` is whether its write succeeds,
  or would. -/
  | writeSnapshot (writable : Bool)

namespace Journal

def settle (journal : Journal) (call : Call) (now : Text) (outcome : Outcome) : Journal :=
  { journal with
    settled := journal.settled ++
      [⟨call, now, journal.sessions, journal.rejected, false, outcome, journal.file⟩] }

def call (journal : Journal) (call : Call) (now : Text) : Journal :=
  match begin locale call now journal.sessions with
  | .unknownSession => journal.settle call now .threw
  | .done => journal.settle call now .resolved
  | .persist sessions =>
    { journal with
      sessions
      pending := journal.pending ++
        [⟨call, now, journal.sessions, sessions.values, journal.rejected⟩] }

def settleWrite (journal : Journal) (write : Pending) (rest : List Pending) (writable : Bool)
    (outcome : Outcome) : Journal :=
  { journal with
    pending := rest
    settled := journal.settled ++
      [⟨write.call, write.now, write.held, write.afterFailure, writable, outcome, journal.file⟩] }

def writeSnapshot (journal : Journal) (writable : Bool) : Option Journal :=
  match journal.pending with
  | [] => none
  | write :: rest =>
    if journal.rejected then some (journal.settleWrite write rest writable .rejected)
    else if writable then
      some ({ journal with file := write.snapshot }.settleWrite write rest true .resolved)
    else some ({ journal with rejected := true }.settleWrite write rest false .rejected)

end Journal

def journaling : Machine Journal JournalStep where
  start journal := ∃ file now, (∀ record ∈ file, Numbered record) ∧
    journal = createAcpSessionJournal locale file now
  next journal
    | .call call now => some (journal.call locale call now)
    | .writeSnapshot writable => journal.writeSnapshot writable

def Changes (now : Text) (held changed : AcpSessionJournalRecord) : Prop :=
  (∃ input, changed = held.append now input) ∨
    ∃ workerId report, changed = held.addEvidence now workerId report

section
variable {locale} {call : Call} {now : Text} {held sessions : Sessions}

variable {id : Text}

lemma append_cases {input : AcpSessionJournalEntryInput}
    (h : append held now id input = .persist sessions) :
    ∃ record, held.lookup id = some record ∧ sessions = held.set id (record.append now input) := by
  unfold append at h
  cases hfound : held.lookup id with
  | none => simp [hfound] at h
  | some record =>
    simp only [hfound, Began.persist.injEq] at h
    exact ⟨record, rfl, h.symm⟩

lemma evidence_cases {workerId : Text} {report : ProviderSessionEvidenceReport}
    (h : evidence held now id workerId report = .persist sessions) :
    ∃ record, held.lookup id = some record ∧
      sessions = held.set id (record.addEvidence now workerId report) := by
  unfold evidence at h
  cases hfound : held.lookup id with
  | none => simp [hfound] at h
  | some record =>
    simp only [hfound, Began.persist.injEq] at h
    exact ⟨record, rfl, h.symm⟩

lemma rekeyProject_cases {fromId toId label : Text}
    (h : rekeyProject held fromId toId label = .persist sessions) :
    sessions = held.mapValues fun record => record.rekey fromId toId label := by
  unfold rekeyProject at h
  split_ifs at h
  exact (Began.persist.inj h).symm

lemma create_cases {project : AcpProjectWorkspace}
    (h : create locale held now id project = .persist sessions) :
    sessions = (ofRecords (compactAcpSessions locale held.values (locale.dateParse now))).set id
      (connected id project now) :=
  (Began.persist.inj h).symm

lemma persist_cases (h : begin locale call now held = .persist sessions) :
    (∃ id project, call = .create id project ∧
      sessions = (ofRecords (compactAcpSessions locale held.values (locale.dateParse now))).set id
        (connected id project now)) ∨
    (∃ id record changed, held.lookup id = some record ∧ Changes now record changed ∧
      sessions = held.set id changed) ∨
    ∃ fromId toId label,
      sessions = held.mapValues fun record => record.rekey fromId toId label := by
  have hentry : ∀ id input, append held now id input = .persist sessions →
      ∃ id record changed, held.lookup id = some record ∧ Changes now record changed ∧
        sessions = held.set id changed := by
    intro id input happ
    obtain ⟨record, hfound, rfl⟩ := append_cases happ
    exact ⟨id, record, _, hfound, .inl ⟨input, rfl⟩, rfl⟩
  cases call with
  | create id project => exact .inl ⟨id, project, rfl, create_cases h⟩
  | update id body =>
    simp only [begin, update] at h
    split_ifs at h
    exact .inr (.inl (hentry _ _ h))
  | evidence id workerId report =>
    obtain ⟨record, hfound, rfl⟩ := evidence_cases h
    exact .inr (.inl ⟨id, record, _, hfound, .inr ⟨workerId, report, rfl⟩, rfl⟩)
  | permission id toolCallId options policyKey decision optionId =>
    exact .inr (.inl (hentry _ _ h))
  | rekeyProject fromId toId label =>
    exact .inr (.inr ⟨fromId, toId, label, rekeyProject_cases h⟩)
  | _ => exact .inr (.inl (hentry _ _ h))

end

def Appended (held : Sessions) (now publicSessionId : Text) (input : AcpSessionJournalEntryInput)
    (file : List AcpSessionJournalRecord) : Prop :=
  ∃ record, held.lookup publicSessionId = some record ∧ record.append now input ∈ file

def Call.Effect (now : Text) (held : Sessions) (file : List AcpSessionJournalRecord) : Call → Prop
  | .create id project => connected id project now ∈ file
  | .prompt id body => Appended held now id (.prompt body) file
  | .update id body =>
    body.sessionUpdate = "plan".toList → Appended held now id (.plan body) file
  | .worker id workerId workerSessionId replacement =>
    Appended held now id (.workflowPointer workerId workerSessionId replacement) file
  | .evidence id workerId report =>
    ∃ record, held.lookup id = some record ∧ record.addEvidence now workerId report ∈ file
  | .checkpoint id stopReason workflowOutcome =>
    Appended held now id (.checkpoint stopReason workflowOutcome) file
  | .permission id toolCallId options policyKey decision optionId =>
    Appended held now id (.permission toolCallId policyKey decision
      (optionId.bind fun id => options.find? fun candidate => candidate.optionId = id)) file
  | .rekeyProject fromId toId label =>
    ∀ record ∈ held.values, record.projectId = fromId →
      { record with projectId := toId, projectLabel := label } ∈ file

section
variable {locale} {call : Call} {now : Text} {held sessions : Sessions}

lemma append_appends {id : Text} {input : AcpSessionJournalEntryInput}
    (h : append held now id input = .persist sessions) :
    Appended held now id input sessions.values := by
  obtain ⟨record, hfound, rfl⟩ := append_cases h
  exact ⟨record, hfound, JsMap.mem_values.mpr ⟨id, JsMap.lookup_set_self _ _ _⟩⟩

lemma append_not_done {id : Text} {input : AcpSessionJournalEntryInput} :
    append held now id input ≠ .done := by
  unfold append
  cases held.lookup id <;> simp

lemma effect_of_persist (h : begin locale call now held = .persist sessions) :
    call.Effect now held sessions.values := by
  cases call with
  | create id project =>
    obtain rfl := create_cases h
    exact JsMap.mem_values.mpr ⟨id, JsMap.lookup_set_self _ _ _⟩
  | update id body =>
    intro hplan
    simp only [begin, update, if_pos hplan] at h
    exact append_appends h
  | evidence id workerId report =>
    obtain ⟨record, hfound, rfl⟩ := evidence_cases h
    exact ⟨record, hfound, JsMap.mem_values.mpr ⟨id, JsMap.lookup_set_self _ _ _⟩⟩
  | rekeyProject fromId toId label =>
    obtain rfl := rekeyProject_cases h
    intro record hrec hfrom
    rw [JsMap.values_mapValues]
    apply mem_map.mpr
    exact ⟨record, hrec, by simp [AcpSessionJournalRecord.rekey, hfrom]⟩
  | _ => exact append_appends h

lemma effect_of_done (h : begin locale call now held = .done)
    (file : List AcpSessionJournalRecord) : call.Effect now held file := by
  cases call with
  | create id project => simp [begin, create] at h
  | update id body =>
    intro hplan
    simp only [begin, update, if_pos hplan] at h
    exact absurd h append_not_done
  | evidence id workerId report =>
    simp only [begin, evidence] at h
    cases hfound : held.lookup id <;> simp [hfound] at h
  | rekeyProject fromId toId label =>
    simp only [begin, rekeyProject] at h
    split_ifs at h with hnone
    intro record hrec hfrom
    simp only [any_eq_true, decide_eq_true_eq, not_exists, not_and] at hnone
    exact absurd hfrom (hnone record hrec)
  | _ => exact absurd h append_not_done

end

section
variable {locale} {call : Call} {now : Text} {held sessions : Sessions}

variable {record : AcpSessionJournalRecord}

lemma Numbered.append (h : Numbered record) (now : Text)
    (input : AcpSessionJournalEntryInput) : Numbered (record.append now input) := by
  unfold Numbered at h ⊢
  simp only [AcpSessionJournalRecord.append, map_append, h, map_cons, map_nil,
    length_append, length_cons, length_nil]
  rw [range'_concat]
  simp [Nat.add_comm]

lemma mem_of_mem_compact {records : List AcpSessionJournalRecord} {nowMs : Option ℤ}
    (h : record ∈ compactAcpSessions locale records nowMs) :
    record ∈ records := by
  have htak := mem_of_mem_take (mem_mergeSort.mp h)
  exact mem_of_mem_filter (mem_mergeSort.mp htak)

lemma numbered_set {id : Text} (h : ∀ r ∈ held.values, Numbered r) (hrec : Numbered record) :
    ∀ r ∈ (held.set id record).values, Numbered r := by
  intro r hr
  rcases JsMap.mem_values_set hr with rfl | hr
  · exact hrec
  · exact h r hr

lemma numbered_ofRecords {records : List AcpSessionJournalRecord} {nowMs : Option ℤ}
    (h : ∀ r ∈ records, Numbered r) :
    ∀ r ∈ (ofRecords (compactAcpSessions locale records nowMs)).values, Numbered r := by
  intro r hr
  exact h r (mem_of_mem_compact (JsMap.mem_of_mem_values_ofRecords hr))

lemma numbered_of_persist (hheld : ∀ r ∈ held.values, Numbered r)
    (h : begin locale call now held = .persist sessions) :
    ∀ r ∈ sessions.values, Numbered r := by
  rcases persist_cases h with ⟨id, project, _, rfl⟩ | ⟨id, record, changed, hfound, hchange, rfl⟩ |
    ⟨fromId, toId, label, rfl⟩
  · exact numbered_set (numbered_ofRecords hheld) rfl
  · have hrec := hheld record (JsMap.mem_values.mpr ⟨id, hfound⟩)
    apply numbered_set hheld
    rcases hchange with ⟨input, rfl⟩ | ⟨workerId, report, rfl⟩
    · exact hrec.append now input
    · exact hrec
  · intro r hr
    rw [JsMap.values_mapValues] at hr
    obtain ⟨record, hrec, rfl⟩ := mem_map.mp hr
    unfold AcpSessionJournalRecord.rekey
    split_ifs
    · exact hheld record hrec
    · exact hheld record hrec

end

/-- A call that is made after a write has failed resolves if its own write would succeed;
and where a call resolves, the file has its effect and all entries numbered. -/
def Settled.Fair (call : Settled) : Prop :=
  (call.afterFailure = true → call.writable = true → call.outcome = .resolved) ∧
  (call.outcome = .resolved →
    call.call.Effect call.now call.held call.file ∧ ∀ record ∈ call.file, Numbered record)

/-- A failed write costs only its own call. -/
def CostsOnlyItsOwn (journal : Journal) : Prop := ∀ call ∈ journal.settled, call.Fair

/-- No call that could be written was made after a write had failed. -/
def NoneWritableAfterFailure (journal : Journal) : Prop :=
  ∀ call ∈ journal.settled, ¬ (call.afterFailure = true ∧ call.writable = true)

structure Kept (journal : Journal) : Prop where
  sessions : ∀ record ∈ journal.sessions.values, Numbered record
  file : ∀ record ∈ journal.file, Numbered record
  snapshots : ∀ write ∈ journal.pending, write.call.Effect write.now write.held write.snapshot ∧
      ∀ record ∈ write.snapshot, Numbered record
  behind : ∀ write ∈ journal.pending, write.afterFailure = true → journal.rejected = true
  resolved : ∀ call ∈ journal.settled, call.outcome = .resolved →
    call.call.Effect call.now call.held call.file ∧ ∀ record ∈ call.file, Numbered record
  lost : ∀ call ∈ journal.settled, call.afterFailure = true → call.writable = true →
    call.outcome = .rejected

lemma kept_open {file : List AcpSessionJournalRecord} (h : ∀ r ∈ file, Numbered r)
    (now : Text) : Kept (createAcpSessionJournal locale file now) where
  sessions := by
    apply numbered_ofRecords
    intro r hr
    exact h r (JsMap.mem_of_mem_values_ofRecords hr)
  file := h
  snapshots := by simp [createAcpSessionJournal]
  behind := by simp [createAcpSessionJournal]
  resolved := by simp [createAcpSessionJournal]
  lost := by simp [createAcpSessionJournal]

section
variable {locale} {journal journal' : Journal}

lemma Kept.settle (h : Kept journal) {call : Call} {now : Text} {outcome : Outcome}
    (heff : outcome = .resolved → call.Effect now journal.sessions journal.file) :
    Kept (journal.settle call now outcome) where
  sessions := h.sessions
  file := h.file
  snapshots := h.snapshots
  behind := h.behind
  resolved := by
    intro settled hmem
    rcases List.mem_append.mp hmem with hmem | hmem
    · exact h.resolved settled hmem
    · obtain rfl := List.mem_singleton.mp hmem
      exact fun hres => ⟨heff hres, h.file⟩
  lost := by
    intro settled hmem
    rcases List.mem_append.mp hmem with hmem | hmem
    · exact h.lost settled hmem
    · obtain rfl := List.mem_singleton.mp hmem
      simp

lemma Kept.call (h : Kept journal) (call : Call) (now : Text) :
    Kept (journal.call locale call now) := by
  unfold Journal.call
  cases hbeg : begin locale call now journal.sessions with
  | unknownSession => exact h.settle (by simp)
  | done => exact h.settle fun _ => effect_of_done hbeg _
  | persist sessions =>
    have hnumb := numbered_of_persist h.sessions hbeg
    constructor
    · exact hnumb
    · exact h.file
    · intro write hmem
      rcases mem_append.mp hmem with hmem | hmem
      · exact h.snapshots write hmem
      · obtain rfl := mem_singleton.mp hmem
        exact ⟨effect_of_persist hbeg, hnumb⟩
    · intro write hmem
      rcases mem_append.mp hmem with hmem | hmem
      · exact h.behind write hmem
      · obtain rfl := mem_singleton.mp hmem
        exact id
    · exact h.resolved
    · exact h.lost

lemma Kept.settleWrite (h : Kept journal) {write : Pending} {rest : List Pending}
    (hpend : journal.pending = write :: rest) {writable : Bool} {outcome : Outcome}
    (hres : outcome = .resolved → write.call.Effect write.now write.held journal.file)
    (hlost : write.afterFailure = true → writable = true → outcome = .rejected) :
    Kept (journal.settleWrite write rest writable outcome) := by
  have hrest : ∀ w ∈ rest, w ∈ journal.pending := by
    intro w hw
    rw [hpend]
    exact mem_cons_of_mem write hw
  constructor
  · exact h.sessions
  · exact h.file
  · exact fun w hw => h.snapshots w (hrest w hw)
  · exact fun w hw => h.behind w (hrest w hw)
  · intro settled hmem
    rcases mem_append.mp hmem with hmem | hmem
    · exact h.resolved settled hmem
    · obtain rfl := mem_singleton.mp hmem
      exact fun heq => ⟨hres heq, h.file⟩
  · intro settled hmem
    rcases mem_append.mp hmem with hmem | hmem
    · exact h.lost settled hmem
    · obtain rfl := mem_singleton.mp hmem
      exact hlost

lemma Kept.writeSnapshot (h : Kept journal) {writable : Bool}
    (hnext : journal.writeSnapshot writable = some journal') : Kept journal' := by
  unfold Journal.writeSnapshot at hnext
  cases hpend : journal.pending with
  | nil => simp [hpend] at hnext
  | cons write rest =>
    obtain ⟨heff, hnumb⟩ := h.snapshots write (by simp [hpend])
    have hbeh := h.behind write (by simp [hpend])
    simp only [hpend] at hnext
    split_ifs at hnext with hrej hwrit
    · cases hnext
      exact h.settleWrite hpend (by simp) (by simp)
    · cases hnext
      have hkept : Kept { journal with file := write.snapshot } := { h with file := hnumb }
      exact hkept.settleWrite hpend (fun _ => heff)
        fun haft => absurd (hbeh haft) hrej
    · cases hnext
      have hkept : Kept { journal with rejected := true } := { h with behind := fun _ _ _ => rfl }
      exact hkept.settleWrite hpend (by simp) (by simp)

lemma kept_of_reach {ok : Journal → JournalStep → Prop} (h : (journaling locale).Reach ok journal) :
    Kept journal := by
  apply h.inv Kept
  · intro s hs
    obtain ⟨file, now, hfile, rfl⟩ := hs
    exact kept_open locale hfile now
  · intro s a t hkept _ hnext
    cases a with
    | call call now =>
      cases hnext
      exact hkept.call call now
    | writeSnapshot writable => exact hkept.writeSnapshot hnext

end

/-- In every run a failed write costs only its own call exactly where no call that could be
written was made after a write had failed: such a call is rejected. -/
theorem costsOnlyItsOwn_iff {journal : Journal} (h : (journaling locale).Reach anyStep journal) :
    CostsOnlyItsOwn journal ↔ NoneWritableAfterFailure journal := by
  have hkept := kept_of_reach h
  constructor
  · intro hfair call hmem ⟨haft, hwrit⟩
    have hres := (hfair call hmem).1 haft hwrit
    have hlost := hkept.lost call hmem haft hwrit
    rw [hres] at hlost
    cases hlost
  · intro hnone call hmem
    constructor
    · exact fun haft hwrit => absurd ⟨haft, hwrit⟩ (hnone call hmem)
    · exact hkept.resolved call hmem

end

section

def epoch : Text := "1970-01-01T00:00:00.000Z".toList

def nextDay : Text := "1970-01-02T00:00:00.000Z".toList

def afterNextDay : Text := "1970-01-02T00:00:00.001Z".toList

def utcLocale : Locale where
  dateParse t :=
    if t = epoch then some 0
    else if t = nextDay then some 86400000
    else if t = afterNextDay then some 86400001
    else none
  localeCompare a b := if Text.utf16Lt a b then .lt else if a = b then .eq else .gt

def project : AcpProjectWorkspace := ⟨"p".toList, "owner/repo".toList, "/w".toList⟩

def opened : Call := .create "a".toList project

def prompted : Call := .prompt "a".toList .null

lemma start_empty : (journaling utcLocale).start (createAcpSessionJournal utcLocale [] epoch) :=
  ⟨[], epoch, by simp, rfl⟩

def endings (journal : Journal) : List (Bool × Bool × Outcome) :=
  journal.settled.map fun call => (call.afterFailure, call.writable, call.outcome)

/-- The write of the prompt fails, and so does the one behind it. -/
theorem failed_prompt_costs_itself : ∃ journal, (journaling utcLocale).Reach anyStep journal ∧
      endings journal = [(false, true, .resolved), (false, false, .rejected),
        (true, false, .rejected)] ∧
      CostsOnlyItsOwn journal := by
  have hrun : ((journaling utcLocale).exec (createAcpSessionJournal utcLocale [] epoch)
      [.call opened epoch, .writeSnapshot true, .call prompted epoch, .writeSnapshot false,
        .call prompted epoch, .writeSnapshot false]).map endings =
      some [(false, true, .resolved), (false, false, .rejected), (true, false, .rejected)] := by
    decide +kernel
  obtain ⟨journal, hexec, hend⟩ := Option.map_eq_some_iff.mp hrun
  have hreach := Machine.reach_of_exec start_empty hexec
  refine ⟨journal, hreach, hend, (costsOnlyItsOwn_iff utcLocale hreach).mpr ?_⟩
  intro call hmem haft
  have hending : (call.afterFailure, call.writable, call.outcome) ∈ endings journal :=
    mem_map_of_mem hmem
  rw [hend] at hending
  simp [haft] at hending

/-- The write of the first record fails, and a later prompt is rejected for it. -/
theorem later_prompt_is_rejected :
    ¬ ∀ journal, (journaling utcLocale).Reach anyStep journal → CostsOnlyItsOwn journal := by
  intro hall
  have hrun : ((journaling utcLocale).exec (createAcpSessionJournal utcLocale [] epoch)
      [.call opened epoch, .writeSnapshot false, .call prompted epoch,
        .writeSnapshot true]).map endings =
      some [(false, false, .rejected), (true, true, .rejected)] := by
    decide +kernel
  obtain ⟨journal, hexec, hend⟩ := Option.map_eq_some_iff.mp hrun
  have hfair := hall journal (Machine.reach_of_exec start_empty hexec)
  have hlast : (true, true, Outcome.rejected) ∈ endings journal := by
    rw [hend]
    simp
  obtain ⟨call, hmem, hcall⟩ := mem_map.mp hlast
  simp only [Prod.mk.injEq] at hcall
  have hres := (hfair call hmem).1 hcall.1 hcall.2.1
  rw [hcall.2.2] at hres
  cases hres

end

end Redskilled.Acp.SessionJournal
