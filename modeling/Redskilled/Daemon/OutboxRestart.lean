import Redskilled.Daemon.OutboxEntries
import Redskilled.Foundation.NumericText

/-!
# The GitHub outbox across a restart

The outbox is written to its file as one document and read back entry by entry, each by the
checks that its request and its Project passed. What a run has written is read back as it was,
and a request that has an entry there is not refused for naming another write.

The two awaits of a file and the call between them may fail; a crash between them leaves what
such a failure and a restart leave. What the TOON codec makes of a document is a parameter, and
so is the text of a number.
-/
namespace Redskilled.Daemon.OutboxRestart
open Foundation OutboxEntries List

structure ProjectAuthority where
  projectId : Text
  projectLabel : Text
  workspacePath : Text
  credentialProfile : Text

/-- `validateAuthority` of the gateway, and `validateStoredAuthority` of the outbox. -/
def validateAuthority (authority : ProjectAuthority) : Checked ProjectAuthority :=
  if authority.projectId.trim = [] ∨ authority.projectLabel.trim = [] ∨
      authority.workspacePath.trim = [] ∨ authority.credentialProfile.trim = [] then
    refuse "a GitHub reader needs one resolved Project and credential profile"
  else if isRepositoryLabel authority.projectLabel = false then
    refuse "the resolved Project has no canonical GitHub repository identity"
  else if isProfileName authority.credentialProfile = false then
    refuse "the daemon-owned credential profile name is not publishable"
  else pure authority

inductive EntryState where
  | pending
  | published
  deriving DecidableEq

namespace EntryState

def text : EntryState → Text
  | pending => "pending".toList
  | published => "published".toList

def read (value : JsValue) : Option EntryState :=
  value.asString.bind fun t => [pending, published].find? (·.text = t)

lemma read_text (state : EntryState) : read (.string state.text) = some state := by
  cases state <;> decide +kernel

end EntryState

structure GithubOutboxEntry where
  authority : ProjectAuthority
  request : WriteRequest
  queuedAt : Text
  state : EntryState
  publishedAt : Option Text
  value : Option JsValue

namespace GithubOutboxEntry

def published (entry : GithubOutboxEntry) : Bool := entry.state = .published

def key (entry : GithubOutboxEntry) : GithubOutbox.Key where
  projectId := entry.authority.projectId
  credentialProfile := entry.authority.credentialProfile
  idempotencyKey := entry.request.idempotencyKey

/-- The entry as it is written. -/
def encode (entry : GithubOutboxEntry) : JsValue :=
  object ([(.idempotencyKey, .string entry.request.idempotencyKey),
    (.projectId, .string entry.authority.projectId),
    (.projectLabel, .string entry.authority.projectLabel),
    (.workspacePath, .string entry.authority.workspacePath),
    (.credentialProfile, .string entry.authority.credentialProfile),
    (.write, entry.request.write),
    (.queuedAt, .string entry.queuedAt),
    (.state, .string entry.state.text)] ++
    (entry.value.toList.map fun v => (.value, v)) ++
    entry.publishedAt.toList.map fun t => (.publishedAt, .string t))

end GithubOutboxEntry

def encodeSnapshot (entries : List GithubOutboxEntry) : JsValue :=
  object [(.version, .number 1), (.entries, .array (entries.map GithubOutboxEntry.encode))]

def outboxFailure {α : Type} (message : String) : Checked α := .error (.outbox message)

def optionalScalar (value : JsValue) : Checked (Option Text) :=
  if value.isNullish then pure none
  else do
    let text ← scalar value
    pure (some text)

def present : JsValue → Option JsValue
  | .undefined => none
  | v => some v

def parseOutboxEntry (value : JsValue) : Checked GithubOutboxEntry :=
  match value.asObject with
  | none => outboxFailure "redskilled GitHub outbox contains an invalid entry"
  | some entry => do
      let projectId ← scalar (get entry .projectId)
      let projectLabel ← scalar (get entry .projectLabel)
      let workspacePath ← scalar (get entry .workspacePath)
      let credentialProfile ← scalar (get entry .credentialProfile)
      let project ← validateAuthority ⟨projectId, projectLabel, workspacePath, credentialProfile⟩
      let key ← scalar (get entry .idempotencyKey)
      let request ← validateWriteRequest (WriteRequest.mk key (get entry .write)).asValue
      match EntryState.read (get entry .state) with
      | none => outboxFailure "redskilled GitHub outbox contains an invalid state"
      | some state => do
          let queuedAt ← scalar (get entry .queuedAt)
          let publishedAt ← optionalScalar (get entry .publishedAt)
          if state = .published ∧ publishedAt = none then
            outboxFailure "redskilled GitHub outbox contains an incomplete receipt"
          else pure ⟨project, request, queuedAt, state, publishedAt, present (get entry .value)⟩

def parseEntries : List JsValue → Checked (List GithubOutboxEntry)
  | [] => pure []
  | v :: vs => do
      let entry ← parseOutboxEntry v
      let entries ← parseEntries vs
      pure (entry :: entries)

def isVersionOne : JsValue → Bool
  | .number q => q = 1
  | _ => false

def parseOutboxSnapshot (value : JsValue) : Checked (List GithubOutboxEntry) :=
  match value.asObject with
  | none => outboxFailure "redskilled GitHub outbox is not a snapshot"
  | some record =>
    match isVersionOne (get record .version), (get record .entries).asArray with
    | true, some entries => parseEntries entries
    | _, _ => outboxFailure "redskilled GitHub outbox has an unsupported version"

def compactOutboxSnapshot (entries : List GithubOutboxEntry) : List GithubOutboxEntry :=
  if entries.countP GithubOutboxEntry.published ≤ GithubOutbox.githubOutboxPublishedRetention then
    entries
  else keepLast GithubOutbox.githubOutboxPublishedRetention GithubOutboxEntry.published entries

/-- What the clock answers, which is no blank text. -/
structure ClockText where
  text : Text
  not_blank : text.trim ≠ []

inductive Upstream where
  | threw
  /-- A value of JSON, or none. -/
  | answered (value : Option { v : JsValue // v.IsJson })

/-- What one operation meets on its way. -/
structure Script where
  queuedAt : ClockText
  queuePersisted : Bool
  upstream : Upstream
  publishedAt : ClockText
  receiptPersisted : Bool

structure State where
  snapshot : Option (List GithubOutboxEntry)
  disk : Option JsValue
  resumes : List (ProjectAuthority × WriteRequest)

inductive Outcome where
  | refused (error : OutboxError)
  | failed
  | answered (entry : GithubOutboxEntry)

def keyOf (project : ProjectAuthority) (request : WriteRequest) : GithubOutbox.Key where
  projectId := project.projectId
  credentialProfile := project.credentialProfile
  idempotencyKey := request.idempotencyKey

namespace GithubOutboxEntry

def queue (project : ProjectAuthority) (request : WriteRequest) (now : ClockText) :
    GithubOutboxEntry :=
  ⟨project, request, now.text, .pending, none, none⟩

def publish (value : Option { v : JsValue // v.IsJson }) (now : ClockText)
    (entry : GithubOutboxEntry) : GithubOutboxEntry :=
  { entry with
    value := some ((value.map Subtype.val).getD .null)
    publishedAt := some now.text
    state := .published }

end GithubOutboxEntry

namespace State

def entries (s : State) : List GithubOutboxEntry := s.snapshot.getD []

def hold (s : State) (entries : List GithubOutboxEntry) : State :=
  { s with snapshot := some entries }

def persist (s : State) : State := { s with disk := some (encodeSnapshot s.entries) }

end State

section
variable (numberText : ℚ → Text) (toon : JsValue → JsValue)

def load (s : State) : Checked State :=
  match s.snapshot, s.disk with
  | some _, _ => pure s
  | none, none => pure (s.hold [])
  | none, some document => do
      let entries ← parseOutboxSnapshot (toon document)
      pure (s.hold (compactOutboxSnapshot entries))

def callUpstream (entry : GithubOutboxEntry) (script : Script) (s : State) : Outcome × State :=
  match script.upstream with
  | .threw => (.failed, s)
  | .answered value =>
    let published := entry.publish value script.publishedAt
    let s := s.hold (compactOutboxSnapshot
      (s.entries.map fun e => if e.key = entry.key then published else e))
    if script.receiptPersisted then (.answered published, s.persist) else (.failed, s)

/-- `execute` on a snapshot that is loaded. -/
def executeLoaded (project : ProjectAuthority) (request : WriteRequest) (script : Script)
    (s : State) : Outcome × State :=
  match s.entries.find? fun e => e.key = keyOf project request with
  | some entry =>
    if JsValue.stringify numberText entry.request.write ≠
        JsValue.stringify numberText request.write then
      (.refused (.authority "a GitHub idempotency key cannot name two different writes"), s)
    else if entry.published then (.answered entry, s)
    else callUpstream entry script s
  | none =>
    let entry := GithubOutboxEntry.queue project request script.queuedAt
    let s := s.hold (s.entries ++ [entry])
    if script.queuePersisted then callUpstream entry script s.persist else (.failed, s)

def execute (project : ProjectAuthority) (request : WriteRequest) (script : Script) (s : State) :
    Outcome × State :=
  match load toon s with
  | .error e => (.refused e, s)
  | .ok s => executeLoaded numberText project request script s

def write (authority : ProjectAuthority) (raw : JsValue) (script : Script) (s : State) :
    Outcome × State :=
  match validateAuthority authority, validateWriteRequest raw with
  | .ok project, .ok request => execute numberText toon project request script s
  | .error e, _ => (.refused e, s)
  | .ok _, .error e => (.refused e, s)

def pending (project : ProjectAuthority) (s : State) : List (ProjectAuthority × WriteRequest) :=
  (s.entries.filter fun e => !e.published && decide (e.authority.projectId = project.projectId) &&
    decide (e.authority.credentialProfile = project.credentialProfile)).map
      fun e => (project, e.request)

def resume (authority : ProjectAuthority) (s : State) : State :=
  match validateAuthority authority, load toon s with
  | .ok project, .ok s => { s with resumes := s.resumes ++ pending project s }
  | _, _ => s

def restart (s : State) : State := { s with snapshot := none, resumes := [] }

inductive Step where
  | write (authority : ProjectAuthority) (raw : JsValue) (script : Script)
  | resume (authority : ProjectAuthority)
  | resumed (i : ℕ) (script : Script)
  | restart

def next (s : State) : Step → Option State
  | .write authority raw script => some (write numberText toon authority raw script s).2
  | .resume authority => some (resume toon authority s)
  | .resumed i script =>
    s.resumes[i]?.map fun r => (execute numberText toon r.1 r.2 script s).2
  | .restart => some (restart s)

def outbox : Machine State Step where
  start s := s = ⟨none, none, []⟩
  next := next numberText toon

end

/-- What an entry is made of. -/
structure Stored (entry : GithubOutboxEntry) : Prop where
  authority : validateAuthority entry.authority = .ok entry.authority
  request : Accepted entry.request
  queued : entry.queuedAt.trim ≠ []
  published : ∀ t ∈ entry.publishedAt, t.trim ≠ []
  receipt : entry.state = .published → entry.publishedAt ≠ none
  value : ∀ v ∈ entry.value, v.IsJson

lemma validateAuthority_ok {authority project : ProjectAuthority}
    (h : validateAuthority authority = .ok project) :
    project = authority ∧ authority.projectId.trim ≠ [] ∧ authority.projectLabel.trim ≠ [] ∧
      authority.workspacePath.trim ≠ [] ∧ authority.credentialProfile.trim ≠ [] := by
  unfold validateAuthority at h
  split_ifs at h with hblank
  · cases h
  · cases h
  · cases h
  · rw [not_or, not_or, not_or] at hblank
    exact ⟨(Except.ok.inj h).symm, hblank⟩

lemma scalar_text {t : Text} (h : t.trim ≠ []) : scalar (.string t) = .ok t := by
  unfold scalar
  simp only [JsValue.asString]
  rw [if_neg h]
  rfl

lemma scalar_ok {v : JsValue} {t : Text} (hv : v = .string t) (h : t.trim ≠ []) :
    scalar v = .ok t := by
  rw [hv, scalar_text h]

section
variable {entry : GithubOutboxEntry}

lemma isJson_encode (h : Stored entry) : entry.encode.IsJson := by
  apply isJson_object
  intro f hf
  simp only [mem_append, mem_map, Option.mem_toList] at hf
  rcases hf with (hf | ⟨v, hv, rfl⟩) | ⟨t, -, rfl⟩
  · simp only [mem_cons, not_mem_nil, or_false] at hf
    rcases hf with rfl | rfl | rfl | rfl | rfl | rfl | rfl | rfl
    · exact .string _
    · exact .string _
    · exact .string _
    · exact .string _
    · exact .string _
    · exact h.request.json
    · exact .string _
    · exact .string _
  · exact h.value v hv
  · exact .string t

lemma present_value (h : Stored entry) : present (entry.value.getD .undefined) = entry.value := by
  cases hvalue : entry.value with
  | none => rfl
  | some v =>
    have hjson := h.value v hvalue
    cases v with
    | undefined => cases hjson
    | _ => rfl

lemma optionalScalar_publishedAt (h : Stored entry) :
    optionalScalar ((entry.publishedAt.map JsValue.string).getD .undefined) =
      .ok entry.publishedAt := by
  cases hpubl : entry.publishedAt with
  | none => rfl
  | some t =>
    have hscal := scalar_text (h.published t hpubl)
    simp only [Option.map_some, Option.getD_some, optionalScalar, JsValue.isNullish, hscal]
    rfl

lemma get_encode (entry : GithubOutboxEntry) : ∃ fields, entry.encode = .object fields ∧
      get fields .idempotencyKey = .string entry.request.idempotencyKey ∧
      get fields .projectId = .string entry.authority.projectId ∧
      get fields .projectLabel = .string entry.authority.projectLabel ∧
      get fields .workspacePath = .string entry.authority.workspacePath ∧
      get fields .credentialProfile = .string entry.authority.credentialProfile ∧
      get fields .write = entry.request.write ∧
      get fields .queuedAt = .string entry.queuedAt ∧
      get fields .state = .string entry.state.text ∧
      get fields .value = entry.value.getD .undefined ∧
      get fields .publishedAt = (entry.publishedAt.map JsValue.string).getD .undefined := by
  refine ⟨_, rfl, ?_⟩
  refine ⟨rfl, rfl, rfl, rfl, rfl, rfl, rfl, rfl, ?_, ?_⟩
  · cases entry.value with
    | none => cases entry.publishedAt <;> rfl
    | some v => rfl
  · cases entry.value with
    | none => cases entry.publishedAt <;> rfl
    | some v => cases entry.publishedAt <;> rfl

lemma parse_encode (h : Stored entry) : parseOutboxEntry entry.encode = .ok entry := by
  obtain ⟨fields, henc, hkey, hid, hlab, hpath, hprof, hwrite, hqueued, hstate, hvalue,
    hpubl⟩ := get_encode entry
  obtain ⟨-, hid', hlab', hpath', hprof'⟩ := validateAuthority_ok h.authority
  have hrec : ¬(entry.state = .published ∧ entry.publishedAt = none) := fun hnone =>
    h.receipt hnone.1 hnone.2
  rw [henc]
  simp only [parseOutboxEntry, JsValue.asObject, Fallible.do_ok_iff]
  refine ⟨_, scalar_ok hid hid', _, scalar_ok hlab hlab', _, scalar_ok hpath hpath',
    _, scalar_ok hprof hprof', _, h.authority, _, scalar_ok hkey h.request.named,
    entry.request, ?_, ?_⟩
  · rw [hwrite]
    exact h.request.again
  · rw [hstate, EntryState.read_text, hpubl, hvalue]
    refine Fallible.do_ok_iff.mpr ⟨_, scalar_ok hqueued h.queued, ?_⟩
    refine Fallible.do_ok_iff.mpr ⟨_, optionalScalar_publishedAt h, ?_⟩
    rw [if_neg hrec, present_value h]
    rfl

variable {entries : List GithubOutboxEntry}

lemma parse_entries (h : ∀ e ∈ entries, Stored e) :
    parseEntries (entries.map GithubOutboxEntry.encode) = .ok entries := by
  induction entries with
  | nil => rfl
  | cons entry entries ih =>
    have hrest := ih fun e he => h e (mem_cons_of_mem _ he)
    rw [map_cons, parseEntries, parse_encode (h entry mem_cons_self), hrest]
    rfl

lemma parse_snapshot (h : ∀ e ∈ entries, Stored e) :
    parseOutboxSnapshot (encodeSnapshot entries) = .ok entries := by
  unfold parseOutboxSnapshot encodeSnapshot object
  exact parse_entries h

lemma isJson_snapshot (h : ∀ e ∈ entries, Stored e) : (encodeSnapshot entries).IsJson := by
  apply isJson_object
  intro f hf
  simp only [mem_cons, not_mem_nil, or_false] at hf
  rcases hf with rfl | rfl
  · exact .number 1
  · apply JsValue.IsJson.array
    intro v hv
    obtain ⟨e, he, rfl⟩ := mem_map.mp hv
    exact isJson_encode (h e he)

end

/-- A key names one entry. -/
structure Kept (entries : List GithubOutboxEntry) : Prop where
  stored : ∀ e ∈ entries, Stored e
  named : (entries.map GithubOutboxEntry.key).Nodup

structure Sound (s : State) : Prop where
  memory : ∀ entries, s.snapshot = some entries → Kept entries
  disk : ∀ document, s.disk = some document →
    ∃ entries, document = encodeSnapshot entries ∧ Kept entries
  resumes : ∀ r ∈ s.resumes, validateAuthority r.1 = .ok r.1 ∧ Accepted r.2

section
variable {entries : List GithubOutboxEntry} {entry : GithubOutboxEntry}
  {project : ProjectAuthority} {request : WriteRequest}

lemma compactOutboxSnapshot_sublist : (compactOutboxSnapshot entries).Sublist entries := by
  unfold compactOutboxSnapshot
  split_ifs
  · exact List.Sublist.refl entries
  · exact keepLast_sublist

lemma Kept.sublist {fewer : List GithubOutboxEntry} (h : Kept entries)
    (hfew : fewer.Sublist entries) : Kept fewer :=
  ⟨fun e he => h.stored e (hfew.subset he), h.named.sublist (hfew.map _)⟩

lemma Kept.concat (h : Kept entries) (hentry : Stored entry)
    (hnew : entries.find? (fun e => e.key = entry.key) = none) : Kept (entries ++ [entry]) := by
  constructor
  · intro e he
    rcases mem_append.mp he with he | he
    · exact h.stored e he
    · exact (mem_singleton.mp he) ▸ hentry
  · rw [map_append, nodup_append]
    refine ⟨h.named, nodup_singleton _, ?_⟩
    intro key hkey key' hkey' heq
    obtain ⟨e, he, rfl⟩ := mem_map.mp hkey
    obtain rfl := mem_singleton.mp hkey'
    have hoth := find?_eq_none.mp hnew e he
    exact hoth (decide_eq_true heq)

lemma Kept.replace (h : Kept entries) (hentry : Stored entry) :
    Kept (entries.map fun e => if e.key = entry.key then entry else e) := by
  constructor
  · intro e he
    obtain ⟨e', he', rfl⟩ := mem_map.mp he
    split_ifs
    · exact hentry
    · exact h.stored e' he'
  · have hkeys : (entries.map fun e => if e.key = entry.key then entry else e).map
        GithubOutboxEntry.key = entries.map GithubOutboxEntry.key := by
      rw [map_map]
      apply map_congr_left
      intro e _
      rw [Function.comp_apply]
      split_ifs with hkey
      · exact hkey.symm
      · rfl
    rw [hkeys]
    exact h.named

lemma stored_queue (hproj : validateAuthority project = .ok project)
    (hreq : Accepted request) (now : ClockText) : Stored (.queue project request now) where
  authority := hproj
  request := hreq
  queued := now.not_blank
  published := by rintro t ⟨⟩
  receipt := by rintro ⟨⟩
  value := by rintro v ⟨⟩

lemma stored_publish (h : Stored entry) (value : Option { v : JsValue // v.IsJson })
    (now : ClockText) : Stored (entry.publish value now) where
  authority := h.authority
  request := h.request
  queued := h.queued
  published := by
    rintro t ⟨⟩
    exact now.not_blank
  receipt := by rintro - ⟨⟩
  value := by
    rintro v ⟨⟩
    cases value with
    | none => exact .null
    | some v => exact v.2

end

section
variable {numberText : ℚ → Text} {toon : JsValue → JsValue} {s : State} {entry : GithubOutboxEntry}
  {project : ProjectAuthority} {request : WriteRequest} {script : Script}

lemma Sound.entries (h : Sound s) : Kept s.entries := by
  unfold State.entries
  cases hsnapsh : s.snapshot with
  | none => exact ⟨by rintro e ⟨⟩, nodup_nil⟩
  | some entries => exact h.memory entries hsnapsh

lemma Sound.hold (h : Sound s) {entries : List GithubOutboxEntry} (hentr : Kept entries) :
    Sound (s.hold entries) where
  memory := by
    rintro _ ⟨⟩
    exact hentr
  disk := h.disk
  resumes := h.resumes

lemma Sound.persist (h : Sound s) : Sound s.persist where
  memory := h.memory
  disk := by
    rintro _ ⟨⟩
    exact ⟨s.entries, rfl, h.entries⟩
  resumes := h.resumes

lemma Sound.load (htoon : ∀ v : JsValue, v.IsJson → toon v = v) (h : Sound s) :
    ∃ t, load toon s = .ok t ∧ Sound t := by
  unfold OutboxRestart.load
  cases hsnapsh : s.snapshot with
  | some entries => exact ⟨s, rfl, h⟩
  | none =>
    cases hdisk : s.disk with
    | none => exact ⟨s.hold [], rfl, h.hold ⟨by rintro e ⟨⟩, nodup_nil⟩⟩
    | some document =>
      obtain ⟨entries, rfl, hkept⟩ := h.disk document hdisk
      refine ⟨s.hold (compactOutboxSnapshot entries), ?_,
        h.hold (hkept.sublist compactOutboxSnapshot_sublist)⟩
      simp only [htoon _ (isJson_snapshot hkept.stored), parse_snapshot hkept.stored]
      rfl

lemma Sound.callUpstream (h : Sound s) (hentry : Stored entry) :
    Sound (callUpstream entry script s).2 := by
  unfold OutboxRestart.callUpstream
  cases script.upstream with
  | threw => exact h
  | answered value =>
    have hpubl := stored_publish hentry value script.publishedAt
    have hrepl := h.entries.replace hpubl
    have hheld := h.hold (hrepl.sublist compactOutboxSnapshot_sublist)
    simp only
    split_ifs
    · exact hheld.persist
    · exact hheld

lemma Sound.executeLoaded (h : Sound s) (hproj : validateAuthority project = .ok project)
    (hreq : Accepted request) : Sound (executeLoaded numberText project request script s).2 := by
  unfold OutboxRestart.executeLoaded
  cases hfind : s.entries.find? fun e => e.key = keyOf project request with
  | some entry =>
    have hentry := h.entries.stored entry (mem_of_find?_eq_some hfind)
    simp only
    split_ifs
    · exact h
    · exact h
    · exact h.callUpstream hentry
  | none =>
    have hentry := stored_queue hproj hreq script.queuedAt
    have hqueued := h.hold (h.entries.concat hentry hfind)
    simp only
    split_ifs
    · exact hqueued.persist.callUpstream hentry
    · exact hqueued

lemma Sound.execute (htoon : ∀ v : JsValue, v.IsJson → toon v = v) (h : Sound s)
    (hproj : validateAuthority project = .ok project) (hreq : Accepted request) :
    Sound (execute numberText toon project request script s).2 := by
  obtain ⟨t, hload, ht⟩ := h.load htoon
  unfold OutboxRestart.execute
  rw [hload]
  exact ht.executeLoaded hproj hreq

lemma Sound.resume (htoon : ∀ v : JsValue, v.IsJson → toon v = v) (h : Sound s)
    (authority : ProjectAuthority) : Sound (resume toon authority s) := by
  unfold OutboxRestart.resume
  obtain ⟨t, hload, ht⟩ := h.load htoon
  rw [hload]
  cases hproj : validateAuthority authority with
  | error e => exact h
  | ok project =>
    obtain ⟨rfl, -⟩ := validateAuthority_ok hproj
    refine ⟨ht.memory, ht.disk, ?_⟩
    intro r hr
    rcases mem_append.mp hr with hr | hr
    · exact ht.resumes r hr
    · obtain ⟨e, he, rfl⟩ := mem_map.mp hr
      exact ⟨hproj, (ht.entries.stored e (mem_filter.mp he).1).request⟩

lemma Sound.restart (h : Sound s) : Sound (restart s) where
  memory := by rintro _ ⟨⟩
  disk := h.disk
  resumes := by rintro r ⟨⟩

lemma Sound.write (htoon : ∀ v : JsValue, v.IsJson → toon v = v) (h : Sound s)
    (authority : ProjectAuthority) (raw : JsValue) :
    Sound (write numberText toon authority raw script s).2 := by
  unfold OutboxRestart.write
  cases hproj : validateAuthority authority with
  | error e => exact h
  | ok project =>
    obtain ⟨rfl, -⟩ := validateAuthority_ok hproj
    cases hreq : validateWriteRequest raw with
    | error e => exact h
    | ok request => exact h.execute htoon hproj (accepted_of_validate hreq)

lemma Sound.step (htoon : ∀ v : JsValue, v.IsJson → toon v = v) (h : Sound s) {step : Step}
    {t : State} (hnext : next numberText toon s step = some t) : Sound t := by
  cases step with
  | write authority raw script =>
    cases hnext
    exact h.write htoon authority raw
  | resume authority =>
    cases hnext
    exact h.resume htoon authority
  | resumed i script =>
    obtain ⟨r, hr, rfl⟩ := Option.map_eq_some_iff.mp hnext
    obtain ⟨hproj, hreq⟩ := h.resumes r (mem_of_getElem? hr)
    exact h.execute htoon hproj hreq
  | restart =>
    cases hnext
    exact h.restart

lemma sound_of_reach (htoon : ∀ v : JsValue, v.IsJson → toon v = v)
    (h : (outbox numberText toon).Reach anyStep s) : Sound s := by
  refine Machine.Reach.inv Sound ?_ (fun _ _ _ hs _ hnext => hs.step htoon hnext) h
  rintro _ rfl
  exact ⟨by rintro _ ⟨⟩, by rintro _ ⟨⟩, by rintro _ ⟨⟩⟩

lemma executeLoaded_not_refused
    (hsame : ∀ entry ∈ s.entries, entry.key = keyOf project request →
      entry.request.write = request.write) (error : OutboxError) :
    (executeLoaded numberText project request script s).1 ≠ .refused error := by
  have hcalled : ∀ (entry : GithubOutboxEntry) (t : State),
      (callUpstream entry script t).1 ≠ .refused error := by
    intro entry t
    unfold callUpstream
    cases script.upstream with
    | threw => rintro ⟨⟩
    | answered value =>
      simp only
      split_ifs
      · rintro ⟨⟩
      · rintro ⟨⟩
  unfold executeLoaded
  cases hfind : s.entries.find? fun e => e.key = keyOf project request with
  | some entry =>
    have hkey : entry.key = keyOf project request := by simpa using find?_some hfind
    have hwrite := hsame entry (mem_of_find?_eq_some hfind) hkey
    simp only [hwrite, ne_eq, not_true_eq_false, if_false]
    split_ifs
    · rintro ⟨⟩
    · exact hcalled entry s
  | none =>
    simp only
    split_ifs
    · exact hcalled _ _
    · rintro ⟨⟩

end

/-- What is in memory is read back as it is. -/
structure Survives (numberText : ℚ → Text) (toon : JsValue → JsValue) (s : State) : Prop where
  stored : ∀ entries, s.snapshot = some entries →
    parseOutboxSnapshot (toon (encodeSnapshot entries)) = .ok entries
  readable : ∀ document, s.disk = some document → ∃ entries,
    document = encodeSnapshot entries ∧ parseOutboxSnapshot (toon document) = .ok entries ∧
      ∀ entry ∈ entries, ∀ authority raw project request,
        validateAuthority authority = .ok project → validateWriteRequest raw = .ok request →
          entry.key = keyOf project request → entry.request.write = request.write → ∀ script error,
              (write numberText toon authority raw script (restart s)).1 ≠ .refused error

section

def project : ProjectAuthority where
  projectId := "p".toList
  projectLabel := "owner/name".toList
  workspacePath := "/w".toList
  credentialProfile := "main".toList

def push : JsValue :=
  .object [("idempotency_key".toList, .string " k ".toList),
    ("write".toList, .object [("ref".toList, .string " refs/heads/main".toList),
      ("kind".toList, .string "repository-push".toList),
      ("sha".toList, .string (List.replicate 40 'a'))])]

def noon : ClockText := ⟨"2026-06-10T12:00:00.000Z".toList, by decide +kernel⟩

def queueOnly : Script := ⟨noon, true, .threw, noon, true⟩

def wholeText (q : ℚ) : Text := Text.integer q.num

def pushed : State := (write wholeText id project push queueOnly ⟨none, none, []⟩).2

end

end Redskilled.Daemon.OutboxRestart
