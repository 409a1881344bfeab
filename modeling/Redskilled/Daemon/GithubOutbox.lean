import Redskilled.Foundation.JsText
import Redskilled.Foundation.Machine
import Redskilled.Foundation.Retention

/-!
# The GitHub outbox

A write to GitHub is queued as a pending entry under an idempotency key, written to
the disk, handed to the upstream, and published with what the upstream answered. The
queue sheds the published entries but the last of them, by their place in it.

One operation is under way at a time, and each of its awaits is a step: the two
writes of the file and the call between them. The entry is pushed to the snapshot in
memory before the first write, and a write that fails leaves it there.

A write is told by its JSON text, of type `ω`; what the upstream answers, `null`
where it answers nothing, has the type `υ`.
-/
namespace Redskilled.Daemon.GithubOutbox
open Foundation List

structure Key where
  projectId : Text
  credentialProfile : Text
  idempotencyKey : Text
  deriving DecidableEq

structure Receipt (υ : Type*) where
  publishedAt : Text
  value : υ
  deriving DecidableEq

structure Entry (ω υ : Type*) where
  key : Key
  write : ω
  queuedAt : Text
  receipt : Option (Receipt υ)
  deriving DecidableEq

structure Request (ω : Type*) where
  key : Key
  write : ω
  deriving DecidableEq

/-- `execute` of a request, and what a resume has still to execute behind it. -/
structure Call (ω : Type*) where
  request : Request ω
  rest : List (Request ω)
  deriving DecidableEq

inductive Stage (ω υ : Type*) where
  | idle
  | queueing (call : Call ω)
  | upstream (call : Call ω)
  | recording (call : Call ω) (entry : Entry ω υ)
  deriving DecidableEq

structure State (ω υ : Type*) where
  snapshot : Option (List (Entry ω υ))
  /-- `none` is no file. -/
  disk : Option (List (Entry ω υ))
  stage : Stage ω υ
  resumes : List (List (Request ω))
  answers : List (Entry ω υ)
  /-- The keys that the upstream was called for. -/
  called : List Key
  queued : List (Entry ω υ)
  shed : List Key

variable {ω υ : Type*}

namespace Entry

def published (entry : Entry ω υ) : Bool := entry.receipt.isSome

def publish (key : Key) (receipt : Receipt υ) (entry : Entry ω υ) : Entry ω υ :=
  if entry.key = key ∧ entry.published = false then { entry with receipt := some receipt } else entry

end Entry

def githubOutboxPublishedRetention : ℕ := 500

section
variable [DecidableEq ω] [DecidableEq υ]

def compactOutboxSnapshot (entries : List (Entry ω υ)) : List (Entry ω υ) :=
  let published := entries.filter Entry.published
  if published.length ≤ githubOutboxPublishedRetention then entries
  else
    let keep := published.drop (published.length - githubOutboxPublishedRetention)
    entries.filter fun entry => !entry.published || decide (entry ∈ keep)

namespace State
variable (s : State ω υ)

def entries : List (Entry ω υ) := s.snapshot.getD []

def hold (entries : List (Entry ω υ)) : State ω υ :=
  let kept := compactOutboxSnapshot entries
  { s with
    snapshot := some kept
    shed := s.shed ++ (entries.map Entry.key).filter (· ∉ kept.map Entry.key) }

def load : State ω υ :=
  match s.snapshot with
  | some _ => s
  | none => { s with queued := s.disk.getD [] }.hold (s.disk.getD [])

def persist : State ω υ := { s with disk := some s.entries }

def resolve (rest : List (Request ω)) : State ω υ :=
  { s with stage := .idle, resumes := if rest.isEmpty then s.resumes else s.resumes ++ [rest] }

def throw : State ω υ := { s with stage := .idle }

def callUpstream (call : Call ω) : State ω υ :=
  { s with stage := .upstream call, called := s.called ++ [call.request.key] }

def execute (call : Call ω) (now : Text) : State ω υ :=
  match s.entries.find? (·.key = call.request.key) with
  | some entry =>
    if entry.write ≠ call.request.write then s.throw
    else if entry.published then { s with answers := s.answers ++ [entry] }.resolve call.rest
    else s.callUpstream call
  | none =>
    let entry : Entry ω υ := ⟨call.request.key, call.request.write, now, none⟩
    { s with
      snapshot := some (s.entries ++ [entry])
      queued := s.queued ++ [entry]
      stage := .queueing call }

def publish (call : Call ω) (receipt : Receipt υ) : State ω υ :=
  match s.entries.find? (·.key = call.request.key) with
  | some entry =>
    { s with
      queued := s.queued.map (Entry.publish call.request.key receipt)
      stage := .recording call (entry.publish call.request.key receipt) }.hold
        (s.entries.map (Entry.publish call.request.key receipt))
  | none => s

def pending (projectId credentialProfile : Text) : List (Request ω) :=
  (s.entries.filter fun entry =>
    !entry.published && decide (entry.key.projectId = projectId) &&
      decide (entry.key.credentialProfile = credentialProfile)).map
        fun entry => ⟨entry.key, entry.write⟩

end State

inductive Step (ω υ : Type*) where
  | publish (request : Request ω) (now : Text)
  | resume (projectId credentialProfile : Text)
  | resumed (i : ℕ) (now : Text)
  | persisted
  | persistFailed
  | answered (receipt : Receipt υ)
  | upstreamFailed
  | restart

def next (s : State ω υ) : Step ω υ → Option (State ω υ)
  | .publish request now =>
    match s.stage with
    | .idle => some (s.load.execute ⟨request, []⟩ now)
    | _ => none
  | .resume projectId credentialProfile =>
    match s.stage with
    | .idle => some (s.load.resolve (s.load.pending projectId credentialProfile))
    | _ => none
  | .resumed i now =>
    match s.stage, s.resumes[i]? with
    | .idle, some (request :: rest) =>
      some ({ s with resumes := s.resumes.eraseIdx i }.load.execute ⟨request, rest⟩ now)
    | _, _ => none
  | .persisted =>
    match s.stage with
    | .queueing call => some (s.persist.callUpstream call)
    | .recording call entry =>
      some ({ s.persist with answers := s.answers ++ [entry] }.resolve call.rest)
    | _ => none
  | .persistFailed =>
    match s.stage with
    | .queueing _ | .recording _ _ => some s.throw
    | _ => none
  | .answered receipt =>
    match s.stage with
    | .upstream call => some (s.publish call receipt)
    | _ => none
  | .upstreamFailed =>
    match s.stage with
    | .upstream _ => some s.throw
    | _ => none
  | .restart =>
    some { s with snapshot := none, stage := .idle, resumes := [], queued := [] }

inductive Does (s : State ω υ) : Step ω υ → State ω υ → Prop
  | publish (request : Request ω) (now : Text) :
      s.stage = .idle → Does s (.publish request now) (s.load.execute ⟨request, []⟩ now)
  | resume (projectId credentialProfile : Text) :
      s.stage = .idle → Does s (.resume projectId credentialProfile)
        (s.load.resolve (s.load.pending projectId credentialProfile))
  | resumed (i : ℕ) (now : Text) (request : Request ω) (rest : List (Request ω)) :
      s.stage = .idle → s.resumes[i]? = some (request :: rest) → Does s (.resumed i now)
        ({ s with resumes := s.resumes.eraseIdx i }.load.execute ⟨request, rest⟩ now)
  | queued (call : Call ω) :
      s.stage = .queueing call → Does s .persisted (s.persist.callUpstream call)
  | recorded (call : Call ω) (entry : Entry ω υ) :
      s.stage = .recording call entry → Does s .persisted
        ({ s.persist with answers := s.answers ++ [entry] }.resolve call.rest)
  | persistFailed : Does s .persistFailed s.throw
  | answered (call : Call ω) (receipt : Receipt υ) :
      s.stage = .upstream call → Does s (.answered receipt) (s.publish call receipt)
  | upstreamFailed : Does s .upstreamFailed s.throw
  | restart : Does s .restart { s with snapshot := none, stage := .idle, resumes := [], queued := [] }

lemma does_of_next {s t : State ω υ} {a : Step ω υ} (h : next s a = some t) : Does s a t := by
  cases a with
  | publish request now =>
    cases hstage : s.stage <;> simp only [next, hstage, reduceCtorEq, Option.some.injEq] at h
    exact h ▸ .publish request now hstage
  | resume projectId credentialProfile =>
    cases hstage : s.stage <;> simp only [next, hstage, reduceCtorEq, Option.some.injEq] at h
    exact h ▸ .resume projectId credentialProfile hstage
  | resumed i now =>
    simp only [next] at h
    split at h
    · next hidle hi =>
        cases h
        exact .resumed i now _ _ hidle hi
    · cases h
  | persisted =>
    cases hstage : s.stage <;> simp only [next, hstage, reduceCtorEq, Option.some.injEq] at h
    · exact h ▸ .queued _ hstage
    · exact h ▸ .recorded _ _ hstage
  | persistFailed =>
    cases hstage : s.stage <;> simp only [next, hstage, reduceCtorEq, Option.some.injEq] at h
    · exact h ▸ .persistFailed
    · exact h ▸ .persistFailed
  | answered receipt =>
    cases hstage : s.stage <;> simp only [next, hstage, reduceCtorEq, Option.some.injEq] at h
    exact h ▸ .answered _ receipt hstage
  | upstreamFailed =>
    cases hstage : s.stage <;> simp only [next, hstage, reduceCtorEq, Option.some.injEq] at h
    exact h ▸ .upstreamFailed
  | restart =>
    cases h
    exact .restart

def fresh (disk : Option (List (Entry ω υ))) : State ω υ := ⟨none, disk, .idle, [], [], [], [], []⟩

def outbox : Machine (State ω υ) (Step ω υ) where
  start s := s = fresh s.disk ∧ ((s.disk.getD []).map Entry.key).Nodup
  next := next

end

section
variable {entry : Entry ω υ} {entries : List (Entry ω υ)} {key : Key} {receipt : Receipt υ}

@[simp] lemma Entry.key_publish : (entry.publish key receipt).key = entry.key := by
  unfold Entry.publish
  split_ifs <;> rfl

lemma Entry.published_publish (h : entry.published = true) :
    (entry.publish key receipt).published = true := by
  simp [Entry.publish, h]

lemma Entry.publish_self (h : entry.published = false) :
    entry.publish entry.key receipt = { entry with receipt := some receipt } := by
  simp [Entry.publish, h]

lemma Entry.published_publish_self : (entry.publish entry.key receipt).published = true := by
  cases h : entry.published with
  | true => exact Entry.published_publish h
  | false =>
    rw [Entry.publish_self h]
    rfl

@[simp] lemma keys_publish :
    (entries.map (Entry.publish key receipt)).map Entry.key = entries.map Entry.key := by
  simp [Function.comp_def]

lemma find?_eq_some_of_mem (h : (entries.map Entry.key).Nodup) (hmem : entry ∈ entries) :
    entries.find? (·.key = entry.key) = some entry := by
  induction entries with
  | nil => cases hmem
  | cons first rest ih =>
    rw [map_cons, nodup_cons] at h
    rcases mem_cons.mp hmem with rfl | hmem
    · simp
    · have hne : first.key ≠ entry.key := by
        intro heq
        exact h.1 (heq ▸ mem_map_of_mem hmem)
      rw [find?_cons_of_neg (by simpa using hne)]
      exact ih h.2 hmem

lemma find?_eq_none_iff : entries.find? (·.key = key) = none ↔ key ∉ entries.map Entry.key := by
  simp

variable [DecidableEq ω] [DecidableEq υ]

lemma compactOutboxSnapshot_eq (h : (entries.map Entry.key).Nodup) : compactOutboxSnapshot entries =
      keepLast githubOutboxPublishedRetention Entry.published entries := by
  simp only [compactOutboxSnapshot, ← countP_eq_length_filter]
  split_ifs with hshort
  · exact (keepLast_eq_self hshort).symm
  · rw [countP_eq_length_filter]
    exact filter_eq_keepLast (List.Nodup.of_map Entry.key h)

lemma compactOutboxSnapshot_sublist (h : (entries.map Entry.key).Nodup) :
    (compactOutboxSnapshot entries).Sublist entries := by
  rw [compactOutboxSnapshot_eq h]
  exact keepLast_sublist

lemma nodup_compact (h : (entries.map Entry.key).Nodup) :
    ((compactOutboxSnapshot entries).map Entry.key).Nodup :=
  h.sublist ((compactOutboxSnapshot_sublist h).map Entry.key)

end

/-- The call that has a pending entry: the one whose entry is being queued, or whose
upstream is under way. -/
def Stage.call? : Stage ω υ → Option (Call ω)
  | .queueing call | .upstream call => some call
  | .idle | .recording _ _ => none

/-- Keys are names, what is in memory is the queue less what its retention sheds, and a
call under way has a pending entry. -/
structure Sound (s : State ω υ) : Prop where
  disk : ((s.disk.getD []).map Entry.key).Nodup
  keys : (s.entries.map Entry.key).Nodup
  kept : ∀ entries, s.snapshot = some entries →
    entries = keepLast githubOutboxPublishedRetention Entry.published s.queued
  call : ∀ call, s.stage.call? = some call →
    ∃ entry ∈ s.entries, entry.key = call.request.key ∧ entry.published = false

section
variable {s t : State ω υ} {call : Call ω} {now : Text}

lemma Sound.settle (h : Sound s) (hsnapsh : t.snapshot = s.snapshot) (hdisk : t.disk = s.disk)
    (hqueued : t.queued = s.queued) (hstage : t.stage.call? = none) : Sound t := by
  have hentr : t.entries = s.entries := by simp [State.entries, hsnapsh]
  refine ⟨hdisk ▸ h.disk, hentr ▸ h.keys, ?_, fun call hcall => ?_⟩
  · rw [hsnapsh, hqueued]
    exact h.kept
  · rw [hstage] at hcall
    cases hcall

lemma Sound.throw (h : Sound s) : Sound s.throw := h.settle rfl rfl rfl rfl

lemma Sound.resolve (h : Sound s) {rest : List (Request ω)} : Sound (s.resolve rest) :=
  h.settle rfl rfl rfl rfl

lemma Sound.persist (h : Sound s) : Sound s.persist := ⟨h.keys, h.keys, h.kept, h.call⟩

lemma Sound.callUpstream (h : Sound s)
    (hcall : ∃ entry ∈ s.entries, entry.key = call.request.key ∧ entry.published = false) :
    Sound (s.callUpstream call) := by
  refine ⟨h.disk, h.keys, h.kept, fun call' hcall' => ?_⟩
  cases hcall'
  exact hcall

lemma loaded_of_call (h : Sound s) (hcall : s.stage.call? = some call) :
    s.snapshot = some s.entries := by
  obtain ⟨entry, hmem, -⟩ := h.call call hcall
  cases hsnapsh : s.snapshot with
  | none => simp [State.entries, hsnapsh] at hmem
  | some entries => simp [State.entries, hsnapsh]

variable [DecidableEq ω] [DecidableEq υ]

lemma Sound.load (h : Sound s) : Sound s.load := by
  unfold State.load
  split
  · exact h
  · next hnone =>
      refine ⟨h.disk, nodup_compact h.disk, fun entries hsome => ?_, fun call hcall => ?_⟩
      · cases hsome
        exact compactOutboxSnapshot_eq h.disk
      · obtain ⟨entry, hmem, -⟩ := h.call call hcall
        simp [State.entries, hnone] at hmem

lemma snapshot_load : s.load.snapshot = some s.load.entries := by
  unfold State.load
  split
  · next entries hsome => simp [State.entries, hsome]
  · rfl

lemma disk_load : s.load.disk = s.disk := by
  unfold State.load
  split <;> rfl

omit [DecidableEq υ] in
lemma Sound.execute (h : Sound s) (hload : s.snapshot = some s.entries) :
    Sound (s.execute call now) := by
  unfold State.execute
  split
  · next entry hfind =>
      split_ifs with hwrite hpubl
      · exact h.throw
      · exact h.settle rfl rfl rfl rfl
      · refine h.callUpstream ⟨entry, mem_of_find?_eq_some hfind, ?_, by simpa using hpubl⟩
        simpa using find?_some hfind
  · next hfind =>
      have hfresh := find?_eq_none_iff.mp hfind
      refine ⟨h.disk, ?_, fun entries hsome => ?_, fun call' hcall' => ?_⟩
      · simp only [State.entries, Option.getD_some, map_append, map_cons, map_nil]
        rw [nodup_append]
        refine ⟨h.keys, nodup_singleton _, fun k hk k' hk' heq => hfresh ?_⟩
        obtain rfl := mem_singleton.mp hk'
        exact heq ▸ hk
      · cases hsome
        rw [keepLast_concat _ rfl, ← h.kept _ hload]
      · cases hcall'
        exact ⟨_, mem_append_right _ (mem_singleton_self _), rfl, rfl⟩

lemma Sound.publish (h : Sound s) {receipt : Receipt υ} (hload : s.snapshot = some s.entries) :
    Sound (s.publish call receipt) := by
  unfold State.publish
  split
  · have hkeys : ((s.entries.map (Entry.publish call.request.key receipt)).map Entry.key).Nodup := by
      rw [keys_publish]
      exact h.keys
    refine ⟨h.disk, nodup_compact hkeys, fun entries hsome => ?_, fun call hcall => ?_⟩
    · cases hsome
      rw [compactOutboxSnapshot_eq hkeys, h.kept _ hload]
      exact keepLast_map_keepLast fun _ => Entry.published_publish
    · cases hcall
  · exact h

lemma Sound.step (h : Sound s) {a : Step ω υ} (hnext : next s a = some t) : Sound t := by
  cases does_of_next hnext with
  | publish request now hidle => exact h.load.execute snapshot_load
  | resume projectId credentialProfile hidle => exact h.load.resolve
  | resumed i now request rest hidle hi =>
    have heras : Sound { s with resumes := s.resumes.eraseIdx i } :=
      ⟨h.disk, h.keys, h.kept, h.call⟩
    exact heras.load.execute snapshot_load
  | queued call hstage =>
    apply h.persist.callUpstream
    exact h.call call (by rw [hstage]; rfl)
  | recorded call entry hstage => exact h.persist.settle rfl rfl rfl rfl
  | persistFailed => exact h.throw
  | answered call receipt hstage => exact h.publish (loaded_of_call h (by rw [hstage]; rfl))
  | upstreamFailed => exact h.throw
  | restart => exact ⟨h.disk, nodup_nil, nofun, nofun⟩

lemma sound_of_reach {ok : State ω υ → Step ω υ → Prop} (h : outbox.Reach ok s) : Sound s := by
  refine Machine.Reach.inv Sound (fun s hstart => ?_) (fun s a t hs _ hnext => hs.step hnext) h
  obtain ⟨hs, hdisk⟩ := hstart
  rw [hs]
  exact ⟨hdisk, nodup_nil, nofun, nofun⟩

lemma start_fresh : outbox.start (fresh none : State ω υ) := ⟨rfl, List.nodup_nil⟩

end
end Redskilled.Daemon.GithubOutbox
