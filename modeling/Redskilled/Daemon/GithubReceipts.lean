import Redskilled.Daemon.GithubOutbox

/-!
# Where the entries of the outbox come from

An entry is in memory, on the disk, under way to a record or with a caller who was
answered. A step moves entries between these places, queues a pending one for a
request, or gives the pending entry of the call under way its receipt. What holds of
every entry that a request brings in, and of the receipts that are given, so holds of
every entry there is.
-/
namespace Redskilled.Daemon.GithubOutbox
open Foundation List

variable {ω υ : Type*}

def Stage.entries : Stage ω υ → List (Entry ω υ)
  | .recording _ entry => [entry]
  | .idle | .queueing _ | .upstream _ => []

def Stage.requests : Stage ω υ → List (Request ω)
  | .queueing call | .upstream call | .recording call _ => call.request :: call.rest
  | .idle => []

def Step.requests : Step ω υ → List (Request ω)
  | .publish request _ => [request]
  | _ => []

namespace State

def records (s : State ω υ) : List (Entry ω υ) :=
  s.entries ++ s.disk.getD [] ++ s.answers ++ s.stage.entries

def requests (s : State ω υ) : List (Request ω) := s.resumes.flatten ++ s.stage.requests

end State

/-- `P` holds of every entry there is, and of every entry that a request may queue. -/
structure Holds (P : Entry ω υ → Prop) (s : State ω υ) : Prop where
  records : ∀ entry ∈ s.records, P entry
  requests : ∀ request ∈ s.requests, ∀ now, P ⟨request.key, request.write, now, none⟩

/-- The call under way is for the write that its entry has. -/
def Agrees (s : State ω υ) : Prop :=
  ∀ call, s.stage.call? = some call →
    ∀ entry ∈ s.entries, entry.key = call.request.key → entry.write = call.request.write

section
variable {P : Entry ω υ → Prop} {s t : State ω υ} {call : Call ω} {now : Text}

lemma mem_records {entry : Entry ω υ} : entry ∈ s.records ↔
      entry ∈ s.entries ∨ entry ∈ s.disk.getD [] ∨ entry ∈ s.answers ∨ entry ∈ s.stage.entries := by
  simp [State.records]

lemma Holds.entry (h : Holds P s) {entry : Entry ω υ} (hmem : entry ∈ s.entries) : P entry :=
  h.records entry (mem_records.mpr (.inl hmem))

lemma Holds.disk (h : Holds P s) {entry : Entry ω υ} (hmem : entry ∈ s.disk.getD []) : P entry :=
  h.records entry (mem_records.mpr (.inr (.inl hmem)))

lemma Holds.answer (h : Holds P s) {entry : Entry ω υ} (hmem : entry ∈ s.answers) : P entry :=
  h.records entry (mem_records.mpr (.inr (.inr (.inl hmem))))

lemma Holds.stage (h : Holds P s) {entry : Entry ω υ} (hmem : entry ∈ s.stage.entries) : P entry :=
  h.records entry (mem_records.mpr (.inr (.inr (.inr hmem))))

lemma Holds.mono (h : Holds P s) (hrecor : t.records ⊆ s.records)
    (hreque : t.requests ⊆ s.requests) : Holds P t := by
  constructor
  · intro entry hentry
    exact h.records entry (hrecor hentry)
  · intro request hreq
    exact h.requests request (hreque hreq)

lemma Holds.imp {Q : Entry ω υ → Prop} (h : Holds P s) (hle : ∀ entry, P entry → Q entry) :
    Holds Q s := by
  constructor
  · intro entry hentry
    exact hle entry (h.records entry hentry)
  · intro request hreq now
    exact hle _ (h.requests request hreq now)

lemma Holds.throw (h : Holds P s) : Holds P s.throw := by
  apply h.mono
  · intro entry hentry
    rw [mem_records] at hentry ⊢
    exact hentry.imp_right (·.imp_right (·.imp_right fun hstage => nomatch hstage))
  · intro request hreq
    exact mem_append_left _ (by simpa [State.requests, State.throw, Stage.requests] using hreq)

lemma Holds.resolve (h : Holds P s) {rest : List (Request ω)}
    (hrest : ∀ request ∈ rest, ∀ now, P ⟨request.key, request.write, now, none⟩) :
    Holds P (s.resolve rest) := by
  constructor
  · intro entry hentry
    apply h.records
    rw [mem_records] at hentry ⊢
    exact hentry.imp_right (·.imp_right (·.imp_right fun hstage => nomatch hstage))
  · intro request hreq
    simp only [State.requests, State.resolve, Stage.requests, append_nil] at hreq
    split_ifs at hreq
    · exact h.requests request (mem_append_left _ hreq)
    · rw [flatten_append, mem_append] at hreq
      rcases hreq with hreq | hreq
      · exact h.requests request (mem_append_left _ hreq)
      · exact hrest request (by simpa using hreq)

lemma Holds.answered (h : Holds P s) {entry : Entry ω υ} (hentry : P entry) :
    Holds P { s with answers := s.answers ++ [entry] } := by
  constructor
  · intro other hoth
    simp only [mem_records, mem_append, mem_singleton] at hoth
    rcases hoth with hoth | hoth | (hoth | rfl) | hoth
    · exact h.entry hoth
    · exact h.disk hoth
    · exact h.answer hoth
    · exact hentry
    · exact h.stage hoth
  · exact h.requests

lemma Holds.persist (h : Holds P s) : Holds P s.persist := by
  apply h.mono
  · intro entry hentry
    rw [mem_records] at hentry ⊢
    rcases hentry with hentry | hentry | hentry
    · exact .inl hentry
    · exact .inl hentry
    · exact .inr (.inr hentry)
  · exact List.Subset.refl _

lemma Holds.callUpstream (h : Holds P s) (hcall : ∀ request ∈ call.request :: call.rest, ∀ now,
      P ⟨request.key, request.write, now, none⟩) : Holds P (s.callUpstream call) := by
  constructor
  · intro entry hentry
    apply h.records
    rw [mem_records] at hentry ⊢
    exact hentry.imp_right (·.imp_right (·.imp_right fun hstage => nomatch hstage))
  · intro request hreq
    rcases mem_append.mp hreq with hreq | hreq
    · exact h.requests request (mem_append_left _ hreq)
    · exact hcall request hreq

section
variable [DecidableEq ω] [DecidableEq υ]

lemma compactOutboxSnapshot_subset {entries : List (Entry ω υ)} :
    compactOutboxSnapshot entries ⊆ entries := by
  simp only [compactOutboxSnapshot]
  split_ifs
  · exact List.Subset.refl _
  · exact fun entry hentry => mem_of_mem_filter hentry

lemma Holds.load (h : Holds P s) : Holds P s.load := by
  unfold State.load
  split
  · exact h
  · constructor
    · intro entry hentry
      rw [mem_records] at hentry
      rcases hentry with hentry | hentry | hentry | hentry
      · exact h.disk (compactOutboxSnapshot_subset hentry)
      · exact h.disk hentry
      · exact h.answer hentry
      · exact h.stage hentry
    · exact h.requests

omit [DecidableEq υ] in
lemma Holds.execute (h : Holds P s) (hcall : ∀ request ∈ call.request :: call.rest, ∀ now,
      P ⟨request.key, request.write, now, none⟩) : Holds P (s.execute call now) := by
  unfold State.execute
  split
  · next entry hfind =>
      split_ifs
      · exact h.throw
      · apply (h.answered (h.entry (mem_of_find?_eq_some hfind))).resolve
        intro request hreq
        exact hcall request (mem_cons_of_mem _ hreq)
      · exact h.callUpstream hcall
  · constructor
    · intro entry hentry
      simp only [mem_records, State.entries, Option.getD_some, mem_append, mem_singleton] at hentry
      rcases hentry with (hentry | rfl) | hentry | hentry | hentry
      · exact h.entry hentry
      · exact hcall call.request mem_cons_self now
      · exact h.disk hentry
      · exact h.answer hentry
      · cases hentry
    · intro request hreq
      rcases mem_append.mp hreq with hreq | hreq
      · exact h.requests request (mem_append_left _ hreq)
      · exact hcall request hreq

lemma Holds.publish (h : Holds P s) {receipt : Receipt υ}
    (hreque : call.request :: call.rest ⊆ s.stage.requests)
    (hrec : ∀ entry ∈ s.entries, entry.key = call.request.key →
      P (entry.publish call.request.key receipt)) : Holds P (s.publish call receipt) := by
  have hpubl : ∀ entry ∈ s.entries, P (entry.publish call.request.key receipt) := by
    intro entry hentry
    by_cases hkey : entry.key = call.request.key
    · exact hrec entry hentry hkey
    · rw [Entry.publish, if_neg fun hboth => hkey hboth.1]
      exact h.entry hentry
  unfold State.publish
  split
  · next found hfind =>
      constructor
      · intro entry hentry
        rw [mem_records] at hentry
        rcases hentry with hentry | hentry | hentry | hentry
        · obtain ⟨old, hold, rfl⟩ := mem_map.mp (compactOutboxSnapshot_subset hentry)
          exact hpubl old hold
        · exact h.disk hentry
        · exact h.answer hentry
        · obtain rfl := mem_singleton.mp hentry
          exact hpubl found (mem_of_find?_eq_some hfind)
      · intro request hreq
        apply h.requests
        rcases mem_append.mp hreq with hreq | hreq
        · exact mem_append_left _ hreq
        · exact mem_append_right _ (hreque hreq)
  · exact h

/-- What holds of a pending entry whatever its time, and of an entry of the call under
way with the receipt it is given, is kept by each step. -/
lemma Holds.step (h : Holds P s) {a : Step ω υ} (hnext : next s a = some t)
    (hpend : ∀ entry, P entry → ∀ now, P ⟨entry.key, entry.write, now, none⟩)
    (hreq : ∀ request ∈ a.requests, ∀ now, P ⟨request.key, request.write, now, none⟩)
    (hrec : ∀ call receipt, s.stage = .upstream call → a = .answered receipt →
      ∀ entry ∈ s.entries, entry.key = call.request.key →
        P (entry.publish call.request.key receipt)) : Holds P t := by
  cases does_of_next hnext with
  | publish request now hidle => exact h.load.execute hreq
  | resume projectId credentialProfile hidle =>
    apply h.load.resolve
    intro request hmem
    obtain ⟨entry, hentry, rfl⟩ := mem_map.mp hmem
    exact hpend entry (h.load.entry (mem_of_mem_filter hentry))
  | resumed i now request rest hidle hi =>
    have heras : Holds P { s with resumes := s.resumes.eraseIdx i } := by
      refine @Holds.mono _ _ _ s _ h (List.Subset.refl _) fun other hoth => ?_
      rcases mem_append.mp hoth with hoth | hoth
      · obtain ⟨requests, hreque, hmem⟩ := mem_flatten.mp hoth
        apply mem_append_left
        exact mem_flatten_of_mem (mem_of_mem_eraseIdx hreque) hmem
      · exact mem_append_right _ hoth
    apply heras.load.execute
    intro other hoth
    apply h.requests
    exact mem_append_left _ (mem_flatten_of_mem (mem_of_getElem? hi) hoth)
  | queued call hstage =>
    apply h.persist.callUpstream
    intro request hmem
    apply h.requests
    simp only [State.requests, hstage, Stage.requests]
    exact mem_append_right _ hmem
  | recorded call entry hstage =>
    apply (h.persist.answered (h.stage (by simp [hstage, Stage.entries]))).resolve
    intro request hmem
    apply h.requests
    simp only [State.requests, hstage, Stage.requests]
    exact mem_append_right _ (mem_cons_of_mem _ hmem)
  | persistFailed => exact h.throw
  | answered call receipt hstage =>
    exact h.publish (by rw [hstage]; exact List.Subset.refl _) (hrec call receipt hstage rfl)
  | upstreamFailed => exact h.throw
  | restart =>
    constructor
    · intro entry hentry
      rw [mem_records] at hentry
      rcases hentry with hentry | hentry | hentry | hentry
      · cases hentry
      · exact h.disk hentry
      · exact h.answer hentry
      · cases hentry
    · intro request hmem
      cases hmem

end
end

lemma holds_fresh {P : Entry ω υ → Prop} {disk : Option (List (Entry ω υ))}
    (h : ∀ entry ∈ disk.getD [], P entry) : Holds P (fresh disk) := by
  constructor
  · intro entry hentry
    rw [mem_records] at hentry
    rcases hentry with hentry | hentry | hentry | hentry
    · cases hentry
    · exact h entry hentry
    · cases hentry
    · cases hentry
  · intro request hmem
    cases hmem

section
variable {s t : State ω υ} {call : Call ω} {now : Text}

lemma agrees_of_none (h : s.stage.call? = none) : Agrees s := by
  intro call hcall
  rw [h] at hcall
  cases hcall

variable [DecidableEq ω]

lemma agrees_execute (hkeys : (s.entries.map Entry.key).Nodup) : Agrees (s.execute call now) := by
  unfold State.execute
  split
  · next found hfind =>
      split_ifs with hwrite hpubli
      · exact agrees_of_none rfl
      · exact agrees_of_none rfl
      · intro call' hcall' entry hentry hkey
        cases hcall'
        have hfound := find?_eq_some_of_mem hkeys hentry
        rw [hkey, hfind, Option.some.injEq] at hfound
        rw [← hfound]
        exact not_not.mp hwrite
  · next hfind =>
      intro call' hcall' entry hentry hkey
      cases hcall'
      simp only [State.entries, Option.getD_some, mem_append, mem_singleton] at hentry
      rcases hentry with hentry | rfl
      · exact absurd (hkey ▸ mem_map_of_mem hentry) (find?_eq_none_iff.mp hfind)
      · rfl

variable [DecidableEq υ]

lemma Agrees.step (h : Agrees s) (hsound : Sound s) {a : Step ω υ} (hnext : next s a = some t) :
    Agrees t := by
  cases does_of_next hnext with
  | publish request now hidle => exact agrees_execute hsound.load.keys
  | resumed i now request rest hidle hi =>
    have heras : Sound { s with resumes := s.resumes.eraseIdx i } :=
      ⟨hsound.disk, hsound.keys, hsound.kept, hsound.call⟩
    exact agrees_execute heras.load.keys
  | queued call hstage =>
    intro call' hcall'
    cases hcall'
    exact h call (by rw [hstage]; rfl)
  | answered call receipt hstage =>
    unfold State.publish
    split
    · exact agrees_of_none rfl
    · exact h
  | _ => exact agrees_of_none rfl

end
end Redskilled.Daemon.GithubOutbox
