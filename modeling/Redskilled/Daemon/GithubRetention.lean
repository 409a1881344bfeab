import Redskilled.Daemon.GithubOutbox

/-!
# What the outbox still answers

A published entry is answered from the record as long as the snapshot has it, and the
retention counts places in the queue. An entry that is published late has its old place,
and may be shed by the very compaction that follows its publication.
-/
namespace Redskilled.Daemon.GithubOutbox
open Foundation List

variable {ω υ : Type*}

namespace State

def answer (s : State ω υ) (entry : Entry ω υ) : State ω υ :=
  { s with answers := s.answers ++ [entry] }

end State

section
variable {s : State ω υ} {entry : Entry ω υ} {front back : List (Entry ω υ)}

lemma mem_keepLast_of_lt
    (hfew : back.countP Entry.published < githubOutboxPublishedRetention) :
    entry ∈ keepLast githubOutboxPublishedRetention Entry.published (front ++ entry :: back) := by
  rw [keepLast_append, keepLast, if_neg]
  · exact mem_append_right _ mem_cons_self
  · rintro ⟨-, hle⟩
    omega

lemma not_published_of_le (hpublished : entry.published = true)
    (hfull : githubOutboxPublishedRetention ≤ back.countP Entry.published)
    (hlast : entry.key ∉ back.map Entry.key) {found : Entry ω υ}
    (hfound : found ∈ keepLast githubOutboxPublishedRetention Entry.published
      (front ++ entry :: back)) (hkey : found.key = entry.key) : found.published = false := by
  rw [keepLast_append, mem_append] at hfound
  rcases hfound with hfound | hfound
  · rw [countP_cons, if_pos hpublished, Nat.sub_eq_zero_of_le (by omega)] at hfound
    by_contra hshown
    have hnone : (keepLast 0 Entry.published front).countP Entry.published = 0 := by
      simp [countP_keepLast fun _ h => h]
    exact countP_eq_zero.mp hnone found hfound (by simpa using hshown)
  · rw [keepLast, if_pos ⟨hpublished, hfull⟩] at hfound
    refine absurd ?_ hlast
    rw [← hkey]
    exact mem_map_of_mem (keepLast_sublist.subset hfound)

variable [DecidableEq ω]

lemma execute_published (hsound : Sound s) (hmem : entry ∈ s.entries)
    (hpublished : entry.published = true) (hidle : s.stage = .idle) (now : Text) :
    s.execute ⟨⟨entry.key, entry.write⟩, []⟩ now = s.answer entry := by
  unfold State.execute
  rw [find?_eq_some_of_mem hsound.keys hmem]
  simp [hpublished, State.resolve, State.answer, hidle]

lemma answers_execute {call : Call ω} {now : Text}
    (h : ∀ found ∈ s.entries, found.key = call.request.key → found.published = false) :
    (s.execute call now).answers = s.answers := by
  unfold State.execute
  split
  · next found hfind =>
      have hpend := h found (mem_of_find?_eq_some hfind) (by simpa using find?_some hfind)
      rw [hpend, if_neg Bool.false_ne_true]
      split_ifs <;> rfl
  · rfl

variable [DecidableEq υ]

lemma load_of_some {entries : List (Entry ω υ)} (h : s.snapshot = some entries) : s.load = s := by
  unfold State.load
  rw [h]

/-- In every run, with whatever fails: a write that was published and is published again is
answered from the record, with no further call of the upstream, exactly when fewer entries
than the retention are published among those queued behind it. -/
theorem answered_iff_retained {s : State ω υ} (h : outbox.Reach anyStep s) (hidle : s.stage = .idle)
    (hloaded : s.snapshot = some s.entries) {front back : List (Entry ω υ)} {entry : Entry ω υ}
    (hqueued : s.queued = front ++ entry :: back) (hpublished : entry.published = true)
    (hlast : entry.key ∉ back.map Entry.key) (now : Text) :
    next s (.publish ⟨entry.key, entry.write⟩ now) = some (s.answer entry) ↔
      back.countP Entry.published < githubOutboxPublishedRetention := by
  have hsound := sound_of_reach h
  have hkept := hsound.kept s.entries hloaded
  rw [hqueued] at hkept
  have hnext : next s (.publish ⟨entry.key, entry.write⟩ now) =
      some (s.execute ⟨⟨entry.key, entry.write⟩, []⟩ now) := by
    simp only [next, hidle, load_of_some hloaded]
  rw [hnext, Option.some.injEq]
  constructor
  · intro hansw
    by_contra hfull
    have hpend : ∀ found ∈ s.entries, found.key = entry.key → found.published = false := by
      intro found hfound hkey
      rw [hkept] at hfound
      exact not_published_of_le hpublished (not_lt.mp hfull) hlast hfound hkey
    have hanswe := congrArg State.answers hansw
    rw [answers_execute hpend] at hanswe
    simp [State.answer] at hanswe
  · intro hfew
    have hmem : entry ∈ s.entries := by
      rw [hkept]
      exact mem_keepLast_of_lt hfew
    exact execute_published hsound hmem hpublished hidle now

/-- In every run, with whatever fails: the queue in memory has one entry for a key, no more
published ones than the retention, and of what was queued all that is pending. -/
theorem sheds_published_only {ok : State ω υ → Step ω υ → Prop} (h : outbox.Reach ok s)
    {entries : List (Entry ω υ)} (hloaded : s.snapshot = some entries) :
    (entries.map Entry.key).Nodup ∧
      entries.countP Entry.published ≤ githubOutboxPublishedRetention ∧
      entries.Sublist s.queued ∧ ∀ entry ∈ s.queued, entry.published = false → entry ∈ entries := by
  have hsound := sound_of_reach h
  have hkept := hsound.kept entries hloaded
  have hentr : s.entries = entries := by simp [State.entries, hloaded]
  refine ⟨hentr ▸ hsound.keys, ?_, hkept ▸ keepLast_sublist, fun entry hmem hpend => ?_⟩
  · rw [hkept, countP_keepLast fun _ h => h]
    simp
  · obtain ⟨front, back, hspl⟩ := append_of_mem hmem
    rw [hkept, hspl, keepLast_append, keepLast, if_neg (by simp [hpend])]
    exact mem_append_right _ mem_cons_self

/-- An entry that is published with a full retention behind it is shed at once. -/
lemma shed_of_late {receipt : Receipt υ} (hkeys : ((front ++ entry :: back).map Entry.key).Nodup)
    (hfull : githubOutboxPublishedRetention ≤ back.countP Entry.published) :
    entry.key ∉ (compactOutboxSnapshot
      ((front ++ entry :: back).map (Entry.publish entry.key receipt))).map Entry.key := by
  have hkeys' := hkeys
  rw [← @keys_publish _ _ _ entry.key receipt] at hkeys'
  rw [compactOutboxSnapshot_eq hkeys', map_append, map_cons, keepLast_append, keepLast]
  have hle : back.countP Entry.published ≤
      (back.map (Entry.publish entry.key receipt)).countP Entry.published := by
    rw [countP_map]
    exact countP_mono_left fun _ _ => Entry.published_publish
  rw [if_pos ⟨Entry.published_publish_self, by omega⟩]
  rw [map_append, map_cons, nodup_middle, nodup_cons] at hkeys
  intro hmem
  apply hkeys.1
  rw [map_append, mem_append] at hmem
  rw [mem_append]
  refine hmem.imp (fun hfront => ?_) fun hback => ?_
  · have hsub := (keepLast_sublist.map Entry.key).subset hfront
    rwa [keys_publish] at hsub
  · have hsub := (keepLast_sublist.map Entry.key).subset hback
    rwa [keys_publish] at hsub

lemma upstream_of_shed {request : Request ω} {now : Text} (hidle : s.stage = .idle)
    (hloaded : s.snapshot = some s.entries) (hshed : request.key ∉ s.entries.map Entry.key) :
    ∃ t u, next s (.publish request now) = some t ∧ next t .persisted = some u ∧
      u.called = s.called ++ [request.key] := by
  let entry : Entry ω υ := ⟨request.key, request.write, now, none⟩
  let t : State ω υ :=
    { s with
      snapshot := some (s.entries ++ [entry])
      queued := s.queued ++ [entry]
      stage := .queueing ⟨request, []⟩ }
  have hqueue : next s (.publish request now) = some t := by
    simp only [next, hidle, load_of_some hloaded, State.execute, find?_eq_none_iff.mpr hshed]
    rfl
  exact ⟨t, _, hqueue, rfl, rfl⟩

lemma late_run {receipt : Receipt υ} {now : Text} (hsound : Sound s) (hidle : s.stage = .idle)
    (hloaded : s.snapshot = some (front ++ entry :: back)) (hpend : entry.published = false)
    (hfull : githubOutboxPublishedRetention ≤ back.countP Entry.published) :
    ∃ t u v, outbox.Run anyStep s
        [.publish ⟨entry.key, entry.write⟩ now, .answered receipt, .persisted] t ∧
      t.answers = s.answers ++ [{ entry with receipt := some receipt }] ∧
      t.called = s.called ++ [entry.key] ∧
      next t (.publish ⟨entry.key, entry.write⟩ now) = some u ∧ next u .persisted = some v ∧
      v.called = t.called ++ [entry.key] := by
  have hentr : s.entries = front ++ entry :: back := by simp [State.entries, hloaded]
  have hkeys := hsound.keys
  have hfind := find?_eq_some_of_mem hkeys
    (show entry ∈ s.entries by rw [hentr]; exact List.mem_append_right _ List.mem_cons_self)
  have hshed := @shed_of_late _ _ entry front back _ _ receipt (hentr ▸ hkeys) hfull
  have hcall : next s (.publish ⟨entry.key, entry.write⟩ now) =
      some (s.callUpstream ⟨⟨entry.key, entry.write⟩, []⟩) := by
    simp [next, hidle, load_of_some hloaded, State.execute, hfind, hpend]
  let answered : Entry ω υ := { entry with receipt := some receipt }
  let recorded : State ω υ := ({ s with
    called := s.called ++ [entry.key]
    queued := s.queued.map (Entry.publish entry.key receipt)
    stage := .recording ⟨⟨entry.key, entry.write⟩, []⟩ answered } : State ω υ).hold
      ((front ++ entry :: back).map (Entry.publish entry.key receipt))
  have hanswer : next (s.callUpstream ⟨⟨entry.key, entry.write⟩, []⟩) (.answered receipt) =
      some recorded := by
    have hpubl : (s.callUpstream ⟨⟨entry.key, entry.write⟩, []⟩).publish
        ⟨⟨entry.key, entry.write⟩, []⟩ receipt = recorded := by
      unfold State.publish
      split
      · next found hfound =>
          obtain rfl := Option.some.inj (hfind.symm.trans hfound)
          rw [Entry.publish_self hpend]
          simp only [recorded, ← hentr]
          rfl
      · next hnone => cases hfind.symm.trans hnone
    exact congrArg some hpubl
  let t : State ω υ := { recorded.persist with answers := s.answers ++ [answered] }.resolve []
  have hrun : outbox.Run anyStep s
      [.publish ⟨entry.key, entry.write⟩ now, .answered receipt, .persisted] t :=
    .cons trivial hcall (.cons trivial hanswer (.single trivial rfl))
  obtain ⟨u, v, hqueue, hagain, hcalls⟩ :=
    @upstream_of_shed _ _ t _ _ ⟨entry.key, entry.write⟩ now rfl rfl hshed
  exact ⟨t, u, v, hrun, rfl, rfl, hqueue, hagain, hcalls⟩

lemma loaded_run {entries : List (Entry ω υ)} (hkeys : (entries.map Entry.key).Nodup)
    (hshort : entries.countP Entry.published ≤ githubOutboxPublishedRetention) :
    ∃ s : State ω υ, outbox.Reach anyStep s ∧ s.stage = .idle ∧ s.snapshot = some entries ∧
      s.answers = [] ∧ s.called = [] := by
  have hcomp : compactOutboxSnapshot entries = entries := by
    rw [compactOutboxSnapshot_eq hkeys, keepLast_eq_self hshort]
  have hstart : outbox.start (fresh (some entries)) := ⟨rfl, hkeys⟩
  exact ⟨_, (Machine.Reach.of_start hstart).step (a := .resume [] []) trivial rfl, rfl,
    congrArg some hcomp, rfl, rfl⟩

end

section

def lateEntry : Entry Unit Unit := ⟨⟨['p'], ['c'], ['k']⟩, (), [], none⟩

def late : Request Unit := ⟨lateEntry.key, ()⟩

def receipt : Receipt Unit := ⟨[], ()⟩

def old : List (Entry Unit Unit) :=
  (List.range githubOutboxPublishedRetention).map fun i =>
    ⟨⟨['p'], ['c'], List.replicate i 'a'⟩, (), [], some receipt⟩

lemma countP_old : old.countP Entry.published = githubOutboxPublishedRetention := by
  have hall : ∀ entry ∈ old, entry.published = true := by
    intro entry hentry
    obtain ⟨i, -, rfl⟩ := mem_map.mp hentry
    rfl
  rw [countP_eq_length.mpr hall]
  simp [old]

lemma nodup_old : ((lateEntry :: old).map Entry.key).Nodup := by
  rw [map_cons, nodup_cons, old, map_map]
  constructor
  · intro hmem
    obtain ⟨i, -, heq⟩ := mem_map.mp hmem
    have hkey : replicate i 'a' = ['k'] := congrArg Key.idempotencyKey heq
    have hall : 'k' ∈ replicate i 'a' := by
      rw [hkey]
      exact mem_singleton_self _
    exact absurd (eq_of_mem_replicate hall) (by decide)
  · apply List.Nodup.map _ nodup_range
    intro i j heq
    have hkey := congrArg (fun key : Key => key.idempotencyKey.length) heq
    simpa using hkey

theorem answered_after_publish : ∃ s : State Unit Unit, outbox.exec (fresh none)
        [.publish late [], .persisted, .answered receipt, .persisted] = some s ∧
      next s (.publish late []) = some (s.answer ⟨late.key, (), [], some receipt⟩) := by
  have hrun : (outbox.exec (fresh none : State Unit Unit)
      [.publish late [], .persisted, .answered receipt, .persisted]).map
        (fun s => (s.stage, s.snapshot, s.queued)) =
      some (.idle, some [⟨late.key, (), [], some receipt⟩],
        [⟨late.key, (), [], some receipt⟩]) := by
    decide +kernel
  obtain ⟨s, hs, hview⟩ := Option.map_eq_some_iff.mp hrun
  obtain ⟨hidle, hview⟩ := Prod.mk.inj hview
  obtain ⟨hsnapsh, hqueued⟩ := Prod.mk.inj hview
  have hreach : outbox.Reach anyStep s := Machine.reach_of_exec start_fresh hs
  have hloaded : s.snapshot = some s.entries := by simp [State.entries, hsnapsh]
  refine ⟨s, hs, ?_⟩
  exact (@answered_iff_retained _ _ _ _ s hreach hidle hloaded [] [] ⟨late.key, (), [], some receipt⟩
    hqueued rfl not_mem_nil []).mpr (by decide)

theorem pending_stays :
    ∃ s : State Unit Unit, outbox.exec (fresh none) [.publish late [], .persisted] = some s ∧
      ∀ entry ∈ s.queued, entry.published = false →
        entry ∈ [(⟨late.key, (), [], none⟩ : Entry Unit Unit)] := by
  have hrun : (outbox.exec (fresh none : State Unit Unit)
      [.publish late [], .persisted]).map (·.snapshot) = some (some [⟨late.key, (), [], none⟩]) := by
    decide +kernel
  obtain ⟨s, hs, hloaded⟩ := Option.map_eq_some_iff.mp hrun
  exact ⟨s, hs, (sheds_published_only (Machine.reach_of_exec start_fresh hs) hloaded).2.2.2⟩

/-- An entry is published behind as many others as the retention keeps, with none published after
it. -/
theorem late_is_called_twice : ∃ s t u : State Unit Unit, outbox.Reach anyStep s ∧
      s.answers = [{ lateEntry with receipt := some receipt }] ∧ s.called = [late.key] ∧
      next s (.publish late []) = some t ∧ next t .persisted = some u ∧
      u.called = [late.key, late.key] := by
  have hshort : (lateEntry :: old).countP Entry.published ≤ githubOutboxPublishedRetention := by
    rw [List.countP_cons_of_neg (by simp [lateEntry, Entry.published]), countP_old]
  obtain ⟨s, hreach, hidle, hloaded, hanswe, hcalled⟩ := loaded_run nodup_old hshort
  obtain ⟨t, u, v, hrun, hansw, hcalls, hqueue, hagain, htwice⟩ :=
    @late_run _ _ s lateEntry [] old _ _ receipt [] (sound_of_reach hreach) hidle hloaded rfl
      countP_old.ge
  rw [hanswe] at hansw
  rw [hcalled] at hcalls
  rw [hcalls] at htwice
  exact ⟨t, u, v, hreach.trans hrun, hansw, hcalls, hqueue, hagain, htwice⟩

end
end Redskilled.Daemon.GithubOutbox
