import Redskilled.Daemon.GithubOutbox

/-!
# Obligation before effect

The outbox writes an entry to the disk before it calls the upstream for it, so that a
daemon that starts again finds what it may have done. An entry whose first write has
failed stays pending in memory; a call that finds it there goes on to the upstream, and
the disk knows nothing of it.
-/
namespace Redskilled.Daemon.GithubOutbox
open Foundation List

variable {ω υ : Type*} {s t : State ω υ} {call : Call ω} {now : Text}

def State.diskKeys (s : State ω υ) : List Key := (s.disk.getD []).map Entry.key

/-- The upstream is called for a key that is on the disk. -/
structure Obliged (s : State ω υ) : Prop where
  upstream : ∀ call, s.stage = .upstream call → call.request.key ∈ s.diskKeys
  called : ∀ key ∈ s.called, key ∈ s.diskKeys ∨ key ∈ s.shed

/-- The request is pending in memory, and the disk has no entry of its key. -/
def Unsaved (s : State ω υ) (request : Request ω) : Prop :=
  (∃ entry ∈ s.entries, entry.key = request.key ∧ entry.write = request.write ∧
    entry.published = false) ∧ request.key ∉ s.diskKeys

/-- No call repeats a request that is pending in memory only. -/
def Saved (s : State ω υ) : Step ω υ → Prop
  | .publish request _ => ¬Unsaved s request
  | .resumed i _ => match s.resumes[i]? with
    | some (request :: _) => ¬Unsaved s request
    | _ => True
  | _ => True

instance [DecidableEq ω] (s : State ω υ) (request : Request ω) : Decidable (Unsaved s request) :=
  inferInstanceAs (Decidable ((∃ _ ∈ _, _) ∧ _))

instance [DecidableEq ω] (s : State ω υ) (a : Step ω υ) : Decidable (Saved s a) :=
  match a with
  | .publish request _ => inferInstanceAs (Decidable (¬Unsaved s request))
  | .resumed i _ =>
    match h : s.resumes[i]? with
    | some (request :: _) => decidable_of_iff (¬Unsaved s request) (by simp [Saved, h])
    | some [] | none => isTrue (by simp [Saved, h])
  | .resume _ _ | .persisted | .persistFailed | .answered _ | .upstreamFailed | .restart =>
    isTrue trivial

structure Kept (s : State ω υ) : Prop extends Sound s, Obliged s where
  held : ∀ key ∈ s.called, ∀ entries, s.snapshot = some entries →
    key ∈ entries.map Entry.key ∨ key ∈ s.shed
  recording : ∀ call entry, s.stage = .recording call entry → s.snapshot = some s.entries

lemma Kept.settle (h : Kept s) (hsnapsh : t.snapshot = s.snapshot) (hdisk : t.disk = s.disk)
    (hqueued : t.queued = s.queued) (hcalled : t.called = s.called) (hshed : t.shed = s.shed)
    (hstage : t.stage = .idle) : Kept t := by
  have hsound := h.toSound.settle hsnapsh hdisk hqueued (by rw [hstage]; rfl)
  have hkeys : t.diskKeys = s.diskKeys := by simp [State.diskKeys, hdisk]
  constructor
  · exact hsound
  · constructor
    · intro call hcall
      rw [hstage] at hcall
      cases hcall
    · rw [hcalled, hkeys, hshed]
      exact h.called
  · rw [hcalled, hsnapsh, hshed]
    exact h.held
  · intro call entry hcall
    rw [hstage] at hcall
    cases hcall

lemma Kept.throw (h : Kept s) : Kept s.throw := h.settle rfl rfl rfl rfl rfl rfl

lemma Kept.resolve (h : Kept s) {rest : List (Request ω)} : Kept (s.resolve rest) :=
  h.settle rfl rfl rfl rfl rfl rfl

lemma Kept.callUpstream (h : Kept s) (hsav : call.request.key ∈ s.diskKeys)
    (hpend : ∃ entry ∈ s.entries, entry.key = call.request.key ∧ entry.published = false) :
    Kept (s.callUpstream call) := by
  constructor
  · exact h.toSound.callUpstream hpend
  · constructor
    · intro call' hcall
      cases hcall
      exact hsav
    · intro key hkey
      rcases mem_append.mp hkey with hkey | hkey
      · exact h.called key hkey
      · obtain rfl := mem_singleton.mp hkey
        exact Or.inl hsav
  · intro key hkey entries hsome
    rcases mem_append.mp hkey with hkey | hkey
    · exact h.held key hkey entries hsome
    · obtain rfl := mem_singleton.mp hkey
      obtain ⟨entry, hmem, hentry, -⟩ := hpend
      have hentr : s.entries = entries := by
        simp only [State.callUpstream] at hsome
        simp [State.entries, hsome]
      left
      rw [← hentr, ← hentry]
      exact mem_map_of_mem hmem
  · intro call' entry hstage
    cases hstage

lemma Kept.persist (h : Kept s) (hload : s.snapshot = some s.entries) : Kept s.persist := by
  have hcalled : ∀ key ∈ s.called, key ∈ s.entries.map Entry.key ∨ key ∈ s.shed :=
    fun key hkey => h.held key hkey s.entries hload
  constructor
  · exact h.toSound.persist
  · constructor
    · intro call hcall
      obtain ⟨entry, hmem, hentry, -⟩ := h.call call (by rw [show s.stage = _ from hcall]; rfl)
      rw [← hentry]
      exact mem_map_of_mem hmem
    · exact hcalled
  · exact h.held
  · exact h.recording

section
variable [DecidableEq ω] [DecidableEq υ]

lemma mem_hold {entries : List (Entry ω υ)} {key : Key}
    (h : key ∈ entries.map Entry.key ∨ key ∈ s.shed) :
    key ∈ (compactOutboxSnapshot entries).map Entry.key ∨ key ∈ (s.hold entries).shed := by
  by_cases hkept : key ∈ (compactOutboxSnapshot entries).map Entry.key
  · exact Or.inl hkept
  · right
    rcases h with h | h
    · exact mem_append_right _ (mem_filter.mpr ⟨h, by simpa using hkept⟩)
    · exact mem_append_left _ h

lemma Kept.load (h : Kept s) : Kept s.load := by
  have hsound := h.toSound.load
  unfold State.load at hsound ⊢
  split at hsound
  · exact h
  · next hnone =>
      constructor
      · exact hsound
      · constructor
        · exact h.upstream
        · intro key hkey
          exact (h.called key hkey).imp_right (mem_append_left _)
      · intro key hkey entries hsome
        cases hsome
        exact mem_hold (h.called key hkey)
      · intro call entry hcall
        rfl

lemma Kept.publish (h : Kept s) {receipt : Receipt υ} (hcall : s.stage.call? = some call) :
    Kept (s.publish call receipt) := by
  have hload := loaded_of_call h.toSound hcall
  have hsound : Sound (s.publish call receipt) := h.toSound.publish hload
  unfold State.publish at hsound ⊢
  split at hsound
  · constructor
    · exact hsound
    · constructor
      · intro call' hstage
        cases hstage
      · intro key hkey
        exact (h.called key hkey).imp_right (mem_append_left _)
    · intro key hkey entries hsome
      cases hsome
      apply mem_hold
      rw [keys_publish]
      exact h.held key hkey s.entries hload
    · intro call entry hcall
      rfl
  · exact h

omit [DecidableEq υ] in
lemma Kept.execute (h : Kept s) (hload : s.snapshot = some s.entries)
    (hsav : ¬Unsaved s call.request) : Kept (s.execute call now) := by
  have hsound : Sound (s.execute call now) := h.toSound.execute hload
  unfold State.execute at hsound ⊢
  split at hsound
  · next entry hfind =>
      have hmem := mem_of_find?_eq_some hfind
      have hkey : entry.key = call.request.key := by simpa using find?_some hfind
      split_ifs with hwrite hpubl
      · exact h.throw
      · exact h.settle rfl rfl rfl rfl rfl rfl
      · have hpend : entry.published = false := by simpa using hpubl
        apply h.callUpstream
        · by_contra hdisk
          exact hsav ⟨⟨entry, hmem, hkey, by simpa using hwrite, hpend⟩, hdisk⟩
        · exact ⟨entry, hmem, hkey, hpend⟩
  · constructor
    · exact hsound
    · constructor
      · intro call' hstage
        cases hstage
      · exact h.called
    · intro key hkey entries hsome
      cases hsome
      refine (h.held key hkey s.entries hload).imp_left fun hheld => ?_
      rw [map_append]
      exact mem_append_left _ hheld
    · intro call' entry hstage
      cases hstage

lemma not_unsaved_load {request : Request ω} (h : Sound s) (hsav : ¬Unsaved s request) :
    ¬Unsaved s.load request := by
  rintro ⟨⟨entry, hmem, hkey, hrest⟩, hdisk⟩
  rw [State.diskKeys, disk_load] at hdisk
  unfold State.load at hmem
  split at hmem
  · exact hsav ⟨⟨entry, hmem, hkey, hrest⟩, hdisk⟩
  · apply hdisk
    rw [← hkey]
    exact mem_map_of_mem ((compactOutboxSnapshot_sublist h.disk).subset hmem)

lemma Kept.step (h : Kept s) {a : Step ω υ} (hok : Saved s a) (hnext : next s a = some t) :
    Kept t := by
  cases does_of_next hnext with
  | publish request now hidle =>
    exact h.load.execute snapshot_load (not_unsaved_load h.toSound hok)
  | resume projectId credentialProfile hidle => exact h.load.resolve
  | resumed i now request rest hidle hi =>
    simp only [Saved, hi] at hok
    have heras : Kept { s with resumes := s.resumes.eraseIdx i } := by
      apply h.settle <;> first | rfl | exact hidle
    exact heras.load.execute snapshot_load (not_unsaved_load heras.toSound hok)
  | queued call hstage =>
    have hcall : s.stage.call? = some call := by rw [hstage]; rfl
    have hpend := h.call call hcall
    apply (h.persist (loaded_of_call h.toSound hcall)).callUpstream _ hpend
    obtain ⟨entry, hmem, hkey, -⟩ := hpend
    rw [← hkey]
    exact mem_map_of_mem hmem
  | recorded call entry hstage =>
    exact (h.persist (h.recording call entry hstage)).settle rfl rfl rfl rfl rfl rfl
  | persistFailed => exact h.throw
  | answered call receipt hstage => exact h.publish (by rw [hstage]; rfl)
  | upstreamFailed => exact h.throw
  | restart =>
    constructor
    · exact h.toSound.step hnext
    · constructor
      · intro call hstage
        cases hstage
      · exact h.called
    · intro key hkey entries hsome
      cases hsome
    · intro call entry hstage
      cases hstage

lemma kept_of_start (h : outbox.start s) : Kept s := by
  have hsound : Sound s := sound_of_reach (Machine.Reach.of_start h : outbox.Reach anyStep s)
  obtain ⟨hs, -⟩ := h
  rw [hs] at hsound ⊢
  constructor
  · exact hsound
  · constructor
    · intro call hstage
      cases hstage
    · intro key hkey
      cases hkey
  · intro key hkey
    cases hkey
  · intro call entry hstage
    cases hstage

lemma kept_of_reach (h : outbox.Reach Saved s) : Kept s :=
  h.inv Kept (fun _ => kept_of_start) fun _ _ _ hs hok hnext => hs.step hok hnext

omit [DecidableEq υ] in
lemma upstream_of_unsaved (h : Sound s) (huns : Unsaved s call.request) :
    (s.execute call now).stage = .upstream call ∧
      call.request.key ∉ (s.execute call now).diskKeys := by
  obtain ⟨⟨entry, hmem, hkey, hwrite, hpend⟩, hdisk⟩ := huns
  have hfind := find?_eq_some_of_mem h.keys hmem
  rw [hkey] at hfind
  have hexec : s.execute call now = s.callUpstream call := by
    simp [State.execute, hfind, hwrite, hpend]
  rw [hexec]
  exact ⟨rfl, hdisk⟩

lemma load_of_unsaved {request : Request ω} (huns : Unsaved s request) : s.load = s := by
  obtain ⟨⟨entry, hmem, -⟩, -⟩ := huns
  unfold State.load
  split
  · rfl
  · next hnone => simp [State.entries, hnone] at hmem

/-- In a run without calls that repeat a request pending in memory only, the upstream is called for
keys that are on the disk, and what it was called for is found there until the retention sheds it.
-/
theorem obligation_before_effect : (∀ s : State ω υ, outbox.Reach Saved s → Obliged s) ∧
      ∀ (s t : State ω υ) a, outbox.Reach Saved s → ¬Saved s a → next s a = some t → ¬Obliged t := by
  refine ⟨fun s hs => (kept_of_reach hs).toObliged, fun s t a hs huns hnext hobl => ?_⟩
  have hsound := (kept_of_reach hs).toSound
  cases a with
  | publish request now =>
    cases hstage : s.stage <;> simp only [next, hstage, reduceCtorEq, Option.some.injEq] at hnext
    have hreq : Unsaved s request := not_not.mp huns
    rw [load_of_unsaved hreq] at hnext
    subst hnext
    obtain ⟨hupstr, hdisk⟩ :=
      @upstream_of_unsaved _ _ _ ⟨request, []⟩ now _ hsound hreq
    exact hdisk (hobl.upstream _ hupstr)
  | resumed i now =>
    simp only [next] at hnext
    split at hnext
    · next request rest hidle hi =>
        simp only [Saved, hi, not_not] at huns
        cases hnext
        have hreq : Unsaved { s with resumes := s.resumes.eraseIdx i } request := huns
        have heras : Sound { s with resumes := s.resumes.eraseIdx i } :=
          ⟨hsound.disk, hsound.keys, hsound.kept, hsound.call⟩
        rw [load_of_unsaved hreq] at hobl
        obtain ⟨hupstr, hdisk⟩ :=
          @upstream_of_unsaved _ _ _ ⟨request, rest⟩ now _ heras hreq
        exact hdisk (hobl.upstream _ hupstr)
    · cases hnext
  | _ => exact huns trivial

end

section

def comment : Request Unit := ⟨⟨['p'], ['c'], ['k']⟩, ()⟩

theorem obliged_after_restart :
    ∃ s : State Unit Unit, outbox.execIf (fun s a => decide (Saved s a)) (fresh none)
        [.publish comment [], .persistFailed, .restart, .publish comment [], .persisted] = some s ∧
      s.called = [comment.key] ∧ Obliged s := by
  have hrun : (outbox.execIf (fun s a => decide (Saved s a)) (fresh none : State Unit Unit)
      [.publish comment [], .persistFailed, .restart, .publish comment [],
        .persisted]).map State.called = some [comment.key] := by
    decide +kernel
  obtain ⟨s, hs, hcalled⟩ := Option.map_eq_some_iff.mp hrun
  have hguard := (Machine.run_of_execIf hs).mono fun s a h => of_decide_eq_true h
  exact ⟨s, hs, hcalled, obligation_before_effect.1 s ⟨fresh none, _, start_fresh, hguard⟩⟩

/-- The first persist fails, and the second call answers for an obligation not on the disk. -/
theorem effect_without_obligation :
    ∃ s : State Unit Unit, outbox.Reach anyStep s ∧ s.called = [comment.key] ∧
      s.diskKeys = [] ∧ s.shed = [] ∧ ¬Obliged s := by
  have hrun : (outbox.exec (fresh none : State Unit Unit)
      [.publish comment [], .persistFailed, .publish comment []]).map
        (fun s => (s.called, s.diskKeys, s.shed)) = some ([comment.key], [], []) := by
    decide +kernel
  obtain ⟨s, hs, hview⟩ := Option.map_eq_some_iff.mp hrun
  obtain ⟨hcalled, hview⟩ := Prod.mk.inj hview
  obtain ⟨hdisk, hshed⟩ := Prod.mk.inj hview
  refine ⟨s, Machine.reach_of_exec start_fresh hs, hcalled, hdisk, hshed, fun hobl => ?_⟩
  have hfound := hobl.called comment.key (by simp [hcalled])
  simp [hdisk, hshed] at hfound

end
end Redskilled.Daemon.GithubOutbox
