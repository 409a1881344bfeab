import Redskilled.Daemon.CustodyKept

/-!
# Which head is armed

A pass arms the head that it has read from its record and observed. A handoff may restate
the head in between. Where none does, the head that is armed is the one the record has.
-/
namespace Redskilled.Daemon.GithubCustody
open Foundation List Option

section
variable {s t : State} {key : Key} {project : Project} {request : Handoff} {now : Text}

/-- No handoff restates the head of a pull request that is under observation. -/
def Steady (s : State) : Step → Prop
  | .take i _ =>
    ∀ project request, s.calls[i]? = some (project, request) →
      ∀ record, s.driving ⟨project.projectId, request.pullRequest⟩ = some (.observing record) →
        request.armedHead = none ∨ request.armedHead = record.armedHead
  | _ => True

/-- A pass arms no other head than its record has by then. -/
def Current (s : State) : Prop :=
  ∀ arm ∈ s.arms, ∀ head current, arm.view.headSha = some head → arm.current = some current →
    head = current

def Followed (s : State) : Prop :=
  ∀ key record, s.driving key = some (.observing record) → ∀ held ∈ s.load.records,
    held.key = key → held.armedHead = none ∨ held.armedHead = record.armedHead

lemma records_load (hsnapsh : t.snapshot = s.snapshot) (hdisk : t.disk = s.disk) :
    t.load.records = s.load.records := by
  cases hsome : s.snapshot with
  | none => simp [State.load, State.records, hsnapsh, hdisk, hsome]
  | some records => simp [State.load, State.records, hsnapsh, hsome]

lemma load_of_some {records : List Record} (h : s.snapshot = some records) : s.load = s := by
  unfold State.load
  rw [h]

variable {a : Step} {record : Record}

lemma mem_load (h : record ∈ s.records) : record ∈ s.load.records := by
  unfold State.load
  split
  · exact h
  · next hnone =>
      rw [State.records, hnone] at h
      cases h

lemma mem_update_cases {k : Key} {change : Record → Record} {records : List Record}
    (h : record ∈ update k change records) :
    record ∈ records ∨ ∃ old ∈ records, old.key = k ∧ record = change old := by
  induction records with
  | nil => cases h
  | cons first rest ih =>
    unfold update at h
    split_ifs at h with hfirst
    · rcases mem_cons.mp h with rfl | h
      · exact .inr ⟨first, mem_cons_self, hfirst, rfl⟩
      · exact .inl (mem_cons_of_mem _ h)
    · rcases mem_cons.mp h with rfl | h
      · exact .inl mem_cons_self
      · rcases ih h with h | ⟨old, hold, hrest⟩
        · exact .inl (mem_cons_of_mem _ h)
        · exact .inr ⟨old, mem_cons_of_mem _ hold, hrest⟩

lemma Followed.mono (h : Followed s)
    (hdriv : ∀ key record, t.driving key = some (.observing record) →
      s.driving key = some (.observing record))
    (hrec : ∀ held ∈ t.load.records, ∃ old ∈ s.load.records,
      old.key = held.key ∧ old.armedHead = held.armedHead) : Followed t := by
  intro key record hobs held hheld hkey
  obtain ⟨old, hold, hsame, hhead⟩ := hrec held hheld
  rw [← hhead]
  exact h key record (hdriv key record hobs) old hold (hsame.trans hkey)

lemma Followed.drive (h : Followed s) (hsnapsh : t.snapshot = s.snapshot) (hdisk : t.disk = s.disk)
    (hdriv : ∀ key record, t.driving key = some (.observing record) →
      s.driving key = some (.observing record)) : Followed t := by
  apply h.mono hdriv
  intro held hheld
  rw [records_load hsnapsh hdisk] at hheld
  exact ⟨held, hheld, rfl, rfl⟩

lemma Followed.load (h : Followed s) : Followed s.load := by
  apply h.mono
  · intro key record hobs
    unfold State.load at hobs
    split at hobs <;> exact hobs
  · intro held hheld
    rw [load_of_some snapshot_load] at hheld
    exact ⟨held, hheld, rfl, rfl⟩

lemma Followed.change (h : Followed s) (hload : s.snapshot = some s.records)
    {change : Record → Record} (stage : Stage) (hkey : ∀ record, (change record).key = record.key)
    (hhead : ∀ record, (change record).armedHead = record.armedHead) :
    Followed { s with snapshot := some (update key change s.records), stage := stage } := by
  apply h.mono
  · intro k record hobs
    exact hobs
  · intro held hheld
    rw [load_of_some hload]
    rcases mem_update_cases hheld with hheld | ⟨old, hold, -, rfl⟩
    · exact ⟨held, hheld, rfl, rfl⟩
    · exact ⟨old, hold, (hkey old).symm, (hhead old).symm⟩

lemma Followed.settled (h : Followed s.load) (view : ForgeView) (moved : Bool) :
    Followed { s.load with
      snapshot := some (update key (settled view moved) s.load.records)
      stage := .settling key view.terminal } := by
  apply h.change snapshot_load
  · intro record
    rfl
  · intro record
    rfl

lemma Followed.phase (h : Followed s) {phase : Phase} (hphase : ∀ record, phase ≠ .observing record) :
    Followed (s.phase key phase) := by
  refine @Followed.drive s _ h rfl rfl ?_
  intro k record hobs
  simp only [State.phase, Function.update_apply] at hobs
  split_ifs at hobs
  · exact absurd (some.inj hobs) (hphase record)
  · exact hobs

lemma Followed.endPass (h : Followed s) : Followed (s.endPass key) := by
  refine @Followed.drive s _ h rfl rfl ?_
  intro k record hobs
  simp only [State.endPass, Function.update_apply] at hobs
  split_ifs at hobs
  exact hobs

lemma Followed.scheduleEnd (h : Followed s) : Followed ((s.schedule key).endPass key) :=
  (h.drive rfl rfl fun _ _ hobs => hobs : Followed (s.schedule key)).endPass

lemma Followed.answer (h : Followed s) : Followed (s.answer project record) := by
  unfold State.answer
  split_ifs
  · exact h.drive rfl rfl fun _ _ hobs => hobs
  · exact h.drive rfl rfl fun _ _ hobs => hobs

lemma Followed.take (h : Followed s)
    (hsteady : ∀ record, s.driving ⟨project.projectId, request.pullRequest⟩ =
        some (.observing record) →
      request.armedHead = none ∨ request.armedHead = record.armedHead) :
    Followed (s.take project request now) := by
  rcases @take_cases s project request now with hnext | ⟨existing, hfind, hsame, hnext⟩ |
    ⟨existing, armedHead, hfind, hhead, hnext⟩ | ⟨hfind, hnext⟩
  · rw [hnext]
    exact h
  · rw [hnext]
    exact h.answer
  · rw [hnext]
    intro key record hobs held hheld hkey
    rcases mem_update_cases hheld with hheld | ⟨old, hold, hown, rfl⟩
    · exact h key record hobs held (mem_load hheld) hkey
    · have hkey' : key = ⟨project.projectId, request.pullRequest⟩ :=
        hkey.symm.trans (hown.trans (find_key hfind))
      have hreq := hsteady record (hkey' ▸ hobs)
      rw [hhead] at hreq
      exact hreq
  · rw [hnext]
    intro key record hobs held hheld hkey
    rcases mem_append.mp (compact_sublist.subset hheld) with hheld | hheld
    · exact h key record hobs held (mem_load hheld) hkey
    · obtain rfl := mem_singleton.mp hheld
      exact hsteady record (hkey.symm ▸ hobs : s.driving (taken project request now).key = _)

lemma Followed.persist (h : Followed s) (hload : s.snapshot = some s.records) :
    Followed s.persist := by
  apply h.mono
  · intro key record hobs
    exact hobs
  · intro held hheld
    rw [@load_of_some s.persist s.records hload] at hheld
    exact ⟨held, mem_load hheld, rfl, rfl⟩

lemma Followed.observed (h : Followed s) (hload : s.snapshot = some s.records)
    (hkeys : (s.records.map Record.key).Nodup) (hmem : record ∈ s.records)
    (hkey : record.key = key) : Followed (s.persist.phase key (.observing record)) := by
  intro k other hobs held hheld hheldK
  simp only [State.phase, Function.update_apply] at hobs
  split_ifs at hobs with hk
  · obtain rfl := Phase.observing.inj (some.inj hobs)
    have hheld' : held ∈ s.records := by
      rw [@load_of_some (s.persist.phase key (.observing record)) s.records hload] at hheld
      exact hheld
    obtain rfl := inj_on_of_nodup_map hkeys hheld' hmem
      (hheldK.trans (hk.trans hkey.symm))
    exact .inr rfl
  · have hrec : (s.persist.phase key (.observing record)).load.records =
        s.persist.load.records := records_load rfl rfl
    rw [hrec] at hheld
    exact h.persist hload k other hobs held hheld hheldK

lemma Followed.persisted (h : Followed s) (hsound : Sound s)
    (hnext : next s .persisted = some t) : Followed t := by
  cases hstage : s.stage with
  | idle => simp [next, hstage] at hnext
  | handing project record =>
    simp only [next, hstage, some.injEq] at hnext
    subst hnext
    exact (h.persist (hsound.stored.loaded (by simp [hstage]))).answer
  | ticking key record =>
    simp only [next, hstage] at hnext
    have hload := hsound.stored.loaded (by simp [hstage])
    obtain ⟨hmem, hkey⟩ := hsound.driven.ticking key record hstage
    split_ifs at hnext
    · cases hnext
      exact (h.persist hload).endPass
    · cases hnext
      exact h.observed hload hsound.stored.keys hmem hkey
  | settling key terminal =>
    simp only [next, hstage] at hnext
    have hpers := h.persist (hsound.stored.loaded (by simp [hstage]))
    split_ifs at hnext
    · cases hnext
      exact hpers.endPass
    · cases hnext
      exact hpers.scheduleEnd
  | failing key =>
    simp only [next, hstage, some.injEq] at hnext
    subst hnext
    exact (h.persist (hsound.stored.loaded (by simp [hstage]))).scheduleEnd

lemma Followed.step (h : Followed s) (hsound : Sound s) (hsteady : Steady s a)
    (hnext : next s a = some t) : Followed t := by
  cases a with
  | register project =>
    simp only [next] at hnext
    split_ifs at hnext
    cases hnext
    exact h.load.drive rfl rfl fun _ _ hobs => hobs
  | handoff project request =>
    simp only [next] at hnext
    split_ifs at hnext
    cases hnext
    exact h.load.drive rfl rfl fun _ _ hobs => hobs
  | take i now =>
    simp only [next] at hnext
    split at hnext
    · next project request hidle hcall =>
        cases hnext
        have hcalls : Followed { s.load with calls := s.calls.eraseIdx i } :=
          h.load.drive rfl rfl fun _ _ hobs => hobs
        apply hcalls.take
        intro record hobs
        apply hsteady project request hcall record
        unfold State.load at hobs
        split at hobs <;> exact hobs
    · cases hnext
  | fire key =>
    simp only [next] at hnext
    split_ifs at hnext
    cases hnext
    have htim : Followed { s with timers := Function.update s.timers key false } :=
      h.drive rfl rfl fun _ _ hobs => hobs
    unfold State.drive
    split_ifs
    · exact htim
    · exact htim.phase (by simp)
  | tick key now =>
    simp only [next] at hnext
    split at hnext
    · split at hnext
      · cases hnext
        exact h.load.endPass
      · cases hnext
        apply h.load.change snapshot_load _ (observing_key now)
        intro record
        unfold observing
        split_ifs <;> rfl
    · cases hnext
  | observed key view =>
    simp only [next] at hnext
    split at hnext
    · cases hnext
      unfold State.observe
      split_ifs
      · next record _ _ =>
          have hphase : Followed (s.phase key (.arming record)) :=
            h.phase (by simp)
          exact hphase.drive rfl rfl fun _ _ hobs => hobs
      · exact h.phase (by simp)
    · cases hnext
  | armed key view =>
    simp only [next] at hnext
    split at hnext
    · cases hnext
      exact h.phase (by simp)
    · cases hnext
  | upstreamFailed key =>
    simp only [next] at hnext
    split at hnext
    · cases hnext
      exact h.phase (by simp)
    · cases hnext
      exact h.phase (by simp)
    · cases hnext
  | settle key =>
    simp only [next] at hnext
    split at hnext
    · next view moved hidle hdriv =>
        cases hnext
        unfold State.settle
        split_ifs
        · exact h.load.endPass
        · exact h.load.scheduleEnd
        · exact (h.load.settled view moved).drive rfl rfl fun _ _ hobs => hobs
        · exact (h.load.settled view moved).drive rfl rfl fun _ _ hobs => hobs
    · cases hnext
  | retry key =>
    simp only [next] at hnext
    split at hnext
    · split_ifs at hnext
      · cases hnext
        exact h.load.scheduleEnd
      · cases hnext
        apply h.load.change snapshot_load _ unavailable_key
        intro record
        unfold unavailable
        split_ifs <;> rfl
    · cases hnext
  | persisted => exact h.persisted hsound hnext
  | persistFailed =>
    have hidle : Followed { s with stage := .idle } :=
      h.drive rfl rfl fun _ _ hobs => hobs
    cases hstage : s.stage <;> simp only [next, hstage, reduceCtorEq, some.injEq] at hnext <;>
      subst hnext
    · exact hidle
    · exact hidle.phase (by simp)
    · exact hidle.phase (by simp)
    · exact hidle.scheduleEnd
  | close =>
    cases hnext
    exact h.drive rfl rfl fun _ _ hobs => hobs
  | restart =>
    cases hnext
    intro key record hobs
    cases hobs

lemma Current.observe (h : Current s) (hfoll : Followed s)
    (hobs : s.driving key = some (.observing record)) (view : ForgeView) :
    Current (s.observe key record view) := by
  unfold State.observe
  split_ifs with harm
  · intro arm hmem head current hhead hcurr
    rcases mem_append.mp hmem with hmem | hmem
    · exact h arm hmem head current hhead hcurr
    · obtain rfl := mem_singleton.mp hmem
      simp only [Bool.not_eq_true'] at harm
      obtain ⟨held, hfind, hheld⟩ := bind_eq_some_iff.mp hcurr
      rcases hfoll key record hobs held (mem_load (find_mem hfind)) (find_key hfind) with
        hnone | hsame
      · rw [hnone] at hheld
        cases hheld
      · exact eq_of_not_moved harm.1 harm.2.1 hhead (hsame.symm.trans hheld)
  · exact h

lemma arms_load : s.load.arms = s.arms := by
  unfold State.load
  split <;> rfl

lemma arms_answer : (s.answer project record).arms = s.arms := by
  unfold State.answer
  split_ifs <;> rfl

lemma arms_take : (s.take project request now).arms = s.arms := by
  rcases @take_cases s project request now with hnext | ⟨existing, -, -, hnext⟩ |
    ⟨existing, armedHead, -, -, hnext⟩ | ⟨-, hnext⟩
  · rw [hnext]
  · rw [hnext]
    exact arms_answer
  · rw [hnext]
  · rw [hnext]

lemma arms_next (hnext : next s a = some t) :
    t.arms = s.arms ∨ ∃ key view record, s.driving key = some (.observing record) ∧
      t = s.observe key record view := by
  cases a with
  | register project =>
    simp only [next] at hnext
    split_ifs at hnext
    cases hnext
    exact .inl arms_load
  | handoff project request =>
    simp only [next] at hnext
    split_ifs at hnext
    cases hnext
    exact .inl arms_load
  | take i now =>
    simp only [next] at hnext
    split at hnext
    · cases hnext
      exact .inl (arms_take.trans arms_load)
    · cases hnext
  | fire key =>
    simp only [next] at hnext
    split_ifs at hnext
    cases hnext
    left
    unfold State.drive
    split_ifs <;> rfl
  | tick key now =>
    simp only [next] at hnext
    split at hnext
    · split at hnext
      · cases hnext
        exact .inl arms_load
      · cases hnext
        exact .inl arms_load
    · cases hnext
  | observed key view =>
    simp only [next] at hnext
    split at hnext
    · next record hobs =>
        exact .inr ⟨key, view, record, hobs, (some.inj hnext).symm⟩
    · cases hnext
  | armed key view =>
    simp only [next] at hnext
    split at hnext
    · cases hnext
      exact .inl rfl
    · cases hnext
  | upstreamFailed key =>
    simp only [next] at hnext
    split at hnext
    · cases hnext
      exact .inl rfl
    · cases hnext
      exact .inl rfl
    · cases hnext
  | settle key =>
    simp only [next] at hnext
    split at hnext
    · cases hnext
      left
      unfold State.settle
      split_ifs <;> exact arms_load
    · cases hnext
  | retry key =>
    simp only [next] at hnext
    split at hnext
    · split_ifs at hnext
      · cases hnext
        exact .inl arms_load
      · cases hnext
        exact .inl arms_load
    · cases hnext
  | persisted =>
    left
    cases hstage : s.stage with
    | idle => simp [next, hstage] at hnext
    | handing project record =>
      simp only [next, hstage, some.injEq] at hnext
      subst hnext
      exact arms_answer
    | ticking key record =>
      simp only [next, hstage] at hnext
      split_ifs at hnext <;>
        · cases hnext
          rfl
    | settling key terminal =>
      simp only [next, hstage] at hnext
      split_ifs at hnext <;>
        · cases hnext
          rfl
    | failing key =>
      simp only [next, hstage, some.injEq] at hnext
      subst hnext
      rfl
  | persistFailed =>
    left
    cases hstage : s.stage <;> simp only [next, hstage, reduceCtorEq, some.injEq] at hnext <;>
      subst hnext <;> rfl
  | close =>
    cases hnext
    exact .inl rfl
  | restart =>
    cases hnext
    exact .inl rfl

lemma Current.step (h : Current s) (hfoll : Followed s)
    (hnext : next s a = some t) : Current t := by
  rcases arms_next hnext with harms | ⟨key, view, record, hobs, rfl⟩
  · rw [Current, harms]
    exact h
  · exact h.observe hfoll hobs view

lemma current_of_reach (h : custodian.Reach (fun s a => Saved s a ∧ Steady s a) s) : Current s := by
  have hall : Sound s ∧ Followed s ∧ Current s := by
    apply h.inv fun s => Sound s ∧ Followed s ∧ Current s
    · intro s hstart
      have hsound := sound_of_reach (Machine.Reach.of_start hstart)
      obtain ⟨hs, -⟩ := hstart
      refine ⟨hsound, ?_, ?_⟩
      · intro key record hobs
        rw [hs] at hobs
        cases hobs
      · intro arm harm
        rw [hs] at harm
        cases harm
    · intro s a t hs hok hnext
      exact ⟨hs.1.step hok.1 hnext, hs.2.1.step hs.1 hok.2 hnext, hs.2.2.step hs.2.1 hnext⟩
  exact hall.2.2

/-- In every run without a handoff that is answered from memory alone, custody is kept, and a
custodian that starts again takes over what is owed. -/
theorem custody_kept (s : State) : (custodian.Reach Saved s → Kept s ∧
      ∀ t u project key, next s .restart = some t → next t (.register project) = some u →
        s.owed key = true → key.projectId = project.projectId → u.timers key = true) ∧
    (custodian.Reach (fun s a => Saved s a ∧ Steady s a) s → Current s) ∧
    ∀ t a, custodian.Reach Saved s → ¬Saved s a → next s a = some t → ¬Kept t := by
  refine ⟨fun hs => ⟨(sound_of_reach hs).kept, ?_⟩, fun hs => current_of_reach hs, ?_⟩
  · intro t u project key hresta hreg howed hproj
    exact (sound_of_reach hs).recovered hresta hreg howed hproj
  · intro t a _ huns hnext
    exact not_kept_of_unsaved huns hnext

end

section

def sampleProject : Project := ⟨['p'], ['c']⟩

def sampleHandoff : Handoff := ⟨7, 3, ['b'], ['m'], some ['h']⟩

def sampleKey : Key := ⟨['p'], 7⟩

def sampleView : ForgeView := ⟨.openClean, false, some ['h'], by decide, by decide⟩

theorem kept_after_restart :
    ∃ s : State, custodian.execIf (fun s a => decide (Saved s a)) (fresh none)
        [.handoff sampleProject sampleHandoff, .take 0 [], .persistFailed, .restart,
          .handoff sampleProject sampleHandoff, .take 0 [], .persisted, .fire sampleKey,
          .tick sampleKey [], .persisted, .observed sampleKey sampleView] = some s ∧
      s.owed sampleKey = true ∧ s.answers.length = 1 ∧ s.arms.length = 1 ∧ Kept s := by
  have hrun : (custodian.execIf (fun s a => decide (Saved s a)) (fresh none)
      [.handoff sampleProject sampleHandoff, .take 0 [], .persistFailed, .restart,
        .handoff sampleProject sampleHandoff, .take 0 [], .persisted, .fire sampleKey,
        .tick sampleKey [], .persisted, .observed sampleKey sampleView]).map
          (fun s => (s.owed sampleKey, s.answers.length, s.arms.length)) = some (true, 1, 1) := by
    decide +kernel
  obtain ⟨s, hs, hview⟩ := map_eq_some_iff.mp hrun
  obtain ⟨howed, hview⟩ := Prod.mk.inj hview
  obtain ⟨hansw, harms⟩ := Prod.mk.inj hview
  have hguard := (Machine.run_of_execIf hs).mono fun s a h => of_decide_eq_true h
  have hstart : custodian.start (fresh none) := ⟨rfl, nodup_nil⟩
  exact ⟨s, hs, howed, hansw, harms, ((custody_kept s).1 ⟨_, _, hstart, hguard⟩).1⟩

/-- The write fails, and the same handoff is then answered from memory. -/
theorem answered_without_disk : ∃ s : State, custodian.Reach anyStep s ∧
      s.answers = [⟨taken sampleProject sampleHandoff [], []⟩] ∧ s.disk = none ∧ ¬Kept s := by
  have hrun : (custodian.exec (fresh none)
      [.handoff sampleProject sampleHandoff, .take 0 [], .persistFailed,
        .handoff sampleProject sampleHandoff, .take 0 []]).map (fun s => (s.answers, s.disk)) =
      some ([⟨taken sampleProject sampleHandoff [], []⟩], none) := by
    decide +kernel
  obtain ⟨s, hs, hview⟩ := map_eq_some_iff.mp hrun
  obtain ⟨hansw, hdisk⟩ := Prod.mk.inj hview
  have hstart : custodian.start (fresh none) := ⟨rfl, nodup_nil⟩
  refine ⟨s, Machine.reach_of_exec hstart hs, hansw, hdisk, fun hkept => ?_⟩
  have hanswer : ⟨taken sampleProject sampleHandoff [], []⟩ ∈ s.answers := by
    rw [hansw]
    exact mem_singleton_self _
  obtain ⟨stored, hstor, -⟩ := hkept.answered _ hanswer rfl
  cases hstor

end
end Redskilled.Daemon.GithubCustody
