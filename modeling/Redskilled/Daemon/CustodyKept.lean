import Redskilled.Daemon.CustodyStored

/-!
# Custody is kept

A handoff that is answered with an active record has it on the disk, and the record is
there and under watch until a pass finds the pull request merged or closed.
-/
namespace Redskilled.Daemon.GithubCustody
open Foundation

/-- A pass arms a pull request that it has observed open, without native intent and with
the head that it has read, where both are known. -/
def Armed (s : State) : Prop :=
  ∀ arm ∈ s.arms, arm.view.terminal = false ∧ arm.view.nativeIntent = false ∧
    ∀ head armedHead, arm.view.headSha = some head → arm.armedHead = some armedHead →
      head = armedHead

section
variable {s t : State} {key : Key} {project : Project} {request : Handoff} {now : Text}

lemma eq_of_not_moved {view : ForgeView} {armedHead : Option Text} (hopen : view.terminal = false)
    (h : view.movedHead armedHead = false) {head armed : Text} (hhead : view.headSha = some head)
    (harmed : armedHead = some armed) : head = armed := by
  simpa [ForgeView.movedHead, hopen, hhead, harmed] using h

lemma Armed.observe (h : Armed s) (record : Record) (view : ForgeView) :
    Armed (s.observe key record view) := by
  unfold State.observe
  split_ifs with harm
  · intro arm hmem
    rcases List.mem_append.mp hmem with hmem | hmem
    · exact h arm hmem
    · obtain rfl := List.mem_singleton.mp hmem
      simp only [Bool.not_eq_true'] at harm
      obtain ⟨hopen, hsame, hint⟩ := harm
      exact ⟨hopen, hint, fun head armed => eq_of_not_moved hopen hsame⟩
  · exact h

def acknowledges (project : Project) (request : Handoff) (existing : Record) : Bool :=
  decide (existing.ownerTicket = request.ownerTicket) && decide (existing.branch = request.branch) &&
    decide (existing.base = request.base) &&
    decide (existing.credentialProfile = project.credentialProfile) &&
    (request.armedHead.isNone || decide (request.armedHead = existing.armedHead))

/-- An active record is on the disk, as far as custody is about it. -/
def IsSaved (s : State) (record : Record) : Prop :=
  record.terminal = false → ∃ stored ∈ s.disk.getD [], stored.obligation = record.obligation

def Saved (s : State) : Step → Prop
  | .take i _ =>
    ∀ call ∈ s.calls[i]?, ∀ existing ∈ find ⟨call.1.projectId, call.2.pullRequest⟩ s.load.records,
      acknowledges call.1 call.2 existing = true → IsSaved s existing
  | _ => True

instance (s : State) (record : Record) : Decidable (IsSaved s record) :=
  inferInstanceAs (Decidable (_ → ∃ _ ∈ _, _))

instance (s : State) (a : Step) : Decidable (Saved s a) :=
  match a with
  | .take _ _ => inferInstanceAs (Decidable (∀ _ ∈ _, ∀ _ ∈ _, _ → _))
  | .register _ | .handoff _ _ | .fire _ | .tick _ _ | .observed _ _ | .armed _ _
  | .upstreamFailed _ | .settle _ | .retry _ | .persisted | .persistFailed | .close | .restart =>
    isTrue trivial

lemma take_cases : s.take project request now = s ∨
    (∃ existing, find ⟨project.projectId, request.pullRequest⟩ s.records = some existing ∧
      acknowledges project request existing = true ∧
      s.take project request now = s.answer project existing) ∨
    (∃ existing armedHead, find ⟨project.projectId, request.pullRequest⟩ s.records = some existing ∧
      request.armedHead = some armedHead ∧
      s.take project request now = { s with
        snapshot := some (update existing.key (restated armedHead) s.records)
        stage := .handing project (restated armedHead existing) }) ∨
    (find ⟨project.projectId, request.pullRequest⟩ s.records = none ∧
      s.take project request now = { s with
        snapshot := some (compactGithubCustodySnapshot (s.records ++ [taken project request now]))
        stage := .handing project (taken project request now) }) := by
  unfold State.take
  split
  · next existing hfind =>
      split_ifs with hoth
      · exact .inl rfl
      · simp only [not_or, not_not] at hoth
        obtain ⟨howner, hbranch, hbase, hprof⟩ := hoth
        right
        split
        · next armedHead hhead =>
            split_ifs with hsame
            · left
              refine ⟨existing, hfind, ?_, rfl⟩
              simp [acknowledges, howner, hbranch, hbase, hprof, hhead, hsame]
            · exact .inr (.inl ⟨existing, armedHead, hfind, hhead, rfl⟩)
        · next hnone =>
            left
            refine ⟨existing, hfind, ?_, rfl⟩
            simp [acknowledges, howner, hbranch, hbase, hprof, hnone]
  · next hfind => exact .inr (.inr (.inr ⟨hfind, rfl⟩))

/-- What is stored, watched and armed. -/
structure Sound (s : State) : Prop where
  stored : Stored s
  driven : Driven s
  armed : Armed s

lemma Sound.load (h : Sound s) : Sound s.load := by
  refine ⟨h.stored.load, h.driven.load, ?_⟩
  unfold State.load
  split <;> exact h.armed

lemma disk_load : s.load.disk = s.disk := by
  unfold State.load
  split <;> rfl

lemma stage_load : s.load.stage = s.stage := by
  unfold State.load
  split <;> rfl

lemma snapshot_load : s.load.snapshot = some s.load.records := by
  unfold State.load
  split
  · next records hsome => simp [State.records, hsome]
  · rfl

lemma Sound.drive (h : Sound s) (hdriv : Driven t) (hsnapsh : t.snapshot = s.snapshot)
    (hdisk : t.disk = s.disk) (howed : t.owed = s.owed) (hanswe : t.answers = s.answers)
    (hstage : t.stage = s.stage) (harms : t.arms = s.arms) : Sound t := by
  refine ⟨h.stored.frame hsnapsh hdisk howed hanswe hstage, hdriv, ?_⟩
  rw [Armed, harms]
  exact h.armed

lemma Sound.change (h : Sound s) (hload : s.snapshot = some s.records)
    {change : Record → Record} {stage : Stage}
    (hkey : ∀ record, (change record).key = record.key)
    (hact : ∀ record, record.terminal = false → (change record).terminal = false)
    (hhand : ∀ project record, stage = .handing project record →
      record ∈ update key change s.records)
    (htick : ∀ k record, stage = .ticking k record →
      record ∈ update key change s.records ∧ record.key = k)
    (hsettl : ∀ k, stage ≠ .settling k true) :
    Sound { s with snapshot := some (update key change s.records), stage := stage } := by
  refine ⟨h.stored.change hload hkey hact hhand, ?_, h.armed⟩
  apply h.driven.write
  · intro k hwatch
    exact isActive_update hkey hact (h.driven.watched k hwatch)
  · exact htick
  · intro k hstage
    exact absurd hstage (hsettl k)

lemma Sound.take (h : Sound s) (hidle : s.stage = .idle) (hload : s.snapshot = some s.records)
    (hsav : ∀ existing, find ⟨project.projectId, request.pullRequest⟩ s.records = some existing →
      acknowledges project request existing = true → IsSaved s existing) :
    Sound (s.take project request now) := by
  rcases @take_cases s project request now with hnext | ⟨existing, hfind, hsame, hnext⟩ |
    ⟨existing, armedHead, hfind, hhead, hnext⟩ | ⟨hfind, hnext⟩
  · rw [hnext]
    exact h
  · rw [hnext]
    have hmem := find_mem hfind
    refine ⟨h.stored.answer hmem (hsav existing hfind hsame), h.driven.answer hidle hmem, ?_⟩
    unfold State.answer
    split_ifs
    · exact h.armed
    · exact h.armed
  · rw [hnext]
    apply h.change hload
    · intro record
      rfl
    · intro record hact
      exact hact
    · intro project' record' hstage
      obtain ⟨-, rfl⟩ := Stage.handing.inj hstage
      exact mem_update (find_key hfind ▸ hfind)
    · intro k record hstage
      cases hstage
    · intro k hstage
      cases hstage
  · rw [hnext]
    have hnew : (taken project request now).key = ⟨project.projectId, request.pullRequest⟩ := rfl
    have hact : ∀ key, isActive s.records key = true →
        isActive (compactGithubCustodySnapshot (s.records ++ [taken project request now])) key =
          true :=
      fun key hkey => isActive_compact (isActive_append hkey)
    refine ⟨h.stored.write ?_ ?_ ?_, h.driven.write ?_ ?_ ?_, h.armed⟩
    · apply nodup_compact
      rw [List.map_append, List.nodup_append]
      refine ⟨h.stored.keys, List.nodup_singleton _, fun key hkey other hoth heq => ?_⟩
      obtain rfl := List.mem_singleton.mp hoth
      exact find_none_iff.mp hfind (hnew ▸ heq ▸ hkey)
    · intro key howed
      exact hact key (h.stored.owedHeld key howed s.records hload)
    · intro project' record' hstage
      obtain ⟨-, rfl⟩ := Stage.handing.inj hstage
      exact mem_compact (List.mem_append_right _ (List.mem_singleton_self _)) rfl
    · intro key hwatch
      exact hact key (h.driven.watched key hwatch)
    · intro key record hstage
      cases hstage
    · intro key hstage
      cases hstage

lemma Sound.tick (h : Sound s) (hload : s.snapshot = some s.records) {record : Record}
    (hfind : find key s.records = some record) :
    Sound { s with
      snapshot := some (update key (observing now) s.records)
      stage := .ticking key (observing now record) } := by
  apply h.change hload (observing_key now)
  · intro record hact
    rw [observing_terminal, hact]
  · intro project' record' hstage
    cases hstage
  · intro k record' hstage
    obtain ⟨rfl, rfl⟩ := Stage.ticking.inj hstage
    exact ⟨mem_update hfind, (observing_key now record).trans (find_key hfind)⟩
  · intro k hstage
    cases hstage

lemma Sound.retry (h : Sound s) (hload : s.snapshot = some s.records) :
    Sound { s with snapshot := some (update key unavailable s.records), stage := .failing key } := by
  apply h.change hload unavailable_key
  · intro record hact
    rw [unavailable_terminal, hact]
  · intro project' record' hstage
    cases hstage
  · intro k record' hstage
    cases hstage
  · intro k hstage
    cases hstage

lemma Sound.settle (h : Sound s) (hload : s.snapshot = some s.records) (view : ForgeView)
    (moved : Bool) : Sound (s.settle key view moved) := by
  have hkey : ∀ record, (settled view moved record).key = record.key := fun _ => rfl
  unfold State.settle
  split_ifs with hnone hterm hterm
  · refine h.drive (h.driven.endPass fun hwatch => ?_) rfl rfl rfl rfl rfl rfl
    have hact := h.driven.watched key hwatch
    rw [isActive_of_find_none (Option.isNone_iff_eq_none.mp hnone)] at hact
    cases hact
  · exact h.drive h.driven.scheduleEnd rfl rfl rfl rfl rfl rfl
  · have hoth : ∀ held : Key → Bool, (∀ k, held k = true → isActive s.records k = true) →
        ∀ k, Function.update held key false k = true →
          isActive (update key (settled view moved) s.records) k = true := by
      intro held hheld k hk
      have hne : k ≠ key := by
        intro heq
        rw [heq, Function.update_self] at hk
        cases hk
      rw [Function.update_of_ne hne] at hk
      rw [isActive_update_of_ne hkey hne]
      exact hheld k hk
    have hless : ∀ (held : Key → Bool) k, Function.update held key false k = true → held k = true := by
      intro held k hk
      rw [Function.update_apply] at hk
      split_ifs at hk
      exact hk
    have hheld := hoth s.owed fun k howed => h.stored.owedHeld k howed s.records hload
    have hwatch := hoth s.watched h.driven.watched
    refine ⟨⟨h.stored.diskKeys, ?_, fun _ => rfl, ?_, ?_, ?_, h.stored.answered⟩,
      ⟨?_, ?_, hwatch, ?_, ?_⟩, h.armed⟩
    · simp only [State.records, Option.getD_some]
      rw [keys_update hkey]
      exact h.stored.keys
    · intro project record hstage
      cases hstage
    · intro k howed
      exact h.stored.owedDisk k (hless s.owed k howed)
    · intro k howed records hsome
      cases hsome
      exact hheld k howed
    · intro k record hstage
      cases hstage
    · intro k hstage
      obtain ⟨rfl, -⟩ := Stage.settling.inj hstage
      simp
    · intro k hk
      exact h.driven.executed k (hless s.watched k hk)
    · intro k hk
      exact h.driven.driven k (hless s.watched k hk)
  · apply h.change hload hkey
    · intro record _
      simp [Record.terminal, settled, hterm]
    · intro project record hstage
      cases hstage
    · intro k record hstage
      cases hstage
    · intro k hstage
      simp [hterm] at hstage

lemma Sound.persist (h : Sound s) (hstage : s.stage ≠ .idle) : Sound s.persist :=
  ⟨h.stored.persist hstage, h.driven.persist, h.armed⟩

lemma Sound.idle (h : Sound s) : Sound { s with stage := .idle } :=
  ⟨h.stored.idle, h.driven.idle, h.armed⟩

lemma Sound.phase (h : Sound s) (phase : Phase) : Sound (s.phase key phase) :=
  h.drive (h.driven.phase phase) rfl rfl rfl rfl rfl rfl

lemma Sound.observe (h : Sound s) (record : Record) (view : ForgeView) :
    Sound (s.observe key record view) := by
  have harmed : Armed (s.observe key record view) := h.armed.observe record view
  unfold State.observe at harmed ⊢
  split_ifs at harmed ⊢
  · have hphase : Sound (s.phase key (.arming record)) := h.phase _
    refine ⟨hphase.stored.frame rfl rfl rfl rfl rfl, ?_, harmed⟩
    exact ⟨hphase.driven.ticking, hphase.driven.settling, hphase.driven.watched,
      hphase.driven.executed, hphase.driven.driven⟩
  · exact h.phase _

lemma Sound.scheduleEnd (h : Sound s) : Sound ((s.schedule key).endPass key) :=
  h.drive h.driven.scheduleEnd rfl rfl rfl rfl rfl rfl

lemma Sound.persisted (h : Sound s) (hnext : next s .persisted = some t) : Sound t := by
  cases hstage : s.stage with
  | idle => simp [next, hstage] at hnext
  | handing project record =>
    simp only [next, hstage, Option.some.injEq] at hnext
    subst hnext
    have hpers := h.persist (by simp [hstage])
    have hmem := h.stored.handing project record hstage
    refine ⟨hpers.stored.answer hmem fun _ => ⟨record, hmem, rfl⟩, hpers.driven.answer rfl hmem, ?_⟩
    unfold State.answer
    split_ifs
    · exact h.armed
    · exact h.armed
  | ticking key record =>
    simp only [next, hstage] at hnext
    have hpers := h.persist (by simp [hstage])
    obtain ⟨hmem, hkey⟩ := h.driven.ticking key record hstage
    split_ifs at hnext with hterm
    · cases hnext
      refine hpers.drive (hpers.driven.endPass fun hwatch => ?_) rfl rfl rfl rfl rfl rfl
      have hact := h.driven.watched key hwatch
      rw [← hkey, isActive_of_terminal h.stored.keys hmem hterm] at hact
      cases hact
    · cases hnext
      exact hpers.phase _
  | settling key terminal =>
    simp only [next, hstage] at hnext
    have hpers := h.persist (by simp [hstage])
    split_ifs at hnext with hterm
    · cases hnext
      refine hpers.drive (hpers.driven.endPass fun hwatch => ?_) rfl rfl rfl rfl rfl rfl
      rw [hterm] at hstage
      rw [show s.persist.watched key = false from h.driven.settling key hstage] at hwatch
      cases hwatch
    · cases hnext
      exact hpers.scheduleEnd
  | failing key =>
    simp only [next, hstage, Option.some.injEq] at hnext
    subst hnext
    exact (h.persist (by simp [hstage])).scheduleEnd

lemma Sound.persistFailed (h : Sound s) (hnext : next s .persistFailed = some t) : Sound t := by
  cases hstage : s.stage <;> simp only [next, hstage, reduceCtorEq, Option.some.injEq] at hnext <;>
    subst hnext
  · exact h.idle
  · exact h.idle.phase _
  · exact h.idle.phase _
  · exact h.idle.scheduleEnd

lemma Sound.restart (h : Sound s) :
    Sound { fresh s.disk with answers := s.answers, arms := s.arms, owed := s.owed } := by
  constructor
  · constructor
    · exact h.stored.diskKeys
    · exact List.nodup_nil
    · intro hstage
      exact absurd rfl hstage
    · intro project record hstage
      cases hstage
    · exact h.stored.owedDisk
    · intro key howed records hsome
      cases hsome
    · exact h.stored.answered
  · constructor
    · intro key record hstage
      cases hstage
    · intro key hstage
      cases hstage
    · intro key hwatch
      cases hwatch
    · intro key hwatch
      cases hwatch
    · intro key hwatch
      cases hwatch
  · exact h.armed

lemma Sound.close (h : Sound s) :
    Sound { s with closed := true, timers := fun _ => false, executions := fun _ => none } := by
  refine h.drive ?_ rfl rfl rfl rfl rfl rfl
  constructor
  · exact h.driven.ticking
  · exact h.driven.settling
  · exact h.driven.watched
  · intro key hwatch hopen
    cases hopen
  · intro key hwatch hopen
    cases hopen

lemma Sound.register (h : Sound s) (hidle : s.stage = .idle) (project : Project) :
    Sound (s.register project) :=
  h.drive (h.driven.register hidle project) rfl rfl rfl rfl rfl rfl

lemma Sound.calls (h : Sound s) (calls : List (Project × Handoff)) :
    Sound { s with calls := calls } :=
  h.drive ⟨h.driven.ticking, h.driven.settling, h.driven.watched, h.driven.executed,
    h.driven.driven⟩ rfl rfl rfl rfl rfl rfl

lemma Sound.step (h : Sound s) {a : Step} (hsav : Saved s a) (hnext : next s a = some t) :
    Sound t := by
  cases a with
  | register project =>
    simp only [next] at hnext
    split_ifs at hnext with hidle
    cases hnext
    exact h.load.register (stage_load.trans hidle) project
  | handoff project request =>
    simp only [next] at hnext
    split_ifs at hnext with hidle
    cases hnext
    exact (h.load.register (stage_load.trans hidle) project).calls _
  | take i now =>
    simp only [next] at hnext
    split at hnext
    · next project request hidle hcall =>
        cases hnext
        have hcalls : Sound { s.load with calls := s.calls.eraseIdx i } := h.load.calls _
        apply hcalls.take (stage_load.trans hidle) snapshot_load
        intro existing hfind hsame
        have hown := hsav (project, request) hcall existing hfind hsame
        intro hact
        have hdisk := hown hact
        rwa [← @disk_load s] at hdisk
    · cases hnext
  | fire key =>
    simp only [next] at hnext
    split_ifs at hnext
    cases hnext
    refine h.drive h.driven.fire ?_ ?_ ?_ ?_ ?_ ?_
    all_goals
      unfold State.drive
      split_ifs <;> rfl
  | tick key now =>
    simp only [next] at hnext
    split at hnext
    · split at hnext
      · next hfind =>
          cases hnext
          refine h.load.drive (h.load.driven.endPass fun hwatch => ?_) rfl rfl rfl rfl rfl rfl
          have hact := h.load.driven.watched key hwatch
          rw [isActive_of_find_none hfind] at hact
          cases hact
      · next record hfind =>
          cases hnext
          exact h.load.tick snapshot_load hfind
    · cases hnext
  | observed key view =>
    simp only [next] at hnext
    split at hnext
    · next record hdrivi =>
        cases hnext
        exact h.observe record view
    · cases hnext
  | armed key view =>
    simp only [next] at hnext
    split at hnext
    · cases hnext
      exact h.phase _
    · cases hnext
  | upstreamFailed key =>
    simp only [next] at hnext
    split at hnext
    · cases hnext
      exact h.phase _
    · cases hnext
      exact h.phase _
    · cases hnext
  | settle key =>
    simp only [next] at hnext
    split at hnext
    · cases hnext
      exact h.load.settle snapshot_load _ _
    · cases hnext
  | retry key =>
    simp only [next] at hnext
    split at hnext
    · split_ifs at hnext
      · cases hnext
        exact h.load.scheduleEnd
      · cases hnext
        exact h.load.retry snapshot_load
    · cases hnext
  | persisted => exact h.persisted hnext
  | persistFailed => exact h.persistFailed hnext
  | close =>
    cases hnext
    exact h.close
  | restart =>
    cases hnext
    exact h.restart

lemma sound_of_reach (h : custodian.Reach Saved s) : Sound s := by
  apply h.inv Sound
  · intro s hstart
    obtain ⟨hs, hkeys⟩ := hstart
    rw [hs]
    constructor
    · constructor
      · exact hkeys
      · exact List.nodup_nil
      · intro hstage
        exact absurd rfl hstage
      · intro project record hstage
        cases hstage
      · intro key howed
        cases howed
      · intro key howed
        cases howed
      · intro answer hansw
        cases hansw
    · constructor
      · intro key record hstage
        cases hstage
      · intro key hstage
        cases hstage
      · intro key hwatch
        cases hwatch
      · intro key hwatch
        cases hwatch
      · intro key hwatch
        cases hwatch
    · intro arm harm
      cases harm
  · intro s a t hs hsav hnext
    exact hs.step hsav hnext

/-- A custodian that starts again takes over what is owed once its project registers. -/
lemma Sound.recovered (h : Sound s) {u : State} (hrest : next s .restart = some t)
    (hreg : next t (.register project) = some u) (howed : s.owed key = true)
    (hproj : key.projectId = project.projectId) : u.timers key = true := by
  cases hrest
  simp only [next, fresh, if_true, Option.some.injEq] at hreg
  subst hreg
  have hact := isActive_compact (h.stored.owedDisk key howed)
  simp [State.register, State.registers, State.load, State.records, hproj, hact]

/-- What a handoff is answered with is on the disk then, what is owed is there, what is
watched has a timer or a pass while the custodian is open, and passes arm what they have
observed. -/
structure Kept (s : State) : Prop where
  answered : ∀ answer ∈ s.answers, answer.record.terminal = false →
    ∃ stored ∈ answer.disk, stored.obligation = answer.record.obligation
  stored : ∀ key, s.owed key = true → isActive (s.disk.getD []) key = true
  driven : ∀ key, s.watched key = true → s.closed = false →
    s.timers key = true ∨ (s.driving key).isSome = true
  armed : Armed s

lemma Sound.kept (h : Sound s) : Kept s :=
  ⟨h.stored.answered, h.stored.owedDisk, h.driven.driven, h.armed⟩

/-- A handoff that finds its record is answered with it, whatever is on the disk. -/
lemma answers_take {existing : Record}
    (hfind : find ⟨project.projectId, request.pullRequest⟩ s.records = some existing)
    (hsame : acknowledges project request existing = true) :
    ⟨existing, s.disk.getD []⟩ ∈ (s.take project request now).answers := by
  have hansw : s.take project request now = s.answer project existing := by
    simp only [acknowledges, Bool.and_eq_true, Bool.or_eq_true, decide_eq_true_eq,
      Option.isNone_iff_eq_none] at hsame
    obtain ⟨⟨⟨⟨howner, hbranch⟩, hbase⟩, hprof⟩, hhead⟩ := hsame
    unfold State.take
    rw [hfind]
    simp only [howner, hbranch, hbase, hprof, ne_eq, not_true_eq_false, or_self, if_false]
    split
    · next armedHead hreq =>
        rw [hreq] at hhead
        rcases hhead with hnone | hhead
        · cases hnone
        · rw [if_pos hhead.symm]
    · rfl
  rw [hansw, State.answer]
  split_ifs <;> simp [State.own, State.schedule, State.execute]

lemma not_kept_of_unsaved {a : Step} (huns : ¬Saved s a) (hnext : next s a = some t) : ¬Kept t := by
  intro hkept
  cases a with
  | take i now =>
    simp only [next] at hnext
    split at hnext
    · next project request hidle hcall =>
        cases hnext
        apply huns
        intro call hmem existing hfind hsame hact
        obtain rfl := Option.some.inj (hcall.symm.trans hmem)
        have hansw := @answers_take { s.load with calls := s.calls.eraseIdx i } project request
          now existing hfind hsame
        have hstor := hkept.answered _ hansw hact
        rwa [show State.disk _ = s.disk from disk_load] at hstor
    · cases hnext
  | _ => exact huns trivial

end
end Redskilled.Daemon.GithubCustody
