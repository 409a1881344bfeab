import Redskilled.Daemon.GithubCustody

/-!
# What custody holds

Two invariants of the custodian. What it owes is stored, and what it watches is driven.
The first is about memory and disk and the second about timers and passes, and each
operation keeps both.
-/
namespace Redskilled.Daemon.GithubCustody
open Foundation List Function

section
variable {records : List Record} {record : Record} {key k : Key} {change : Record → Record}

lemma isActive_iff :
    isActive records key = true ↔ ∃ record ∈ records, record.key = key ∧ record.terminal = false := by
  simp [isActive]

lemma key_of_obligation {other : Record} (h : other.obligation = record.obligation) :
    other.key = record.key ∧ other.terminal = record.terminal := by
  obtain ⟨hhand, hrest⟩ := Prod.mk.inj h
  obtain ⟨hproj, hstate⟩ := Prod.mk.inj hrest
  have hpull := congrArg Handoff.pullRequest hhand
  have hid := congrArg Project.projectId hproj
  exact ⟨congrArg₂ Key.mk hid hpull, by simp [Record.terminal, hstate]⟩

lemma find_key (h : find key records = some record) : record.key = key := by
  simpa using find?_some h

lemma find_mem (h : find key records = some record) : record ∈ records :=
  mem_of_find?_eq_some h

lemma find_none_iff : find key records = none ↔ key ∉ records.map Record.key := by
  simp [find]

lemma isActive_of_find_none (h : find key records = none) : isActive records key = false := by
  by_contra hact
  rw [Bool.not_eq_false, isActive_iff] at hact
  obtain ⟨record, hmem, hkey, -⟩ := hact
  exact find_none_iff.mp h (hkey ▸ mem_map_of_mem hmem)

lemma isActive_of_terminal (hkeys : (records.map Record.key).Nodup) (hmem : record ∈ records)
    (hterm : record.terminal = true) : isActive records record.key = false := by
  by_contra hact
  rw [Bool.not_eq_false, isActive_iff] at hact
  obtain ⟨other, hoth, hkey, hact⟩ := hact
  obtain rfl := inj_on_of_nodup_map hkeys hoth hmem hkey
  rw [hterm] at hact
  cases hact

lemma keys_update (hkey : ∀ record, (change record).key = record.key) :
    (update k change records).map Record.key = records.map Record.key := by
  induction records with
  | nil => rfl
  | cons first rest ih =>
    unfold update
    split_ifs
    · simp [hkey]
    · simp [ih]

lemma isActive_update_of_ne (hkey : ∀ record, (change record).key = record.key) (hne : key ≠ k) :
    isActive (update k change records) key = isActive records key := by
  induction records with
  | nil => rfl
  | cons first rest ih =>
    unfold update
    split_ifs with hfirst
    · have hoth : first.key ≠ key := by
        rw [hfirst]
        exact hne.symm
      simp [isActive, hkey, hoth]
    · simp only [isActive, any_cons] at ih ⊢
      rw [ih]

lemma isActive_update (hkey : ∀ record, (change record).key = record.key)
    (hact : ∀ record, record.terminal = false → (change record).terminal = false)
    (h : isActive records key = true) : isActive (update k change records) key = true := by
  induction records with
  | nil => exact h
  | cons first rest ih =>
    simp only [isActive, any_cons, Bool.or_eq_true] at h ih
    unfold update
    split_ifs with hfirst
    · simp only [isActive, any_cons, Bool.or_eq_true]
      refine h.imp_left fun h => ?_
      simp only [Bool.and_eq_true, decide_eq_true_eq, Bool.not_eq_true'] at h ⊢
      exact ⟨(hkey first).trans h.1, hact first h.2⟩
    · simp only [isActive, any_cons, Bool.or_eq_true]
      exact h.imp_right ih

lemma mem_update (h : find k records = some record) : change record ∈ update k change records := by
  induction records with
  | nil => cases h
  | cons first rest ih =>
    unfold update
    split_ifs with hfirst
    · have hfound : find k (first :: rest) = some first := find?_cons_of_pos (by simpa)
      rw [hfound] at h
      cases h
      exact mem_cons_self
    · have hlat : find k (first :: rest) = find k rest := find?_cons_of_neg (by simpa)
      rw [hlat] at h
      exact mem_cons_of_mem _ (ih h)

lemma compact_sublist : (compactGithubCustodySnapshot records).Sublist records := by
  simp only [compactGithubCustodySnapshot]
  split_ifs
  · exact .refl _
  · exact filter_sublist

lemma mem_compact (hmem : record ∈ records) (hact : record.terminal = false) :
    record ∈ compactGithubCustodySnapshot records := by
  simp only [compactGithubCustodySnapshot]
  split_ifs
  · exact hmem
  · simp [hmem, hact]

lemma isActive_compact (h : isActive records key = true) :
    isActive (compactGithubCustodySnapshot records) key = true := by
  rw [isActive_iff] at h ⊢
  obtain ⟨record, hmem, hkey, hact⟩ := h
  exact ⟨record, mem_compact hmem hact, hkey, hact⟩

lemma nodup_compact (h : (records.map Record.key).Nodup) :
    ((compactGithubCustodySnapshot records).map Record.key).Nodup :=
  h.sublist (compact_sublist.map Record.key)

lemma isActive_append (h : isActive records key = true) :
    isActive (records ++ [record]) key = true := by
  simp only [isActive, any_append, Bool.or_eq_true] at h ⊢
  exact .inl h

lemma observing_key (now : Text) (record : Record) : (observing now record).key = record.key := by
  unfold observing
  split_ifs <;> rfl

lemma observing_terminal (now : Text) (record : Record) :
    (observing now record).terminal = record.terminal := by
  unfold observing
  split_ifs <;> rfl

lemma unavailable_key (record : Record) : (unavailable record).key = record.key := by
  unfold unavailable
  split_ifs <;> rfl

lemma unavailable_terminal (record : Record) : (unavailable record).terminal = record.terminal := by
  unfold unavailable
  split_ifs <;> rfl

end

/-- What is owed is on the disk, and in memory once it is loaded. What a handoff was
answered with was on the disk then. -/
structure Stored (s : State) : Prop where
  diskKeys : ((s.disk.getD []).map Record.key).Nodup
  keys : (s.records.map Record.key).Nodup
  loaded : s.stage ≠ .idle → s.snapshot = some s.records
  handing : ∀ project record, s.stage = .handing project record → record ∈ s.records
  owedDisk : ∀ key, s.owed key = true → isActive (s.disk.getD []) key = true
  owedHeld : ∀ key, s.owed key = true →
    ∀ records, s.snapshot = some records → isActive records key = true
  answered : ∀ answer ∈ s.answers, answer.record.terminal = false →
    ∃ stored ∈ answer.disk, stored.obligation = answer.record.obligation

section
variable {s t : State} {key : Key}

lemma Stored.frame (h : Stored s) (hsnapsh : t.snapshot = s.snapshot) (hdisk : t.disk = s.disk)
    (howed : t.owed = s.owed) (hanswe : t.answers = s.answers) (hstage : t.stage = s.stage) :
    Stored t := by
  have hrec : t.records = s.records := by simp [State.records, hsnapsh]
  constructor
  · exact hdisk ▸ h.diskKeys
  · exact hrec ▸ h.keys
  · rw [hstage, hsnapsh, hrec]
    exact h.loaded
  · rw [hstage, hrec]
    exact h.handing
  · rw [howed, hdisk]
    exact h.owedDisk
  · rw [howed, hsnapsh]
    exact h.owedHeld
  · rw [hanswe]
    exact h.answered

lemma Stored.idle (h : Stored s) : Stored { s with stage := .idle } := by
  constructor
  · exact h.diskKeys
  · exact h.keys
  · intro hstage
    exact absurd rfl hstage
  · intro project record hstage
    cases hstage
  · exact h.owedDisk
  · exact h.owedHeld
  · exact h.answered

lemma Stored.load (h : Stored s) : Stored s.load := by
  unfold State.load
  split
  · exact h
  · next hnone =>
      constructor
      · exact h.diskKeys
      · exact nodup_compact h.diskKeys
      · intro _
        rfl
      · intro project record hstage
        have hrecord := h.handing project record hstage
        rw [State.records, hnone] at hrecord
        cases hrecord
      · exact h.owedDisk
      · intro key howed records hsome
        cases hsome
        exact isActive_compact (h.owedDisk key howed)
      · exact h.answered

lemma Stored.write (h : Stored s) {records : List Record} {stage : Stage}
    (hkeys : (records.map Record.key).Nodup)
    (hact : ∀ key, s.owed key = true → isActive records key = true)
    (hstage : ∀ project record, stage = .handing project record → record ∈ records) :
    Stored { s with snapshot := some records, stage := stage } := by
  constructor
  · exact h.diskKeys
  · exact hkeys
  · intro _
    rfl
  · exact hstage
  · exact h.owedDisk
  · intro key howed records' hsome
    cases hsome
    exact hact key howed
  · exact h.answered

lemma Stored.change (h : Stored s) (hload : s.snapshot = some s.records)
    {change : Record → Record} {stage : Stage}
    (hkey : ∀ record, (change record).key = record.key)
    (hact : ∀ record, record.terminal = false → (change record).terminal = false)
    (hstage : ∀ project record, stage = .handing project record →
      record ∈ update key change s.records) :
    Stored { s with snapshot := some (update key change s.records), stage := stage } := by
  apply h.write
  · rw [keys_update hkey]
    exact h.keys
  · intro k howed
    exact isActive_update hkey hact (h.owedHeld k howed s.records hload)
  · exact hstage

lemma Stored.persist (h : Stored s) (hstage : s.stage ≠ .idle) : Stored s.persist := by
  constructor
  · exact h.keys
  · exact h.keys
  · intro hidle
    exact absurd rfl hidle
  · intro project record hhandi
    cases hhandi
  · intro k howed
    exact h.owedHeld k howed s.records (h.loaded hstage)
  · exact h.owedHeld
  · exact h.answered

lemma Stored.execute (h : Stored s) {project : Project} {record : Record}
    (hdisk : record.terminal = false → ∃ stored ∈ s.disk.getD [],
      stored.obligation = record.obligation) : Stored (s.execute project record) := by
  constructor
  · exact h.diskKeys
  · exact h.keys
  · exact h.loaded
  · exact h.handing
  · exact h.owedDisk
  · exact h.owedHeld
  · intro answer hansw hact
    rcases mem_append.mp hansw with hansw | hansw
    · exact h.answered answer hansw hact
    · obtain rfl := mem_singleton.mp hansw
      exact hdisk hact

lemma Stored.own (h : Stored s) (hdisk : isActive (s.disk.getD []) key = true)
    (hheld : isActive s.records key = true) : Stored (s.own key) := by
  constructor
  · exact h.diskKeys
  · exact h.keys
  · exact h.loaded
  · exact h.handing
  · intro k howed
    by_cases hk : k = key
    · rw [hk]
      exact hdisk
    · simp only [State.own, update_of_ne hk] at howed
      exact h.owedDisk k howed
  · intro k howed records hsome
    by_cases hk : k = key
    · rw [hk]
      rwa [State.records, show s.snapshot = some records from hsome] at hheld
    · simp only [State.own, update_of_ne hk] at howed
      exact h.owedHeld k howed records hsome
  · exact h.answered

lemma Stored.answer (h : Stored s) {project : Project} {record : Record} (hmem : record ∈ s.records)
    (hdisk : record.terminal = false → ∃ stored ∈ s.disk.getD [],
      stored.obligation = record.obligation) : Stored (s.answer project record) := by
  have hexec : Stored (s.execute project record) := h.execute hdisk
  unfold State.answer
  split_ifs with hterm
  · exact hexec
  · rw [Bool.not_eq_true] at hterm
    obtain ⟨stored, hstor, hsame⟩ := hdisk hterm
    obtain ⟨hkey, hact⟩ := key_of_obligation hsame
    have hsch : Stored ((s.execute project record).schedule record.key) :=
      hexec.frame rfl rfl rfl rfl rfl
    apply hsch.own
    · exact isActive_iff.mpr ⟨stored, hstor, hkey, hact.trans hterm⟩
    · exact isActive_iff.mpr ⟨record, hmem, rfl, hterm⟩

end

structure Driven (s : State) : Prop where
  ticking : ∀ key record, s.stage = .ticking key record → record ∈ s.records ∧ record.key = key
  settling : ∀ key, s.stage = .settling key true → s.watched key = false
  watched : ∀ key, s.watched key = true → isActive s.records key = true
  executed : ∀ key, s.watched key = true → s.closed = false → (s.executions key).isSome = true
  driven : ∀ key, s.watched key = true → s.closed = false →
    s.timers key = true ∨ (s.driving key).isSome = true

section
variable {s t : State} {key : Key}

lemma Driven.idle (h : Driven s) : Driven { s with stage := .idle } := by
  constructor
  · intro key record hstage
    cases hstage
  · intro key hstage
    cases hstage
  · exact h.watched
  · exact h.executed
  · exact h.driven

lemma Driven.persist (h : Driven s) : Driven s.persist := by
  constructor
  · intro key record hstage
    cases hstage
  · intro key hstage
    cases hstage
  · exact h.watched
  · exact h.executed
  · exact h.driven

lemma Driven.load (h : Driven s) : Driven s.load := by
  unfold State.load
  split
  · exact h
  · next hnone =>
      have hempty : s.records = [] := by
        rw [State.records, hnone]
        rfl
      have hwatch : ∀ key, s.watched key ≠ true := by
        intro key hwatch
        have hact := h.watched key hwatch
        rw [hempty] at hact
        cases hact
      constructor
      · intro key record hstage
        have hmem := (h.ticking key record hstage).1
        rw [hempty] at hmem
        cases hmem
      · exact h.settling
      · intro key hkey
        exact absurd hkey (hwatch key)
      · exact h.executed
      · exact h.driven

lemma Driven.schedule (h : Driven s) : Driven (s.schedule key) := by
  constructor
  · exact h.ticking
  · exact h.settling
  · exact h.watched
  · exact h.executed
  · intro k hwatch hopen
    refine (h.driven k hwatch hopen).imp_left fun htim => ?_
    simp only [State.schedule]
    rw [if_neg (by rw [show s.closed = false from hopen]; exact Bool.false_ne_true), update_apply]
    split_ifs
    · rfl
    · exact htim

lemma timers_schedule (hopen : s.closed = false) : (s.schedule key).timers key = true := by
  simp [State.schedule, hopen]

lemma Driven.phase (h : Driven s) (phase : Phase) : Driven (s.phase key phase) := by
  constructor
  · exact h.ticking
  · exact h.settling
  · exact h.watched
  · exact h.executed
  · intro k hwatch hopen
    refine (h.driven k hwatch hopen).imp_right fun hdriv => ?_
    simp only [State.phase, update_apply]
    split_ifs
    · rfl
    · exact hdriv

lemma Driven.endPass (h : Driven s)
    (hkey : s.watched key = true → s.closed = false → s.timers key = true) :
    Driven (s.endPass key) := by
  constructor
  · exact h.ticking
  · exact h.settling
  · exact h.watched
  · exact h.executed
  · intro k hwatch hopen
    by_cases hk : k = key
    · subst hk
      exact .inl (hkey hwatch hopen)
    · refine (h.driven k hwatch hopen).imp_right fun hdriv => ?_
      simp only [State.endPass, update_of_ne hk]
      exact hdriv

lemma Driven.scheduleEnd (h : Driven s) : Driven ((s.schedule key).endPass key) := by
  apply h.schedule.endPass
  intro _ hopen
  exact timers_schedule hopen

lemma Driven.write (h : Driven s) {records : List Record} {stage : Stage}
    (hact : ∀ key, s.watched key = true → isActive records key = true)
    (htick : ∀ key record, stage = .ticking key record → record ∈ records ∧ record.key = key)
    (hsettl : ∀ key, stage = .settling key true → s.watched key = false) :
    Driven { s with snapshot := some records, stage := stage } :=
  ⟨htick, hsettl, hact, h.executed, h.driven⟩

lemma Driven.register (h : Driven s) (hidle : s.stage = .idle) (project : Project) :
    Driven (s.register project) := by
  constructor
  · exact h.ticking
  · intro key hstage
    rw [show s.stage = _ from hstage] at hidle
    cases hidle
  · intro key hwatch
    rcases Bool.or_eq_true_iff.mp hwatch with hwatch | hwatch
    · exact h.watched key hwatch
    · exact (Bool.and_eq_true_iff.mp hwatch).2
  · intro key hwatch hopen
    simp only [State.register]
    split_ifs with hreg
    · rfl
    · apply h.executed key _ hopen
      simpa [State.register, hreg] using hwatch
  · intro key hwatch hopen
    by_cases hreg : s.registers project key = true
    · left
      simp [State.register, hreg, show s.closed = false from hopen]
    · refine (h.driven key ?_ hopen).imp_left fun htim => ?_
      · simpa [State.register, hreg] using hwatch
      · simp [State.register, htim]

lemma Driven.execute (h : Driven s) (project : Project) (record : Record) :
    Driven (s.execute project record) := by
  constructor
  · exact h.ticking
  · exact h.settling
  · exact h.watched
  · intro key hwatch hopen
    simp only [State.execute, update_apply]
    split_ifs
    · rfl
    · exact h.executed key hwatch hopen
  · exact h.driven

lemma Driven.own (h : Driven s) (hidle : s.stage = .idle) (hact : isActive s.records key = true)
    (hexec : s.closed = false → (s.executions key).isSome = true)
    (htim : s.closed = false → s.timers key = true) : Driven (s.own key) := by
  constructor
  · exact h.ticking
  · intro k hstage
    rw [show s.stage = _ from hstage] at hidle
    cases hidle
  · intro k hwatch
    by_cases hk : k = key
    · exact hk ▸ hact
    · simp only [State.own, update_of_ne hk] at hwatch
      exact h.watched k hwatch
  · intro k hwatch hopen
    by_cases hk : k = key
    · exact hk ▸ hexec hopen
    · simp only [State.own, update_of_ne hk] at hwatch
      exact h.executed k hwatch hopen
  · intro k hwatch hopen
    by_cases hk : k = key
    · exact .inl (hk ▸ htim hopen)
    · simp only [State.own, update_of_ne hk] at hwatch
      exact h.driven k hwatch hopen

lemma Driven.answer (h : Driven s) (hidle : s.stage = .idle) {project : Project} {record : Record}
    (hmem : record ∈ s.records) : Driven (s.answer project record) := by
  unfold State.answer
  split_ifs with hterm
  · exact h.execute project record
  · rw [Bool.not_eq_true] at hterm
    apply (h.execute project record).schedule.own hidle
    · exact isActive_iff.mpr ⟨record, hmem, rfl, hterm⟩
    · intro _
      simp [State.schedule, State.execute]
    · intro hopen
      exact timers_schedule (show (s.execute project record).closed = false from hopen)

lemma Driven.fire (h : Driven s) :
    Driven (State.drive { s with timers := Function.update s.timers key false } key) := by
  unfold State.drive
  split_ifs with hskip
  · refine ⟨h.ticking, h.settling, h.watched, h.executed, fun k hwatch hopen => ?_⟩
    by_cases hk : k = key
    · subst hk
      rcases hskip with hclos | hdriv | hnone
      · rw [show s.closed = true from hclos] at hopen
        cases hopen
      · exact .inr hdriv
      · have hexec := h.executed k hwatch hopen
        simp only [Option.isNone_iff_eq_none] at hnone
        rw [hnone] at hexec
        cases hexec
    · refine (h.driven k hwatch hopen).imp_left fun htim => ?_
      simp only [update_of_ne hk]
      exact htim
  · refine ⟨h.ticking, h.settling, h.watched, h.executed, fun k hwatch hopen => ?_⟩
    by_cases hk : k = key
    · right
      simp [State.phase, hk]
    · refine (h.driven k hwatch hopen).imp ?_ ?_
      · simp only [State.phase, update_of_ne hk]
        exact id
      · simp only [State.phase, update_of_ne hk]
        exact id

end

end Redskilled.Daemon.GithubCustody
