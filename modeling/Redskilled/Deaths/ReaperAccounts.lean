import Redskilled.Deaths.BootReaper

/-!
# What the boot reaper accounts for

An anchor is taken away inside the loop, and its attribution is written behind it. In
between the process can end, the compaction can throw, and the append swallows its own
errors: the anchor is gone then, and nothing says so.
-/
namespace Redskilled.Deaths
open Foundation List Option

namespace PresenceDir
variable {dir : PresenceDir} {presence other : ProcessPresence} {name : Text}

lemma utf16Lt_irrefl (t : Text) : Text.utf16Lt t t = false := by
  simp [Text.utf16Lt]

lemma nodup_names (dir : PresenceDir) : (dir.files.map AnchorFile.name).Nodup := by
  rw [List.Nodup, pairwise_map]
  apply dir.sorted.imp
  intro file next hlt heq
  rw [heq, utf16Lt_irrefl] at hlt
  cases hlt

lemma mem_anchors :
    presence ∈ dir.anchors ↔ ⟨presenceFileName presence, some presence⟩ ∈ dir.files := by
  unfold anchors
  rw [mem_filterMap]
  constructor
  · rintro ⟨file, hfile, hanchor⟩
    have hname := dir.named file hfile presence hanchor
    rw [← hname, ← hanchor]
    exact hfile
  · intro h
    exact ⟨_, h, rfl⟩

lemma eq_of_name (h : presence ∈ dir.anchors) (hoth : other ∈ dir.anchors)
    (hname : presenceFileName presence = presenceFileName other) : presence = other := by
  have hfile := inj_on_of_nodup_map dir.nodup_names (mem_anchors.mp h)
    (mem_anchors.mp hoth) hname
  have hanchor := congrArg AnchorFile.anchor hfile
  exact some.inj hanchor

lemma mem_anchors_remove : presence ∈ (dir.remove name).anchors ↔
      presence ∈ dir.anchors ∧ presenceFileName presence ≠ name := by
  rw [mem_anchors, mem_anchors]
  simp [remove]

end PresenceDir

section
variable {format : LaneFormat} {boot : Boot} {faults : Faults} {disk : Disk}
  {deaths : List (ProcessDeathRecord ℕ)} {presence : ProcessPresence}

lemma mem_anchors_clear {dir : PresenceDir} {cleared : ProcessPresence} :
    presence ∈ (clearProcessPresence faults dir cleared).anchors ↔
      presence ∈ dir.anchors ∧ (faults.clear (presenceFileName cleared) = false →
        presenceFileName presence ≠ presenceFileName cleared) := by
  unfold clearProcessPresence
  cases hfault : faults.clear (presenceFileName cleared) with
  | true => simp
  | false => simp [PresenceDir.mem_anchors_remove]

variable (boot faults deaths) in
/-- The dead without a record of their own. -/
def isUnexplained (presence : ProcessPresence) : Bool :=
  !isLive boot presence && !explainsItself deaths presence

lemma foldl_alive (presences : List ProcessPresence) (reaping : Reaping) :
    (presences.foldl (reapStep boot faults deaths) reaping).alive =
      reaping.alive ++ presences.filter (isLive boot) := by
  induction presences generalizing reaping with
  | nil => simp
  | cons presence presences ih =>
    rw [foldl_cons, ih]
    unfold reapStep
    cases hlive : isLive boot presence with
    | true => simp [hlive]
    | false =>
      rw [filter_cons_of_neg (by simp [hlive])]
      cases explainsItself deaths presence <;> rfl

lemma foldl_attributions (presences : List ProcessPresence) (reaping : Reaping) :
    (presences.foldl (reapStep boot faults deaths) reaping).attributions =
      reaping.attributions ++ (presences.filter (isUnexplained boot deaths)).map
        fun presence => attributeDeath presence boot.evidence deaths boot.reapedAt := by
  induction presences generalizing reaping with
  | nil => simp
  | cons presence presences ih =>
    rw [foldl_cons, ih]
    unfold reapStep
    cases hlive : isLive boot presence with
    | true => simp [isUnexplained, hlive]
    | false =>
      cases hown : explainsItself deaths presence with
      | true => simp [isUnexplained, hlive, hown]
      | false => simp [isUnexplained, hlive, hown]

lemma mem_anchors_foldl (presences : List ProcessPresence) (reaping : Reaping) :
    presence ∈ (presences.foldl (reapStep boot faults deaths) reaping).presences.anchors ↔
      presence ∈ reaping.presences.anchors ∧ ∀ cleared ∈ presences, isLive boot cleared = false →
        faults.clear (presenceFileName cleared) = false →
          presenceFileName presence ≠ presenceFileName cleared := by
  induction presences generalizing reaping with
  | nil => simp
  | cons cleared presences ih =>
    have hstep : presence ∈ (reapStep boot faults deaths reaping cleared).presences.anchors ↔
        presence ∈ reaping.presences.anchors ∧ (isLive boot cleared = false →
          faults.clear (presenceFileName cleared) = false →
            presenceFileName presence ≠ presenceFileName cleared) := by
      unfold reapStep
      cases hlive : isLive boot cleared with
      | true => simp
      | false =>
        split
        · contradiction
        · split <;> simp [mem_anchors_clear]
    rw [foldl_cons, ih, hstep, forall_mem_cons, and_assoc]

end

section
variable (format : LaneFormat) (boot : Boot) (faults : Faults) (disk : Disk)
  (deaths : List (ProcessDeathRecord ℕ))

def seenAnchors : List ProcessPresence :=
  faults.crash.seen (readProcessPresences faults disk.presences)

/-- The file of a dead process is reached, and goes. -/
def Removed (presence : ProcessPresence) : Prop :=
  presence ∈ seenAnchors faults disk ∧ isLive boot presence = false ∧
    faults.clear (presenceFileName presence) = false

structure Appends : Prop where
  reached : faults.crash = .never ∨ faults.crash = .beforeReturn
  compacts : (compactAtBoot format boot faults disk).isSome
  makes : faults.appendMkdir = false
  reads : (attributionsRead faults disk).isSome
  replaces : faults.appendReplace = false

def Unexplained (presence : ProcessPresence) : Prop :=
  presence ∈ seenAnchors faults disk ∧ isUnexplained boot deaths presence = true

/-- The lane is replaced without having been read. -/
def Overwrites : Prop :=
  Appends format boot faults disk ∧ faults.readAttributions = true ∧
    ∃ presence, Unexplained boot faults disk deaths presence

end

section
variable {format : LaneFormat} {boot : Boot} {faults : Faults} {disk : Disk}
  {deaths : List (ProcessDeathRecord ℕ)} {presence : ProcessPresence}

lemma mem_anchors_of_seen (h : presence ∈ seenAnchors faults disk) :
    presence ∈ disk.presences.anchors := by
  have hread : presence ∈ readProcessPresences faults disk.presences := by
    unfold seenAnchors Crash.seen at h
    split at h
    · exact mem_of_mem_take h
    · exact h
  unfold readProcessPresences at hread
  split at hread
  · cases hread
  · obtain ⟨file, hfile, hanchor⟩ := mem_filterMap.mp hread
    split at hanchor
    · exact mem_filterMap.mpr ⟨file, hfile, hanchor⟩
    · cases hanchor

lemma mem_anchors_reap :
    presence ∈ (reap boot faults deaths (seenAnchors faults disk) disk.presences).presences.anchors ↔
      presence ∈ disk.presences.anchors ∧ ¬ Removed boot faults disk presence := by
  unfold reap
  rw [mem_anchors_foldl]
  apply and_congr_right
  intro hanchor
  constructor
  · intro h hrem
    exact h presence hrem.1 hrem.2.1 hrem.2.2 rfl
  · intro h cleared hseen hdead hgoes hname
    have heq := PresenceDir.eq_of_name hanchor (mem_anchors_of_seen hseen) hname
    subst heq
    exact h ⟨hseen, hdead, hgoes⟩

variable {attribution : DeathAttribution} {compacted : Disk}

lemma mem_attributions_reap : attribution ∈
        (reap boot faults deaths (seenAnchors faults disk) disk.presences).attributions ↔
      ∃ presence, Unexplained boot faults disk deaths presence ∧
        attributeDeath presence boot.evidence deaths boot.reapedAt = attribution := by
  unfold reap
  rw [foldl_attributions]
  simp [Unexplained, and_assoc]

lemma compact_presences (nowMs : ℤ) (dir : PresenceDir) :
    compactProcessDeathLane format faults nowMs { disk with presences := dir } =
      (compactProcessDeathLane format faults nowMs disk).map ({ · with presences := dir }) := by
  unfold compactProcessDeathLane
  cases faults.compactRead with
  | true => rfl
  | false =>
    cases disk.deaths.records with
    | none => rfl
    | some records =>
      simp only [Bool.false_eq_true, if_false]
      split
      · rfl
      · cases faults.compactReplace <;> rfl

lemma compactAtBoot_presences (dir : PresenceDir) :
    compactAtBoot format boot faults { disk with presences := dir } =
      (compactAtBoot format boot faults disk).map ({ · with presences := dir }) := by
  unfold compactAtBoot
  cases format.dateParse boot.reapedAt with
  | none => rfl
  | some reapedAtMs => exact compact_presences reapedAtMs dir

lemma mem_keep_or_shed {α : Type*} [DecidableEq α] {records retained shed : List α}
    (hretain : ∀ record ∈ retained, record ∈ records) (record : α) :
    record ∈ shed ++ records.filter (!retained.contains ·) ++ retained ↔
      record ∈ shed ++ records := by
  simp only [append_assoc, mem_append, mem_filter, contains_eq_mem,
    Bool.not_eq_eq_eq_not, Bool.not_true, decide_eq_false_iff_not]
  constructor
  · rintro (h | ⟨h, -⟩ | h)
    · exact .inl h
    · exact .inr h
    · exact .inr (hretain record h)
  · rintro (h | h)
    · exact .inl h
    · by_cases hkept : record ∈ retained
      · exact .inr (.inr hkept)
      · exact .inr (.inl ⟨h, hkept⟩)

/-- What the compaction leaves as it was. -/
structure Compacted (disk compacted : Disk) : Prop where
  presences : compacted.presences = disk.presences
  attributions : compacted.attributions = disk.attributions
  shedAttributions : compacted.shedAttributions = disk.shedAttributions
  deathLog : ∀ death, death ∈ compacted.deathLog ↔ death ∈ disk.deathLog
  decodes : disk.deaths.records.isSome → compacted.deaths.records.isSome

lemma mem_retainDeaths {nowMs : ℤ} {lane : DeathLane} {records : List (ProcessDeathRecord ℕ)}
    {record : ProcessDeathRecord ℕ} (h : record ∈ retainDeaths format nowMs lane records) :
    record ∈ records := by
  unfold retainDeaths at h
  simp only at h
  split at h
  · exact (retainAge_sublist _ _ _).subset ((retainWithin_sublist _ _).subset h)
  · exact (retainAge_sublist _ _ _).subset h

lemma Compacted.refl (disk : Disk) : Compacted disk disk :=
  ⟨rfl, rfl, rfl, fun _ => Iff.rfl, id⟩

lemma compacted_of_some
    (h : compactAtBoot format boot faults disk = some compacted) : Compacted disk compacted := by
  unfold compactAtBoot at h
  split at h
  · rw [← some.inj h]
    exact .refl disk
  · unfold compactProcessDeathLane at h
    split at h
    · cases h
    · cases hrec : disk.deaths.records with
      | none =>
        rw [hrec] at h
        cases h
      | some records =>
        simp only [hrec] at h
        split at h
        · rw [← some.inj h]
          exact .refl disk
        · split at h
          · cases h
          · rw [← some.inj h]
            refine ⟨rfl, rfl, rfl, ?_, fun _ => rfl⟩
            intro death
            unfold Disk.deathLog
            rw [hrec]
            exact mem_keep_or_shed (fun record => mem_retainDeaths) death

lemma compacts_of_noFault (hrec : disk.deaths.records.isSome)
    (hread : faults.compactRead = false) (hrepl : faults.compactReplace = false) :
    (compactAtBoot format boot faults disk).isSome := by
  obtain ⟨records, hrec⟩ := isSome_iff_exists.mp hrec
  unfold compactAtBoot
  split
  · rfl
  · unfold compactProcessDeathLane
    simp only [hread, hrec, hrepl, Bool.false_eq_true, if_false]
    split <;> rfl

lemma mem_retainAttributions {nowMs : ℤ} {attributions : List DeathAttribution}
    (h : attribution ∈ retainAttributions format nowMs attributions) :
    attribution ∈ attributions := by
  unfold retainAttributions at h
  simp only at h
  split at h
  · exact (retainAge_sublist _ _ _).subset h
  · exact (retainAge_sublist _ _ _).subset ((retainWithin_sublist _ _).subset h)

/-- What the append does to the disk. -/
structure Appended (rows existing : List DeathAttribution) (disk written : Disk) : Prop where
  presences : written.presences = disk.presences
  deaths : written.deaths = disk.deaths
  deathLog : written.deathLog = disk.deathLog
  attributionLog : ∀ attribution, attribution ∈ written.attributionLog ↔
    attribution ∈ disk.shedAttributions ∨ attribution ∈ existing ∨ attribution ∈ rows

lemma append_spec (rows : List DeathAttribution) :
    (∃ existing written, attributionsRead faults disk = some existing ∧
        appendAttributions format boot faults rows disk = some written ∧
        Appended rows existing disk written ∧ faults.appendMkdir = false ∧
        faults.appendReplace = false) ∨
      appendAttributions format boot faults rows disk = none ∧
        ¬ (faults.appendMkdir = false ∧ (attributionsRead faults disk).isSome ∧
          faults.appendReplace = false) := by
  unfold appendAttributions
  cases hmkd : faults.appendMkdir with
  | true => simp
  | false =>
    cases hread : attributionsRead faults disk with
    | none => simp
    | some existing =>
      cases hrepl : faults.appendReplace with
      | true => simp
      | false =>
        refine .inl ⟨existing, _, rfl, rfl, ⟨rfl, rfl, rfl, ?_⟩, rfl, rfl⟩
        intro attribution
        unfold Disk.attributionLog
        simp only [getD_some]
        rw [mem_keep_or_shed fun record hrecord => mem_retainAttributions hrecord]
        simp only [mem_append]

variable (format boot faults) in
structure Finished (rows : List DeathAttribution) (disk after : Disk) (returned : Bool)
    (appended : List DeathAttribution) : Prop where
  presences : after.presences = disk.presences
  deathLog : ∀ death, death ∈ after.deathLog ↔ death ∈ disk.deathLog
  attributionLog : ∀ attribution, attribution ∈ after.attributionLog ↔
    attribution ∈ disk.shedAttributions ∨
      (¬ (Appends format boot faults disk ∧ faults.readAttributions = true ∧ rows ≠ []) ∧
        attribution ∈ disk.attributions.getD []) ∨
      (Appends format boot faults disk ∧ attribution ∈ rows)
  appended : ∀ attribution, attribution ∈ appended ↔
    Appends format boot faults disk ∧ attribution ∈ rows
  ends : returned = true ↔ faults.crash = .never ∧ (compactAtBoot format boot faults disk).isSome
  deaths : returned = true → ∀ compacted ∈ compactAtBoot format boot faults disk,
    after.deaths = compacted.deaths

variable {rows : List DeathAttribution} {returned : Bool}

lemma Finished.quiet {after : Disk} (h : Compacted disk after)
    (hquiet : Appends format boot faults disk → rows = [])
    (hret : returned = true ↔
      faults.crash = .never ∧ (compactAtBoot format boot faults disk).isSome)
    (hdeaths : returned = true → compactAtBoot format boot faults disk = some after) :
    Finished format boot faults rows disk after returned [] := by
  have hnone : ∀ attribution, ¬ (Appends format boot faults disk ∧ attribution ∈ rows) := by
    rintro attribution ⟨happ, hmem⟩
    rw [hquiet happ] at hmem
    cases hmem
  have hkept : ¬ (Appends format boot faults disk ∧ faults.readAttributions = true ∧
      rows ≠ []) := by
    rintro ⟨happ, -, hrows⟩
    exact hrows (hquiet happ)
  refine ⟨h.presences, h.deathLog, ?_, ?_, hret, ?_⟩
  · intro attribution
    simp only [hnone, hkept, or_false, not_false_eq_true, true_and, Disk.attributionLog,
      h.attributions, h.shedAttributions, mem_append]
  · intro attribution
    simp [hnone]
  · intro hend compacted hcomp
    rw [hdeaths hend] at hcomp
    rw [← some.inj hcomp]

lemma attributionsRead_congr
    (h : compacted.attributions = disk.attributions) :
    attributionsRead faults compacted = attributionsRead faults disk := by
  unfold attributionsRead
  rw [h]

lemma mem_attributionsRead {existing : List DeathAttribution}
    (h : attributionsRead faults disk = some existing) (attribution : DeathAttribution) :
    attribution ∈ existing ↔
      faults.readAttributions = false ∧ attribution ∈ disk.attributions.getD [] := by
  unfold attributionsRead at h
  cases hread : faults.readAttributions with
  | true =>
    rw [hread, if_pos rfl] at h
    rw [← some.inj h]
    simp
  | false =>
    rw [hread, if_neg (by simp)] at h
    rw [h]
    simp

lemma finished_append (hcrash : faults.crash = .never ∨ faults.crash = .beforeReturn)
    (hcomp : compactAtBoot format boot faults disk = some compacted) (hrows : rows ≠ []) :
    (∃ written, appendAttributions format boot faults rows compacted = some written ∧
        Finished format boot faults rows disk written (faults.crash = .never) rows) ∨
      appendAttributions format boot faults rows compacted = none ∧
        Finished format boot faults rows disk compacted (faults.crash = .never) [] := by
  have hkeeps := compacted_of_some hcomp
  have hsome : (compactAtBoot format boot faults disk).isSome := by
    rw [hcomp]
    rfl
  have hreads := @attributionsRead_congr faults disk compacted hkeeps.attributions
  rcases @append_spec format boot faults compacted rows with
    ⟨existing, written, hread, happend, hwritt, hmkd, hrepl⟩ | ⟨happend, hfails⟩
  · rw [hreads] at hread
    have happ : Appends format boot faults disk :=
      ⟨hcrash, hsome, hmkd, by rw [hread]; rfl, hrepl⟩
    refine .inl ⟨written, happend, ?_, ?_, ?_, ?_, ?_, ?_⟩
    · rw [hwritt.presences, hkeeps.presences]
    · intro death
      rw [hwritt.deathLog]
      exact hkeeps.deathLog death
    · intro attribution
      rw [hwritt.attributionLog, hkeeps.shedAttributions, mem_attributionsRead hread]
      simp [happ, hrows]
    · intro attribution
      simp [happ]
    · simp [hsome]
    · intro hend other hoth
      rw [hcomp] at hoth
      rw [hwritt.deaths, some.inj hoth]
  · refine .inr ⟨happend, .quiet hkeeps ?_ ?_ ?_⟩
    · intro happ
      rw [hreads] at hfails
      exact absurd ⟨happ.makes, happ.reads, happ.replaces⟩ hfails
    · simp [hsome]
    · intro hend
      exact hcomp

lemma finished_finishReaping (reaping : Reaping) :
    Finished format boot faults reaping.attributions disk
      (finishReaping format boot faults reaping disk).1
      (finishReaping format boot faults reaping disk).2.1
      (finishReaping format boot faults reaping disk).2.2 := by
  have hstops : ∀ after, Compacted disk after → faults.crash ≠ .never →
      faults.crash ≠ .beforeReturn →
        Finished format boot faults reaping.attributions disk after false [] := by
    intro after haft hnev hreturn
    apply Finished.quiet haft
    · intro happ
      rcases happ.reached with h | h
      · exact absurd h hnev
      · exact absurd h hreturn
    · simp [hnev]
    · intro h
      cases h
  have hthr : compactAtBoot format boot faults disk = none →
      Finished format boot faults reaping.attributions disk disk false [] := by
    intro hnone
    apply Finished.quiet (.refl disk)
    · intro happ
      have hsome := happ.compacts
      rw [hnone] at hsome
      cases hsome
    · simp [hnone]
    · intro h
      cases h
  unfold finishReaping
  cases hcrash : faults.crash with
  | inLoop handled => exact hstops disk (.refl disk) (by simp [hcrash]) (by simp [hcrash])
  | beforeAppend =>
    cases hcomp : compactAtBoot format boot faults disk with
    | none => exact hthr hcomp
    | some compacted =>
      exact hstops compacted (compacted_of_some hcomp) (by simp [hcrash])
        (by simp [hcrash])
  | never =>
    cases hcomp : compactAtBoot format boot faults disk with
    | none => exact hthr hcomp
    | some compacted =>
      by_cases hrows : reaping.attributions = []
      · simp only [hrows, reduceCtorEq, if_false, if_true]
        apply Finished.quiet (compacted_of_some hcomp) (fun _ => rfl)
        · simp [hcrash, hcomp]
        · exact fun _ => hcomp
      · simp only [hrows, reduceCtorEq, if_false]
        rcases finished_append (.inl hcrash) hcomp hrows with
          ⟨written, happend, hfin⟩ | ⟨happend, hfin⟩
        · rw [happend]
          simpa only [hcrash] using hfin
        · rw [happend]
          simpa only [hcrash] using hfin
  | beforeReturn =>
    cases hcomp : compactAtBoot format boot faults disk with
    | none => exact hthr hcomp
    | some compacted =>
      by_cases hrows : reaping.attributions = []
      · simp only [hrows, reduceCtorEq, if_false, if_true]
        apply Finished.quiet (compacted_of_some hcomp) (fun _ => rfl)
        · simp [hcrash]
        · exact fun _ => hcomp
      · simp only [hrows, reduceCtorEq, if_false]
        rcases finished_append (.inr hcrash) hcomp hrows with
          ⟨written, happend, hfin⟩ | ⟨happend, hfin⟩
        · rw [happend]
          simpa only [hcrash, reduceCtorEq] using hfin
        · rw [happend]
          simpa only [hcrash, reduceCtorEq] using hfin

lemma appends_presences (dir : PresenceDir) :
    Appends format boot faults { disk with presences := dir } ↔
      Appends format boot faults disk := by
  have hcompa : (compactAtBoot format boot faults { disk with presences := dir }).isSome =
      (compactAtBoot format boot faults disk).isSome := by
    rw [compactAtBoot_presences, Option.isSome_map]
  constructor
  · intro h
    exact ⟨h.reached, hcompa ▸ h.compacts, h.makes, h.reads, h.replaces⟩
  · intro h
    exact ⟨h.reached, hcompa ▸ h.compacts, h.makes, h.reads, h.replaces⟩

variable (format boot faults disk deaths) in
structure Reaped (run : ReaperRun) : Prop where
  alive : ∀ presence, presence ∈ run.alive ↔
    presence ∈ seenAnchors faults disk ∧ isLive boot presence = true
  anchors : ∀ presence, presence ∈ run.disk.presences.anchors ↔
    presence ∈ disk.presences.anchors ∧ ¬ Removed boot faults disk presence
  deathLog : ∀ death, death ∈ run.disk.deathLog ↔ death ∈ disk.deathLog
  attributionLog : ∀ attribution, attribution ∈ run.disk.attributionLog ↔
    attribution ∈ disk.shedAttributions ∨
      (¬ Overwrites format boot faults disk deaths ∧ attribution ∈ disk.attributions.getD []) ∨
      (Appends format boot faults disk ∧ ∃ presence, Unexplained boot faults disk deaths presence ∧
          attributeDeath presence boot.evidence deaths boot.reapedAt = attribution)
  appended : ∀ attribution, attribution ∈ run.appended ↔
    Appends format boot faults disk ∧ ∃ presence, Unexplained boot faults disk deaths presence ∧
        attributeDeath presence boot.evidence deaths boot.reapedAt = attribution
  ends : run.returned = true ↔
    faults.crash = .never ∧ (compactAtBoot format boot faults disk).isSome
  deaths : run.returned = true → ∀ compacted ∈ compactAtBoot format boot faults disk,
    run.disk.deaths = compacted.deaths

lemma reaped_run (h : readProcessDeathLane faults disk = some deaths) :
    Reaped format boot faults disk deaths (runBootDeathReaper format boot faults disk) := by
  unfold runBootDeathReaper
  simp only [h]
  have hfin := @finished_finishReaping format boot faults
    { disk with presences := (reap boot faults deaths (seenAnchors faults disk)
        disk.presences).presences }
    (reap boot faults deaths (seenAnchors faults disk) disk.presences)
  obtain ⟨hpresenc, hdeaths, hlog, happen, hends, hlane⟩ := hfin
  simp only [appends_presences, mem_attributions_reap] at hlog happen
  have hrows : (reap boot faults deaths (seenAnchors faults disk) disk.presences).attributions ≠
      [] ↔ ∃ presence, Unexplained boot faults disk deaths presence := by
    constructor
    · intro hne
      obtain ⟨attribution, hmem⟩ := exists_mem_of_ne_nil _ hne
      obtain ⟨presence, hpres, -⟩ := mem_attributions_reap.mp hmem
      exact ⟨presence, hpres⟩
    · rintro ⟨presence, hpres⟩
      exact ne_nil_of_mem (mem_attributions_reap.mpr ⟨presence, hpres, rfl⟩)
  rw [hrows] at hlog
  constructor
  · intro presence
    simp [reap, foldl_alive, seenAnchors]
  · intro presence
    unfold seenAnchors at hpresenc
    rw [hpresenc]
    exact mem_anchors_reap
  · exact hdeaths
  · exact hlog
  · exact happen
  · rw [compactAtBoot_presences, isSome_map] at hends
    exact hends
  · intro hret compacted hcomp
    rw [compactAtBoot_presences] at hlane
    have hmapp := mem_map_of_mem (fun reached : Disk => { reached with
      presences := (reap boot faults deaths (seenAnchors faults disk) disk.presences).presences })
      hcomp
    have haft := hlane hret _ hmapp
    exact haft

/-- Same kind, id and pid. -/
def Names (attribution : DeathAttribution) (presence : ProcessPresence) : Prop :=
  attribution.kind = presence.kind ∧ attribution.id = presence.id ∧ attribution.pid = presence.pid

def Records (death : ProcessDeathRecord ℕ) (presence : ProcessPresence) : Prop :=
  death.kind = presence.kind ∧ death.id = presence.id ∧ death.pid = presence.pid

/-- The attribution was made from this anchor. -/
def Attributes (attribution : DeathAttribution) (presence : ProcessPresence) : Prop :=
  Names attribution presence ∧ attribution.lastSeen = presence.ts

/-- Retention aside, a lane speaks for the process of the anchor. -/
def Accounted (disk : Disk) (presence : ProcessPresence) : Prop :=
  (∃ attribution ∈ disk.attributionLog, Names attribution presence) ∨
    ∃ death ∈ disk.deathLog, Records death presence

variable (format boot faults disk) in
/-- Every anchor is kept or accounted for, none is found alive under another boot than
the host's, and after a run that returned no run attributes an attributed anchor. -/
structure Accounts : Prop where
  kept : ∀ presence ∈ disk.presences.anchors,
    presence ∈ (runBootDeathReaper format boot faults disk).disk.presences.anchors ∨
      Accounted (runBootDeathReaper format boot faults disk).disk presence
  boots : ∀ presence ∈ (runBootDeathReaper format boot faults disk).alive,
    bootChanged presence boot.evidence = false
  once : (runBootDeathReaper format boot faults disk).returned = true →
    ∀ (next : Boot) (nextFaults : Faults),
      ∀ presence ∈ (runBootDeathReaper format boot faults disk).disk.presences.anchors,
        (∃ attribution ∈ (runBootDeathReaper format boot faults disk).disk.attributionLog,
          Attributes attribution presence) →
        ∀ attribution ∈ (runBootDeathReaper format next nextFaults
            (runBootDeathReaper format boot faults disk).disk).appended,
          ¬ Attributes attribution presence

variable (format boot faults disk deaths) in
/-- When a run that could read the lane of deaths accounts for every anchor. -/
structure Sound : Prop where
  /-- What is removed has its own record, or an attribution that is not overwritten, or
  it had no record of its pid and id and the append goes through. -/
  removals : ∀ presence, Removed boot faults disk presence →
    (∃ death ∈ disk.deathLog, Records death presence) ∨
      (∃ attribution ∈ disk.shedAttributions, Names attribution presence) ∨
      (¬ Overwrites format boot faults disk deaths ∧
        ∃ attribution ∈ disk.attributions.getD [], Names attribution presence) ∨
      (explainsItself deaths presence = false ∧ Appends format boot faults disk)
  /-- No pid of an anchor from another boot is in use. -/
  live : ∀ presence ∈ seenAnchors faults disk, isLive boot presence = true →
    bootChanged presence boot.evidence = false
  /-- Where the run gets to its end: an anchor that stays and is attributed has a record
  of its pid and id that the compaction keeps. -/
  leftovers : faults.crash = .never → ∀ compacted ∈ compactAtBoot format boot faults disk,
    ∀ presence ∈ disk.presences.anchors, ¬ Removed boot faults disk presence →
      ((∃ attribution ∈ disk.shedAttributions, Attributes attribution presence) ∨
        (¬ Overwrites format boot faults disk deaths ∧
          ∃ attribution ∈ disk.attributions.getD [], Attributes attribution presence) ∨
        (Appends format boot faults disk ∧ Unexplained boot faults disk deaths presence)) →
      explainsItself (compacted.deaths.records.getD []) presence = true

lemma names_attributeDeath (evidence : HostDeathEvidence) (ts : Text) :
    Names (attributeDeath presence evidence deaths ts) presence :=
  ⟨rfl, rfl, rfl⟩

lemma attributes_attributeDeath (evidence : HostDeathEvidence) (ts : Text) :
    Attributes (attributeDeath presence evidence deaths ts) presence :=
  ⟨names_attributeDeath evidence ts, rfl⟩

lemma presenceFileName_of_names {other : ProcessPresence} {evidence : HostDeathEvidence}
    {ts : Text} (h : Names (attributeDeath other evidence deaths ts) presence) :
    presenceFileName other = presenceFileName presence := by
  obtain ⟨hkind, hid, hpid⟩ := h
  simp only [attributeDeath] at hkind hid hpid
  unfold presenceFileName
  rw [hkind, hid, hpid]

lemma eq_of_names {other : ProcessPresence} (hoth : Unexplained boot faults disk deaths other)
    (hanchor : presence ∈ disk.presences.anchors) {evidence : HostDeathEvidence} {ts : Text}
    (h : Names (attributeDeath other evidence deaths ts) presence) : other = presence :=
  PresenceDir.eq_of_name (mem_anchors_of_seen hoth.1) hanchor (presenceFileName_of_names h)

lemma unexplained_of_removed (h : Removed boot faults disk presence)
    (hown : explainsItself deaths presence = false) :
    Unexplained boot faults disk deaths presence :=
  ⟨h.1, by simp [isUnexplained, h.2.1, hown]⟩

lemma accounted_iff (hdeaths : readProcessDeathLane faults disk = some deaths)
    (hrem : Removed boot faults disk presence) :
    Accounted (runBootDeathReaper format boot faults disk).disk presence ↔
      (∃ death ∈ disk.deathLog, Records death presence) ∨
      (∃ attribution ∈ disk.shedAttributions, Names attribution presence) ∨
      (¬ Overwrites format boot faults disk deaths ∧
        ∃ attribution ∈ disk.attributions.getD [], Names attribution presence) ∨
      (explainsItself deaths presence = false ∧ Appends format boot faults disk) := by
  have hrun := @reaped_run format boot faults disk deaths hdeaths
  have hanchor := mem_anchors_of_seen hrem.1
  unfold Accounted
  simp only [hrun.attributionLog, hrun.deathLog]
  constructor
  · rintro (⟨attribution, hshed | ⟨hkept, hlane⟩ | ⟨happ, other, hoth, heq⟩, hnam⟩ | hrecord)
    · exact .inr (.inl ⟨attribution, hshed, hnam⟩)
    · exact .inr (.inr (.inl ⟨hkept, attribution, hlane, hnam⟩))
    · rw [← heq] at hnam
      rw [eq_of_names hoth hanchor hnam] at hoth
      have hunexpl := hoth.2
      simp only [isUnexplained, Bool.and_eq_true, Bool.not_eq_eq_eq_not, Bool.not_true]
        at hunexpl
      exact .inr (.inr (.inr ⟨hunexpl.2, happ⟩))
    · exact .inl hrecord
  · rintro (hrecord | ⟨attribution, hshed, hnam⟩ | ⟨hkept, attribution, hlane, hnam⟩ | ⟨hown, happ⟩)
    · exact .inr hrecord
    · exact .inl ⟨attribution, .inl hshed, hnam⟩
    · exact .inl ⟨attribution, .inr (.inl ⟨hkept, hlane⟩), hnam⟩
    · exact .inl ⟨_, .inr (.inr ⟨happ, presence, unexplained_of_removed hrem hown, rfl⟩),
        names_attributeDeath _ _⟩

lemma attributed_iff (hdeaths : readProcessDeathLane faults disk = some deaths)
    (hanchor : presence ∈ disk.presences.anchors) :
    (∃ attribution ∈ (runBootDeathReaper format boot faults disk).disk.attributionLog,
        Attributes attribution presence) ↔
      (∃ attribution ∈ disk.shedAttributions, Attributes attribution presence) ∨
        (¬ Overwrites format boot faults disk deaths ∧
          ∃ attribution ∈ disk.attributions.getD [], Attributes attribution presence) ∨
        (Appends format boot faults disk ∧ Unexplained boot faults disk deaths presence) := by
  have hrun := @reaped_run format boot faults disk deaths hdeaths
  simp only [hrun.attributionLog]
  constructor
  · rintro ⟨attribution, hshed | ⟨hkept, hlane⟩ | ⟨happ, other, hoth, heq⟩, hmade⟩
    · exact .inl ⟨attribution, hshed, hmade⟩
    · exact .inr (.inl ⟨hkept, attribution, hlane, hmade⟩)
    · rw [← heq] at hmade
      rw [eq_of_names hoth hanchor hmade.1] at hoth
      exact .inr (.inr ⟨happ, hoth⟩)
  · rintro (⟨attribution, hshed, hmade⟩ | ⟨hkept, attribution, hlane, hmade⟩ | ⟨happ, hunexpl⟩)
    · exact ⟨attribution, .inl hshed, hmade⟩
    · exact ⟨attribution, .inr (.inl ⟨hkept, hlane⟩), hmade⟩
    · exact ⟨_, .inr (.inr ⟨happ, presence, hunexpl, rfl⟩), attributes_attributeDeath _ _⟩

def quietBoot : Boot where
  evidence := { bootId := none, livePids := [], journal := [], probes := [] }
  reapedAt := []
  clockMs := 0

def unreadLane : Faults := { Faults.none with readAttributions := true }

lemma isPresenceFile_of_anchor {dir : PresenceDir} (h : presence ∈ dir.anchors) :
    presence ∈ readProcessPresences unreadLane dir := by
  unfold readProcessPresences
  simp only [unreadLane, Faults.none, Bool.false_eq_true, if_false, Bool.not_false, Bool.and_true]
  refine mem_filterMap.mpr ⟨_, PresenceDir.mem_anchors.mp h, ?_⟩
  have hsuff : isPresenceFile ⟨presenceFileName presence, some presence⟩ = true := by
    exact isSuffixOf_iff_suffix.mpr (suffix_append _ _)
  rw [if_pos hsuff]

/-- The next run may attribute every anchor that is left, and has no record of its pid
and id. -/
lemma mem_appended_next (hrec : disk.deaths.records = some deaths)
    (hanchor : presence ∈ disk.presences.anchors)
    (hown : explainsItself deaths presence = false) :
    attributeDeath presence quietBoot.evidence deaths quietBoot.reapedAt ∈
      (runBootDeathReaper format quietBoot unreadLane disk).appended := by
  have hread : readProcessDeathLane unreadLane disk = some deaths := hrec
  rw [(reaped_run hread).appended]
  have hcompa : (compactAtBoot format quietBoot unreadLane disk).isSome :=
    compacts_of_noFault (by rw [hrec]; rfl) rfl rfl
  refine ⟨⟨.inl rfl, hcompa, rfl, rfl, rfl⟩, presence, ⟨?_, ?_⟩, rfl⟩
  · exact isPresenceFile_of_anchor hanchor
  · simp [isUnexplained, isLive, quietBoot, hown]

lemma not_attributes_next (hrec : disk.deaths.records = some deaths)
    (hanchor : presence ∈ disk.presences.anchors)
    (hown : explainsItself deaths presence = true)
    (h : attribution ∈ (runBootDeathReaper format boot faults disk).appended) :
    ¬ Attributes attribution presence := by
  intro hmade
  cases hread : readProcessDeathLane faults disk with
  | none =>
    unfold runBootDeathReaper at h
    simp only [hread] at h
    cases h
  | some found =>
    have hfound : found = deaths := by
      unfold readProcessDeathLane at hread
      split at hread
      · cases hread
      · rw [hrec] at hread
        exact (some.inj hread).symm
    subst hfound
    rw [(reaped_run hread).appended] at h
    obtain ⟨-, other, hoth, heq⟩ := h
    rw [← heq] at hmade
    rw [eq_of_names hoth hanchor hmade.1] at hoth
    have hunexpl := hoth.2
    simp [isUnexplained, hown] at hunexpl

lemma records_of_read (h : readProcessDeathLane faults disk = some deaths) :
    disk.deaths.records = some deaths := by
  unfold readProcessDeathLane at h
  split at h
  · cases h
  · exact h

lemma accounts_iff_sound (hdeaths : readProcessDeathLane faults disk = some deaths) :
    Accounts format boot faults disk ↔ Sound format boot faults disk deaths := by
  have hrun := @reaped_run format boot faults disk deaths hdeaths
  have hrec := records_of_read hdeaths
  constructor
  · intro h
    refine ⟨?_, ?_, ?_⟩
    · intro presence hrem
      apply (accounted_iff hdeaths hrem).mp
      apply (h.kept presence (mem_anchors_of_seen hrem.1)).resolve_left
      intro hstays
      exact ((hrun.anchors presence).mp hstays).2 hrem
    · intro presence hseen hlive
      exact h.boots presence ((hrun.alive presence).mpr ⟨hseen, hlive⟩)
    · intro hcrash compacted hcomp presence hanchor hstays hattr
      have hret := hrun.ends.mpr ⟨hcrash, isSome_of_mem hcomp⟩
      have hdec := (compacted_of_some hcomp).decodes (by rw [hrec]; rfl)
      obtain ⟨kept, hkept⟩ := isSome_iff_exists.mp hdec
      rw [hkept, getD_some]
      by_contra hown
      have hleft := (hrun.anchors presence).mpr ⟨hanchor, hstays⟩
      have hlane : (runBootDeathReaper format boot faults disk).disk.deaths.records =
          some kept := by
        rw [hrun.deaths hret compacted hcomp, hkept]
      apply h.once hret quietBoot unreadLane presence hleft
        ((attributed_iff hdeaths hanchor).mpr hattr) _
        (mem_appended_next hlane hleft (by simpa using hown))
      exact attributes_attributeDeath _ _
  · intro h
    refine ⟨?_, ?_, ?_⟩
    · intro presence hanchor
      rw [hrun.anchors]
      by_cases hrem : Removed boot faults disk presence
      · right
        exact (accounted_iff hdeaths hrem).mpr (h.removals presence hrem)
      · left
        exact ⟨hanchor, hrem⟩
    · intro presence halive
      obtain ⟨hseen, hlive⟩ := (hrun.alive presence).mp halive
      exact h.live presence hseen hlive
    · intro hret next nextFaults presence hleft hattr attribution happen
      obtain ⟨hanchor, hstays⟩ := (hrun.anchors presence).mp hleft
      obtain ⟨hcrash, hcompa⟩ := hrun.ends.mp hret
      obtain ⟨compacted, hcomp⟩ := isSome_iff_exists.mp hcompa
      have hdec := (compacted_of_some hcomp).decodes (by rw [hrec]; rfl)
      obtain ⟨kept, hkept⟩ := isSome_iff_exists.mp hdec
      have hlane : (runBootDeathReaper format boot faults disk).disk.deaths.records =
          some kept := by
        rw [hrun.deaths hret compacted hcomp, hkept]
      have hown := h.leftovers hcrash compacted hcomp presence hanchor hstays
        ((attributed_iff hdeaths hanchor).mp hattr)
      rw [hkept, getD_some] at hown
      exact not_attributes_next hlane hleft hown happen

end

/-- A run accounts for every anchor exactly when it cannot read the lane of deaths, or
what it removes is recorded, attributed on a lane that is not overwritten, or attributed
by an append that goes through; no pid of an anchor from another boot is in use; and
what it leaves attributed has a record of its pid and id. -/
theorem anchors_accounted (format : LaneFormat) (boot : Boot) (faults : Faults) (disk : Disk) :
    Accounts format boot faults disk ↔ ∀ deaths, readProcessDeathLane faults disk = some deaths →
        Sound format boot faults disk deaths := by
  cases hdeaths : readProcessDeathLane faults disk with
  | none =>
    have hrun : runBootDeathReaper format boot faults disk =
        { disk := disk, returned := false, attributions := [], alive := [], selfRecorded := []
          skipped := skippedPresences faults disk.presences, appended := [] } := by
      unfold runBootDeathReaper
      simp only [hdeaths]
    constructor
    · intro h deaths hsome
      cases hsome
    · intro h
      constructor
      · intro presence hanchor
        rw [hrun]
        exact .inl hanchor
      · intro presence halive
        rw [hrun] at halive
        cases halive
      · intro hret
        rw [hrun] at hret
        cases hret
  | some deaths =>
    rw [accounts_iff_sound hdeaths]
    constructor
    · intro h other hoth
      rw [← some.inj hoth]
      exact h
    · intro h
      exact h deaths rfl

def workerAnchor : ProcessPresence where
  version := 1
  ts := "2026-08-01T10:00:00.000Z".toList
  kind := .worker
  id := "w1".toList
  pid := 42
  ppid := 1
  bootId := some "b1".toList
  cgroup := none
  lastPhase := "startup".toList

def oneAnchor : Disk where
  presences :=
    { files := [⟨presenceFileName workerAnchor, some workerAnchor⟩]
      sorted := List.pairwise_singleton _ _
      named := by
        intro file hfile presence hanchor
        rw [List.mem_singleton.mp hfile] at hanchor ⊢
        rw [Option.some.inj hanchor] }
  deaths := ⟨0, some []⟩
  shedDeaths := []
  attributions := some []
  shedAttributions := []

def endsBeforeAppend : Faults := { Faults.none with crash := .inLoop 1 }

/-- The anchor is cleared before its death is recorded, and the process ends in between. -/
theorem crash_loses_anchor : ¬ ∀ (format : LaneFormat) (boot : Boot) (faults : Faults)
    (disk : Disk), Accounts format boot faults disk := by
  intro h
  have hsound := (anchors_accounted ⟨fun _ => none, fun _ => 0, fun _ => 0⟩ quietBoot
    endsBeforeAppend oneAnchor).mp (h _ _ _ _) [] rfl
  have hrem : Removed quietBoot endsBeforeAppend oneAnchor workerAnchor :=
    ⟨by decide +kernel, rfl, rfl⟩
  rcases hsound.removals workerAnchor hrem with
    ⟨death, hdeath, -⟩ | ⟨attribution, hshed, -⟩ | ⟨-, attribution, hlane, -⟩ | ⟨-, happ⟩
  · cases hdeath
  · cases hshed
  · cases hlane
  · rcases happ.reached with h | h
    · cases h
    · cases h

end Redskilled.Deaths
