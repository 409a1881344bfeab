import Redskilled.Telemetry.SpoolWorld

/-!
# What appends and drains ask

An append writes only its own row, to a file that it opened. A drain hands over what it has
read, records a correction only on what it handed over, and removes a file only behind a read
of it whose entries were all accepted or tried to be recorded.
-/
namespace Redskilled.Telemetry
open Foundation Foundation.Text Dialogue List

abbrev Past := List (Exchange SpoolOp Answer)

variable (T : Toonl) (digest : Text → Text)

def rowOf (event : RspTelemetryEvent) (spoolId : Text) : List Text :=
  formatSpoolRow T ⟨spoolId, some (compactTelemetryEventForSpool event.fields), none⟩

section
variable (past : Past)

def Named (name : Text) : Prop :=
  (∃ names, ⟨.readdir, some names⟩ ∈ past ∧ name ∈ names) ∨
    ∃ file, ⟨.rename file name, some ()⟩ ∈ past

def FromRead (entry : RspTelemetrySpoolEntry) : Prop :=
  (∃ name lines, ⟨.readFile name, some lines⟩ ∈ past ∧ entry ∈ parseSpoolEntries T digest lines) ∨
    ∃ lines, ⟨.readCorrections, some lines⟩ ∈ past ∧ entry ∈ pendingCorrectionEntries T lines

def Corrects (row : RspTelemetryCorrectionRow) : Prop :=
  ∃ entry answer, ⟨.drainLine entry, answer⟩ ∈ past ∧ row.targetSpoolId = entry.spoolId ∧
    ((row.action = .retry ∧ row.eventJson = eventJson entry) ∨
      (row.action = .resolved ∧ answer = some true))

def Tried (row : RspTelemetryCorrectionRow) : Prop :=
  (∃ answer, ⟨.appendCorrection row (formatCorrectionRow T row), answer⟩ ∈ past) ∨
    ∃ answer, answer ≠ some true ∧ ⟨.correctionLane row, answer⟩ ∈ past

def Treated (entry : RspTelemetrySpoolEntry) : Prop :=
  ∃ answer, ⟨.drainLine entry, answer⟩ ∈ past ∧ (answer = some true ∨
      ∃ row, row.targetSpoolId = entry.spoolId ∧ row.action = .retry ∧ Tried T past row)

/-- The lines were written, and behind that the file was found to be the active one, or
something threw. -/
def WroteLines (lines : List Text) : Prop :=
  ∃ fd, ⟨.write fd lines, some ()⟩ ∈ past ∧ ((∃ opened, ⟨.fstat fd, some opened⟩ ∈ past ∧
        past.getLast? = some ⟨.statActive, some (some opened)⟩) ∨
      ∃ q, past.getLast? = some ⟨q, none⟩)

end

def asks (call : Call) (past : Past) (q : SpoolOp) : Prop :=
  match call, q with
  | .append _ _, .resolveRoot => True
  | .append _ _, .mkdir => True
  | .append _ _, .laneCeiling => True
  | .append _ _, .openActive => True
  | .append _ _, .fstat _ => True
  | .append _ _, .statActive => True
  | .append _ _, .randomUUID => ∀ spoolId, ⟨.randomUUID, some spoolId⟩ ∉ past
  | .append event _, .write fd lines => ⟨.openActive, some fd⟩ ∈ past ∧
      ∃ spoolId, ⟨.randomUUID, some spoolId⟩ ∈ past ∧ lines = rowOf T event spoolId
  | .append _ _, _ => False
  | .drain _, .openActive => False
  | .drain _, .write _ _ => False
  | .drain _, .readFile name => Named past name
  | .drain _, .drainLine entry => FromRead T digest past entry
  | .drain _, .correctionLane row => Corrects past row
  | .drain _, .appendCorrection row lines => lines = formatCorrectionRow T row ∧ Corrects past row
  | .drain pid, .rename file name => ∃ time, name = drainName file pid time
  | .drain _, .rm name => ∃ answer, ⟨.readFile name, answer⟩ ∈ past ∧
      ∀ entry ∈ parseSpoolEntries T digest (answer.getD []), Treated T past entry
  | .drain _, _ => True

def ends (call : Call) (past : Past) (result : Option Returned) : Prop :=
  match call with
  | .append event _ => ∀ spoolId, wroteRow result = some spoolId →
      ⟨.randomUUID, some spoolId⟩ ∈ past ∧ WroteLines past (rowOf T event spoolId)
  | .drain _ => True

variable {T digest} {past later : Past}

lemma Named.mono {name : Text} (h : Named past name) (hsub : past ⊆ later) : Named later name := by
  rcases h with ⟨names, hin, hname⟩ | ⟨file, hin⟩
  · exact .inl ⟨names, hsub hin, hname⟩
  · exact .inr ⟨file, hsub hin⟩

lemma FromRead.mono {entry : RspTelemetrySpoolEntry} (h : FromRead T digest past entry)
    (hsub : past ⊆ later) : FromRead T digest later entry := by
  rcases h with ⟨name, lines, hin, hentry⟩ | ⟨lines, hin, hentry⟩
  · exact .inl ⟨name, lines, hsub hin, hentry⟩
  · exact .inr ⟨lines, hsub hin, hentry⟩

lemma Corrects.mono {row : RspTelemetryCorrectionRow} (h : Corrects past row)
    (hsub : past ⊆ later) : Corrects later row := by
  obtain ⟨entry, answer, hin, hrest⟩ := h
  exact ⟨entry, answer, hsub hin, hrest⟩

lemma Tried.mono {row : RspTelemetryCorrectionRow} (h : Tried T past row) (hsub : past ⊆ later) :
    Tried T later row := by
  rcases h with ⟨answer, hin⟩ | ⟨answer, hne, hin⟩
  · exact .inl ⟨answer, hsub hin⟩
  · exact .inr ⟨answer, hne, hsub hin⟩

lemma Treated.mono {entry : RspTelemetrySpoolEntry} (h : Treated T past entry)
    (hsub : past ⊆ later) : Treated T later entry := by
  obtain ⟨answer, hin, hcase⟩ := h
  refine ⟨answer, hsub hin, ?_⟩
  rcases hcase with hyes | ⟨row, htarg, hact, htried⟩
  · exact .inl hyes
  · exact .inr ⟨row, htarg, hact, htried.mono hsub⟩

section
variable {pid : ℕ}

lemma appendCorrection_conducts {row : RspTelemetryCorrectionRow} (h : Corrects past row) :
    (appendCorrection T row).Conducts (asks T digest (.drain pid))
      (Onward past fun _ later => Tried T later row) past := by
  have hlane : asks T digest (.drain pid) past (.correctionLane row) := h
  apply (onward_attempt hlane).onward
  intro answer later hsub hin
  have hmiss : answer ≠ some true → Tried T later row :=
    fun hne => .inr ⟨answer, hne, hin⟩
  cases answer with
  | none => exact onward_pure (hmiss (by rintro ⟨⟩))
  | some yes =>
    cases yes with
    | false => exact onward_pure (hmiss (by rintro ⟨⟩))
    | true =>
      have happ : asks T digest (.drain pid) later
          (.appendCorrection row (formatCorrectionRow T row)) := ⟨rfl, h.mono hsub⟩
      apply (onward_attempt happ).onward
      intro answer last hlast hin
      exact onward_pure (.inl ⟨answer, hin⟩)

lemma correct_conducts {entry : RspTelemetrySpoolEntry} {answer : Option Bool}
    {action : CorrectionAction} {json : Option Text} (hin : ⟨.drainLine entry, answer⟩ ∈ past)
    (hcase : (action = .retry ∧ json = eventJson entry) ∨
      (action = .resolved ∧ answer = some true)) :
    (correct T entry action json).Conducts (asks T digest (.drain pid))
      (Onward past fun _ later => action = .retry → Treated T later entry) past := by
  have huuid : asks T digest (.drain pid) past .randomUUID := trivial
  apply (onward_need huuid).onward
  intro correctionId later hsub _
  have htime : asks T digest (.drain pid) later .isoNow := trivial
  apply (onward_need htime).onward
  intro createdAt last hlast _
  have hhand : ⟨.drainLine entry, answer⟩ ∈ last := hlast (hsub hin)
  have hrow : Corrects last ⟨correctionId, entry.spoolId, action, createdAt, json⟩ :=
    ⟨entry, answer, hhand, rfl, hcase⟩
  apply (appendCorrection_conducts hrow).mono
  rintro final value ⟨hfin, htried⟩
  refine ⟨hfin, ?_⟩
  intro a ha hact
  exact ⟨answer, hfin hhand, .inr ⟨_, rfl, hact, htried a ha⟩⟩

lemma drainEntry_conducts {entry : RspTelemetrySpoolEntry} {fromCorrection : Bool}
    (hread : FromRead T digest past entry) :
    (drainEntry T fromCorrection entry).Conducts (asks T digest (.drain pid))
      (Onward past fun _ later => Treated T later entry) past := by
  have hdrain : asks T digest (.drain pid) past (.drainLine entry) := hread
  have hretry : ∀ {later : Past} {answer : Option Bool}, ⟨.drainLine entry, answer⟩ ∈ later →
      (correct T entry .retry (eventJson entry)).Conducts (asks T digest (.drain pid))
        (Onward later fun _ last => Treated T last entry) later := by
    intro later answer hin
    apply (correct_conducts hin (.inl ⟨rfl, rfl⟩)).mono
    rintro last value ⟨hlast, htreat⟩
    exact ⟨hlast, fun a ha => htreat a ha rfl⟩
  apply (onward_attempt hdrain).onward
  intro answer later hsub hin
  cases answer with
  | none => exact hretry hin
  | some yes =>
    cases yes with
    | false => exact hretry hin
    | true =>
      have htreat : Treated T later entry := ⟨some true, hin, .inl rfl⟩
      change Conducts _ _ (if fromCorrection = true then _ else _) later
      split_ifs
      · apply (correct_conducts hin (.inr ⟨rfl, rfl⟩)).mono
        rintro last value ⟨hlast, -⟩
        exact ⟨hlast, fun a ha => htreat.mono hlast⟩
      · exact onward_pure htreat

lemma drainEntries_conducts {fromCorrection : Bool} (entries : List RspTelemetrySpoolEntry)
    (hread : ∀ entry ∈ entries, FromRead T digest past entry) :
    (drainEntries T fromCorrection entries).Conducts (asks T digest (.drain pid))
      (Onward past fun _ later => ∀ entry ∈ entries, Treated T later entry) past := by
  induction entries generalizing past with
  | nil =>
    apply onward_pure
    rintro entry ⟨⟩
  | cons entry entries ih =>
    apply (drainEntry_conducts (hread entry mem_cons_self)).onward
    intro _ later hsub htreat
    apply (ih fun e he => (hread e (mem_cons_of_mem _ he)).mono hsub).mono
    rintro last value ⟨hlast, hrest⟩
    refine ⟨hlast, ?_⟩
    intro a ha e he
    rcases mem_cons.mp he with rfl | he
    · exact htreat.mono hlast
    · exact hrest a ha e he

lemma readSettledFile_conducts {name : Text} (hnam : Named past name) (turns : ℕ) (text : List Text)
    (hlast : turns = 0 → ∃ answer, ⟨.readFile name, answer⟩ ∈ past ∧ text = answer.getD []) :
    (readSettledFile name turns text).Conducts (asks T digest (.drain pid))
      (Onward past fun lines later => ∃ answer, ⟨.readFile name, answer⟩ ∈ later ∧
        lines = answer.getD []) past := by
  induction turns generalizing past text with
  | zero => exact onward_pure (hlast rfl)
  | succ turns ih =>
    have hread : asks T digest (.drain pid) past (.readFile name) := hnam
    apply (onward_attempt hread).onward
    intro answer later hsub hin
    have hfound : ∃ found, ⟨.readFile name, found⟩ ∈ later ∧ answer.getD [] = found.getD [] :=
      ⟨answer, hin, rfl⟩
    split_ifs
    · exact onward_pure hfound
    · exact ih (hnam.mono hsub) _ fun _ => hfound

lemma drainFile_conducts {name : Text} (hnam : Named past name) :
    (drainFile T digest name).Conducts (asks T digest (.drain pid))
      (Onward past fun _ _ => True) past := by
  apply (readSettledFile_conducts hnam 5 [] (by rintro ⟨⟩)).onward
  rintro text later hsub ⟨answer, hin, rfl⟩
  have hread : ∀ entry ∈ parseSpoolEntries T digest (answer.getD []),
      FromRead T digest later entry := by
    intro entry hentry
    cases answer with
    | none => cases hentry
    | some lines => exact .inl ⟨name, lines, hin, hentry⟩
  apply (drainEntries_conducts _ hread).onward
  intro _ last hlast htreat
  have hrm : asks T digest (.drain pid) last (.rm name) := ⟨answer, hlast hin, htreat⟩
  apply (onward_need hrm).mono
  rintro final value ⟨hfin, -⟩
  exact ⟨hfin, fun _ _ => trivial⟩

lemma drainFiles_conducts (names : List Text) (hnam : ∀ name ∈ names, Named past name) :
    (drainFiles T digest names).Conducts (asks T digest (.drain pid))
      (Onward past fun _ _ => True) past := by
  induction names generalizing past with
  | nil => exact onward_pure trivial
  | cons name names ih =>
    apply (drainFile_conducts (hnam name mem_cons_self)).onward
    intro _ later hsub _
    exact ih fun other hoth => (hnam other (mem_cons_of_mem _ hoth)).mono hsub

lemma filterOrphans_conducts (names : List Text) :
    (filterOrphans pid names).Conducts (asks T digest (.drain pid))
      (Onward past fun orphans _ => ∀ name ∈ orphans, name ∈ names) past := by
  induction names generalizing past with
  | nil =>
    apply onward_pure
    rintro name ⟨⟩
  | cons name names ih =>
    have horphan : (isOrphan pid name).Conducts (asks T digest (.drain pid))
        (Onward past fun _ _ => True) past := by
      unfold isOrphan
      split
      · split_ifs
        · have halive : ∀ owner : ℤ, asks T digest (.drain pid) past (.isAlive owner) :=
            fun _ => trivial
          apply (onward_need (halive _)).onward
          exact fun _ _ _ _ => onward_pure trivial
        · exact onward_pure trivial
      · exact onward_pure trivial
    apply horphan.onward
    intro orphan later _ _
    apply ih.onward
    intro rest last _ hrest
    apply onward_pure
    intro other hoth
    split_ifs at hoth
    · rcases mem_cons.mp hoth with rfl | hoth
      · exact mem_cons_self
      · exact mem_cons_of_mem _ (hrest other hoth)
    · exact mem_cons_of_mem _ (hrest other hoth)

lemma orphanedDrainFiles_conducts : (orphanedDrainFiles pid).Conducts (asks T digest (.drain pid))
      (Onward past fun orphans later => ∀ name ∈ orphans, Named later name) past := by
  have hreadd : asks T digest (.drain pid) past .readdir := trivial
  apply (onward_attempt hreadd).onward
  intro names later _ hin
  apply (filterOrphans_conducts _).onward
  intro orphans last hlast horph
  apply onward_pure
  intro name hname
  have hlist := (mem_filter.mp (horph name ((mem_insertionSort _).mp hname))).1
  cases names with
  | none => cases hlist
  | some names => exact .inl ⟨names, hlast hin, hlist⟩

lemma renameSpool_conducts (file : SpoolFile) :
    (renameSpool pid file).Conducts (asks T digest (.drain pid))
      (Onward past fun names later => ∀ name ∈ names, Named later name) past := by
  have hnow : asks T digest (.drain pid) past .now := trivial
  apply (onward_need hnow).onward
  intro time later _ _
  have hren : asks T digest (.drain pid) later (.rename file (drainName file pid time)) :=
    ⟨time, rfl⟩
  apply (onward_attempt hren).onward
  intro renamed last _ hin
  cases renamed with
  | none =>
    apply onward_pure
    rintro name ⟨⟩
  | some done =>
    have hnam : ∀ {final : Past}, last ⊆ final →
        ∀ name ∈ [drainName file pid time], Named final name := by
      intro final hfin name hname
      rw [mem_singleton.mp hname]
      exact .inr ⟨file, hfin hin⟩
    change Conducts _ _ (if file = .active then _ else _) last
    split_ifs
    · have hcreate : asks T digest (.drain pid) last .createExclusive := trivial
      apply (onward_attempt hcreate).onward
      exact fun _ final hfin _ => onward_pure (hnam hfin)
    · exact onward_pure (hnam (List.Subset.refl _))

lemma renameActiveSpools_conducts : (renameActiveSpools pid).Conducts (asks T digest (.drain pid))
      (Onward past fun names later => ∀ name ∈ names, Named later name) past := by
  apply (renameSpool_conducts .active).onward
  intro active later _ hactive
  apply (renameSpool_conducts .legacy).onward
  intro legacy last hlast hleg
  apply onward_pure
  intro name hname
  rcases mem_append.mp hname with hname | hname
  · exact (hactive name hname).mono hlast
  · exact hleg name hname

lemma drainTelemetrySpool_conducts :
    (drainTelemetrySpool T digest pid).Conducts (asks T digest (.drain pid))
      (Onward past fun _ _ => True) past := by
  have hroot : asks T digest (.drain pid) past .resolveRoot := trivial
  apply (onward_need hroot).onward
  intro found past _ _
  split_ifs
  · exact onward_pure trivial
  · have hmkd : asks T digest (.drain pid) past .mkdir := trivial
    apply (onward_attempt hmkd).onward
    intro _ past _ _
    have hcreate : asks T digest (.drain pid) past .createActive := trivial
    apply (onward_attempt hcreate).onward
    intro _ past _ _
    apply orphanedDrainFiles_conducts.onward
    intro orphans past _ horph
    apply (drainFiles_conducts orphans horph).onward
    intro _ past _ _
    have hcorr : asks T digest (.drain pid) past .readCorrections := trivial
    apply (onward_attempt hcorr).onward
    intro corrections past _ hin
    have hread : ∀ entry ∈ pendingCorrectionEntries T (corrections.getD []),
        FromRead T digest past entry := by
      intro entry hentry
      cases corrections with
      | none => cases hentry
      | some lines => exact .inr ⟨lines, hin, hentry⟩
    apply (drainEntries_conducts _ hread).onward
    intro _ past _ _
    apply renameActiveSpools_conducts.onward
    intro renamed past _ hrenam
    exact drainFiles_conducts renamed hrenam

end

section
variable {event : RspTelemetryEvent} {turns : ℕ}

def AppendEnds (T : Toonl) (event : RspTelemetryEvent) (spoolId : Text) (past : Past)
    (value : Option Appended) : Prop :=
  value = some .proved ∨ value = some (.thrown true) →
    ⟨.randomUUID, some spoolId⟩ ∈ past ∧ WroteLines past (rowOf T event spoolId)

lemma appendSpoolLineSync_conducts {spoolId : Text} (hid : ⟨.randomUUID, some spoolId⟩ ∈ past)
    (turns : ℕ) (written : Bool)
    (hwritt : written = true → ∃ fd, ⟨.write fd (rowOf T event spoolId), some ()⟩ ∈ past)
    {call : Call} (hcall : ∃ n, call = .append event n) :
    (appendSpoolLineSync (rowOf T event spoolId) turns written).Conducts (asks T digest call)
      (AppendEnds T event spoolId) past := by
  obtain ⟨n, rfl⟩ := hcall
  have hfailed : ∀ {past : Past} {q : SpoolOp}, ⟨.randomUUID, some spoolId⟩ ∈ past →
      (∃ fd, ⟨.write fd (rowOf T event spoolId), some ()⟩ ∈ past) →
      ⟨.randomUUID, some spoolId⟩ ∈ past ++ [⟨q, none⟩] ∧
        WroteLines (past ++ [⟨q, none⟩]) (rowOf T event spoolId) := by
    rintro past q hid ⟨fd, hin⟩
    exact ⟨mem_append_left _ hid, fd, mem_append_left _ hin, .inr ⟨q, getLast?_concat⟩⟩
  induction turns generalizing past written with
  | zero => rintro (hend | hend) <;> cases hend
  | succ turns ih =>
    refine ⟨trivial, ?_⟩
    intro opened
    have hthr : ∀ {past : Past} {q : SpoolOp}, ⟨.randomUUID, some spoolId⟩ ∈ past →
        (written = true → ∃ fd, ⟨.write fd (rowOf T event spoolId), some ()⟩ ∈ past) →
        AppendEnds T event spoolId (past ++ [⟨q, none⟩]) (some (.thrown written)) := by
      rintro past q hid hwritt (hend | hend)
      · cases hend
      · cases hend
        exact hfailed hid (hwritt rfl)
    cases opened with
    | none => exact hthr hid hwritt
    | some descriptor =>
      have hopen : ⟨.randomUUID, some spoolId⟩ ∈ past ++ [⟨.openActive, some descriptor⟩] :=
        mem_append_left _ hid
      refine ⟨⟨mem_append_right _ mem_cons_self, spoolId, hopen, rfl⟩, ?_⟩
      intro wrote
      cases wrote with
      | none =>
        apply hthr hopen
        intro hyes
        obtain ⟨fd, hin⟩ := hwritt hyes
        exact ⟨fd, mem_append_left _ hin⟩
      | some done =>
        have hid' : ⟨.randomUUID, some spoolId⟩ ∈ past ++ [⟨.openActive, some descriptor⟩] ++
            [⟨.write descriptor (rowOf T event spoolId), some done⟩] :=
          mem_append_left _ hopen
        have hwrote : ⟨.write descriptor (rowOf T event spoolId), some ()⟩ ∈
            past ++ [⟨.openActive, some descriptor⟩] ++
              [⟨.write descriptor (rowOf T event spoolId), some done⟩] :=
          mem_append_right _ mem_cons_self
        refine ⟨trivial, ?_⟩
        intro opened
        cases opened with
        | none => exact fun _ => hfailed hid' ⟨descriptor, hwrote⟩
        | some opened =>
          refine ⟨trivial, ?_⟩
          intro active
          cases active with
          | none =>
            intro _
            apply hfailed (mem_append_left _ hid')
            exact ⟨descriptor, mem_append_left _ hwrote⟩
          | some active =>
            change Conducts _ _ (if active = some opened then _ else _) _
            split_ifs with hactive
            · subst hactive
              intro _
              refine ⟨mem_append_left _ (mem_append_left _ hid'), descriptor,
                mem_append_left _ (mem_append_left _ hwrote), .inl ⟨opened, ?_,
                getLast?_concat⟩⟩
              exact mem_append_left _ (mem_append_right _ mem_cons_self)
            · apply ih (mem_append_left _ (mem_append_left _ hid'))
              exact fun _ => ⟨descriptor, mem_append_left _ (mem_append_left _ hwrote)⟩

lemma appended_conducts {spoolId : Text} (hid : ⟨.randomUUID, some spoolId⟩ ∈ past) :
    ((appendSpoolLineSync (rowOf T event spoolId) turns false >>= fun ended =>
      pure (some (spoolId, ended))) >>= fun ended =>
        pure (Returned.appended ended)).Conducts (asks T digest (.append event turns))
      (ends T (.append event turns)) past := by
  have hends : (appendSpoolLineSync (rowOf T event spoolId) turns false).Conducts
      (asks T digest (.append event turns)) (AppendEnds T event spoolId) past :=
    appendSpoolLineSync_conducts hid turns false (by rintro ⟨⟩) ⟨turns, rfl⟩
  have hpair : (appendSpoolLineSync (rowOf T event spoolId) turns false >>= fun ended =>
      (pure (some (spoolId, ended)) : Program _)).Conducts (asks T digest (.append event turns))
      (fun past value => ends T (.append event turns) past (value.map Returned.appended)) past := by
    apply hends.seq
    · intro ended past hend found hfound
      cases ended with
      | proved =>
        cases hfound
        exact hend (.inl rfl)
      | trying => cases hfound
      | thrown written =>
        cases written with
        | false => cases hfound
        | true =>
          cases hfound
          exact hend (.inr rfl)
    · rintro past _ found ⟨⟩
  apply hpair.seq
  · exact fun ended past hend => hend
  · exact fun past hend => hend

lemma program_conducts (call : Call) :
    (call.program T digest).Conducts (asks T digest call) (ends T call) [] := by
  cases call with
  | drain pid =>
    apply drainTelemetrySpool_conducts.seq
    · exact fun _ _ _ => trivial
    · exact fun _ _ => trivial
  | append event turns =>
    have hnone : ∀ past : Past, ends T (.append event turns) past (some (.appended none)) := by
      rintro past spoolId ⟨⟩
    have hfail : ∀ past : Past, ends T (.append event turns) past none := by
      rintro past spoolId ⟨⟩
    refine ⟨trivial, ?_⟩
    intro found
    cases found with
    | none => exact hfail _
    | some found =>
      cases found with
      | false => exact hnone _
      | true =>
        refine ⟨trivial, ?_⟩
        intro made
        cases made with
        | none => exact hnone _
        | some done =>
          have hnew : asks T digest (.append event turns)
              [⟨.resolveRoot, some true⟩, ⟨.mkdir, some ()⟩] .randomUUID := by
            intro spoolId hin
            simp at hin
          refine ⟨hnew, ?_⟩
          intro spoolId
          cases spoolId with
          | none => exact hfail _
          | some spoolId =>
            refine ⟨trivial, ?_⟩
            intro ceiling
            cases ceiling with
            | none => exact hnone _
            | some done =>
              have hid : ⟨.randomUUID, some spoolId⟩ ∈ ([⟨.resolveRoot, some true⟩,
                  ⟨.mkdir, some ()⟩, ⟨.randomUUID, some spoolId⟩,
                  ⟨.laneCeiling, some done⟩] : Past) := by simp
              exact appended_conducts hid

end

end Redskilled.Telemetry
