import Redskilled.Telemetry.SpoolConduct

/-!
# What a spool has, and what happens to it

What stands in the files is told apart from what a drain file had when it was renamed: a row
stays where it was written until its file is renamed away, and what the file had by then is
read by every drain of it. Spool numbers are given to one event each, and whatever has the
number is that event. What is known from an answer stays true as the world goes on.
-/
namespace Redskilled.Telemetry
open Foundation Foundation.Text Dialogue List Function

variable (T : Toonl) (digest : Text → Text)

namespace World
variable (w : World)

/-- An entry of a given number is the event that the number was given to. -/
def Means (entry : RspTelemetrySpoolEntry) : Prop :=
  entry.spoolId ∈ w.ids ∧
    ∀ given ∈ w.events, given.1 = entry.spoolId → entry = spooled given.1 given.2

def rows : List RspTelemetryCorrectionRow := parseCorrectionRows T w.corrections

def Recorded (spoolId : Text) : Prop := ∃ row ∈ w.rows T, row.targetSpoolId = spoolId

/-- A correction retries the event of its number, or that was accepted. -/
def RowMeans (row : RspTelemetryCorrectionRow) : Prop :=
  row.targetSpoolId ∈ w.ids ∧ ∀ given ∈ w.events, given.1 = row.targetSpoolId →
    (row.action = .retry ∧ pendingEntry row = some (spooled given.1 given.2)) ∨
      (row.action = .resolved ∧ spooled given.1 given.2 ∈ w.accepted)

structure Sound : Prop where
  apart : w.files.Nodup
  below : ∀ fd ∈ w.files, fd < w.nextInode
  empty : ∀ fd, w.nextInode ≤ fd → w.content fd = []
  distinct : (w.drains.map Prod.fst).Nodup
  named : ∀ file ∈ w.drains, isDrainName file.1 = true ∧ file.1 ∈ w.names
  settled : ∀ file ∈ w.drains, w.settled file.2 <+: w.content file.2
  given : ∀ given ∈ w.events, given.1 ∈ w.ids ∧ Spoolable given.2
  once : ∀ given ∈ w.events, ∀ other ∈ w.events, given.1 = other.1 → given = other
  means : ∀ fd, ∀ entry ∈ w.entries T digest fd, w.Means entry
  corrections : ∀ row ∈ w.rows T, w.RowMeans row

/-- The entry is in a spool file, or was in a drain file when that was renamed. -/
def Lies (entry : RspTelemetrySpoolEntry) : Prop :=
  (∃ fd, (w.active = some fd ∨ w.legacy = some fd) ∧ entry ∈ w.entries T digest fd) ∨
    ∃ file ∈ w.drains, entry ∈ parseSpoolEntries T digest (w.settled file.2)

structure Grows (w later : World) : Prop where
  drains : ∀ file ∈ later.drains, file ∈ w.drains ∨ file.1 ∉ w.names
  settled : ∀ file ∈ w.drains, later.settled file.2 = w.settled file.2
  content : ∀ fd, w.content fd <+: later.content fd
  nextInode : w.nextInode ≤ later.nextInode
  ids : w.ids ⊆ later.ids
  names : w.names ⊆ later.names
  accepted : w.accepted ⊆ later.accepted
  events : w.events ⊆ later.events
  fresh : ∀ given ∈ later.events, given ∈ w.events ∨ given.1 ∉ w.ids
  rows : w.rows T ⊆ later.rows T

end World

variable {T digest} {w later : World}

lemma grows_self (w : World) : World.Grows T w w where
  drains := fun _ hfile => .inl hfile
  settled := fun _ _ => rfl
  content := fun _ => List.prefix_refl _
  nextInode := le_rfl
  ids := List.Subset.refl _
  names := List.Subset.refl _
  accepted := List.Subset.refl _
  events := List.Subset.refl _
  fresh := fun _ hgiv => .inl hgiv
  rows := List.Subset.refl _

lemma World.Means.grows {entry : RspTelemetrySpoolEntry} (h : w.Means entry)
    (hgrows : World.Grows T w later) : later.Means entry := by
  refine ⟨hgrows.ids h.1, ?_⟩
  intro given hgiv hid
  rcases hgrows.fresh given hgiv with hold | hnew
  · exact h.2 given hold hid
  · rw [hid] at hnew
    exact absurd h.1 hnew

lemma World.Sound.pending (h : w.Sound T digest) {entry : RspTelemetrySpoolEntry}
    (hentry : entry ∈ pendingCorrectionEntries T w.corrections) : w.Means entry := by
  obtain ⟨row, hlook, hpend⟩ := mem_pending.mp hentry
  obtain ⟨htarg, hrow⟩ := latestCorrections_target _ hlook
  obtain ⟨hid, hmeans⟩ := h.corrections row hrow
  rw [htarg] at hid hmeans
  refine ⟨hid, ?_⟩
  intro given hgiv hsame
  rcases hmeans given hgiv hsame with ⟨-, hretry⟩ | ⟨hres, -⟩
  · rw [hretry] at hpend
    exact (Option.some.inj hpend).symm
  · unfold pendingEntry at hpend
    rw [hres] at hpend
    cases hpend

lemma World.Sound.recorded (h : w.Sound T digest) {given : Text × TelemetryEvent}
    (hgiv : given ∈ w.events) (hrec : w.Recorded T given.1) :
    spooled given.1 given.2 ∈ pendingCorrectionEntries T w.corrections ∨
      spooled given.1 given.2 ∈ w.accepted := by
  obtain ⟨row, hrow, htarg⟩ := hrec
  have hin : given.1 ∈ latestCorrections (w.rows T) :=
    JsMap.mem_ofRecords.mpr (mem_map.mpr ⟨row, hrow, htarg⟩)
  obtain ⟨last, hlast⟩ := JsMap.mem_iff_lookup.mp hin
  obtain ⟨hsame, hlastr⟩ := latestCorrections_target _ hlast
  rcases (h.corrections last hlastr).2 given hgiv hsame.symm with ⟨-, hretry⟩ | ⟨-, hacc⟩
  · exact .inl (mem_pending.mpr ⟨last, hlast, hretry⟩)
  · exact .inr hacc

/-- What the answer to a question says of the world, then and later. -/
def Fact (T : Toonl) (digest : Text → Text) (w : World) (call : Call) :
    Exchange SpoolOp Answer → Prop
  | ⟨.openActive, some fd⟩ => fd < w.nextInode
  | ⟨.fstat fd, some opened⟩ => opened = fd
  | ⟨.write fd lines, some _⟩ => ∀ spoolId event, Spoolable event →
      lines = formatSpoolRow T ⟨spoolId, some event, none⟩ →
        spooled spoolId event ∈ w.entries T digest fd
  | ⟨.randomUUID, some spoolId⟩ => ∀ event turns, call = .append event turns →
      (spoolId, compactTelemetryEventForSpool event.fields) ∈ w.events
  | ⟨.readdir, some names⟩ => ∀ name ∈ names, name ∈ w.names
  | ⟨.rename _ name, some _⟩ => name ∈ w.names
  | ⟨.readFile name, some lines⟩ => (∀ file ∈ w.drains, file.1 = name →
      w.settled file.2 <+: lines) ∧ name ∈ w.names ∧
        ∀ entry ∈ parseSpoolEntries T digest lines, w.Means entry
  | ⟨.readFile name, none⟩ => name ∈ w.names ∧ ∀ file ∈ w.drains, file.1 ≠ name
  | ⟨.readCorrections, some lines⟩ => ∀ entry ∈ pendingCorrectionEntries T lines, w.Means entry
  | ⟨.drainLine entry, answer⟩ => w.Means entry ∧ (answer = some true → entry ∈ w.accepted) ∧
      (entry.event = none → answer = some true)
  | ⟨.correctionLane row, answer⟩ =>
    answer ≠ some true → row.action = .retry → w.Recorded T row.targetSpoolId
  | ⟨.appendCorrection row _, _⟩ => row.action = .retry → w.Recorded T row.targetSpoolId
  | _ => True

lemma recorded_grows {spoolId : Text} (hgrows : World.Grows T w later)
    (h : w.Recorded T spoolId) : later.Recorded T spoolId := by
  obtain ⟨row, hrow, htarg⟩ := h
  exact ⟨row, hgrows.rows hrow, htarg⟩

lemma entries_grows {fd : ℕ} (hgrows : World.Grows T w later) :
    w.entries T digest fd ⊆ later.entries T digest fd :=
  (parseSpoolEntries_initial (hgrows.content fd)).subset

lemma Fact.grows {call : Call} {e : Exchange SpoolOp Answer} (h : Fact T digest w call e)
    (hgrows : World.Grows T w later) : Fact T digest later call e := by
  obtain ⟨q, answer⟩ := e
  cases q with
  | openActive =>
    cases answer with
    | none => trivial
    | some fd => exact Nat.lt_of_lt_of_le h hgrows.nextInode
  | fstat fd =>
    cases answer with
    | none => trivial
    | some opened => exact h
  | write fd lines =>
    cases answer with
    | none => trivial
    | some done => exact fun spoolId event hevent hlin =>
      entries_grows hgrows (h spoolId event hevent hlin)
  | randomUUID =>
    cases answer with
    | none => trivial
    | some spoolId => exact fun event turns hcall => hgrows.events (h event turns hcall)
  | readdir =>
    cases answer with
    | none => trivial
    | some names => exact fun name hname => hgrows.names (h name hname)
  | rename file name =>
    cases answer with
    | none => trivial
    | some done => exact hgrows.names h
  | readFile name =>
    cases answer with
    | none =>
      obtain ⟨hname, hgone⟩ := h
      refine ⟨hgrows.names hname, ?_⟩
      intro file hfile hsame
      rcases hgrows.drains file hfile with hold | hnew
      · exact hgone file hold hsame
      · rw [hsame] at hnew
        exact hnew hname
    | some lines =>
      obtain ⟨hsettl, hname, hmeans⟩ := h
      refine ⟨?_, hgrows.names hname, fun entry hentry => (hmeans entry hentry).grows hgrows⟩
      intro file hfile hsame
      rcases hgrows.drains file hfile with hold | hnew
      · rw [hgrows.settled file hold]
        exact hsettl file hold hsame
      · rw [hsame] at hnew
        exact absurd hname hnew
  | readCorrections =>
    cases answer with
    | none => trivial
    | some lines => exact fun entry hentry => (h entry hentry).grows hgrows
  | drainLine entry =>
    obtain ⟨hmeans, hacc, hraw⟩ := h
    exact ⟨hmeans.grows hgrows, fun hyes => hgrows.accepted (hacc hyes), hraw⟩
  | correctionLane row =>
    exact fun hne hretry => recorded_grows hgrows (h hne hretry)
  | appendCorrection row lines => exact fun hretry => recorded_grows hgrows (h hretry)
  | _ => trivial

/-- The ways in which the world goes on. -/
inductive Effect (w : World) (call : Call) : SpoolOp → World → Prop
  | none (q : SpoolOp) : Effect w call q w
  | create (q : SpoolOp) (h : w.active = .none) : Effect w call q w.create
  | write (fd : ℕ) (lines : List Text) : Effect w call (.write fd lines) (w.write fd lines)
  | accept (entry : RspTelemetrySpoolEntry) : Effect w call (.drainLine entry) (w.accept entry)
  | correct (row : RspTelemetryCorrectionRow) (lines : List Text) :
      Effect w call (.appendCorrection row lines) (w.correct lines)
  | renamed (file : SpoolFile) (name : Text) (fd : ℕ) (h : w.file file = some fd) :
      Effect w call (.rename file name) (w.renamed file name fd)
  | remove (name : Text) : Effect w call (.rm name) (w.remove name)
  | give (spoolId : Text) (event : RspTelemetryEvent) (turns : ℕ)
      (hcall : call = .append event turns) (h : spoolId ∉ w.ids) :
      Effect w call .randomUUID (w.give spoolId (compactTelemetryEventForSpool event.fields))

lemma effect_of_perform {call : Call} {text : Text} {number : ℕ} {yes : Bool} {q : SpoolOp}
    {answer : Option (Answer q)} (h : perform w call text number yes q = some (answer, later)) :
    Effect w call q later := by
  cases q with
  | openActive =>
    simp only [perform] at h
    split at h
    · cases h
      exact .none _
    · next hnone =>
      cases h
      exact .create _ hnone
  | createActive =>
    simp only [perform] at h
    split at h
    · cases h
      exact .none _
    · next hnone =>
      cases h
      exact .create _ hnone
  | createExclusive =>
    simp only [perform] at h
    split at h
    · cases h
      exact .none _
    · next hnone =>
      cases h
      exact .create _ hnone
  | write fd lines =>
    cases h
    exact .write fd lines
  | drainLine entry =>
    simp only [perform] at h
    split_ifs at h
    · cases h
      exact .accept entry
    · cases h
      exact .none _
  | appendCorrection row lines =>
    cases h
    exact .correct row lines
  | rename file name =>
    simp only [perform] at h
    split at h
    · next fd hfd =>
      cases h
      exact .renamed file name fd hfd
    · cases h
      exact .none _
  | rm name =>
    cases h
    exact .remove name
  | randomUUID =>
    simp only [perform] at h
    split at h
    · next event turns =>
      split_ifs at h with hnew
      cases h
      exact .give text event turns rfl hnew
    · cases h
      exact .none _
  | _ =>
    cases h
    exact .none _

lemma effect_of_reply {id : ℕ} {call : Call} {q : SpoolOp} {choice : Choice}
    {answer : Option (Answer q)} (h : reply w id call q choice = some (answer, later)) :
    Effect w call q later := by
  cases choice with
  | fails =>
    simp only [reply] at h
    split_ifs at h
    cases h
    exact .none q
  | works text number yes => exact effect_of_perform h

def Fit (T : Toonl) (w : World) (call : Call) : SpoolOp → Prop
  | .write fd lines => fd < w.nextInode ∧
      ∃ given ∈ w.events, lines = formatSpoolRow T ⟨given.1, some given.2, none⟩
  | .appendCorrection row lines => lines = formatCorrectionRow T row ∧ w.RowMeans row
  | .rename file name => isDrainName name = true ∧ (w.file file ≠ none → name ∉ w.names)
  | .randomUUID => ∀ event turns, call = .append event turns → Spoolable event.fields
  | _ => True

section
variable {entry : RspTelemetrySpoolEntry} {fd : ℕ} {name : Text} {file : SpoolFile}

lemma World.RowMeans.grows {row : RspTelemetryCorrectionRow} (h : w.RowMeans row)
    (hgrows : World.Grows T w later) : later.RowMeans row := by
  obtain ⟨hid, hmeans⟩ := h
  refine ⟨hgrows.ids hid, ?_⟩
  intro given hgiv hsame
  rcases hgrows.fresh given hgiv with hold | hnew
  · rcases hmeans given hold hsame with hretry | ⟨hres, hacc⟩
    · exact .inl hretry
    · exact .inr ⟨hres, hgrows.accepted hacc⟩
  · rw [hsame] at hnew
    exact absurd hid hnew

lemma mem_files : fd ∈ w.files ↔
    w.active = some fd ∨ w.legacy = some fd ∨ ∃ file ∈ w.drains, file.2 = fd := by
  unfold World.files
  simp only [mem_append, Option.mem_toList, mem_map, or_assoc]

lemma grows_create (w : World) : World.Grows T w w.create :=
  { grows_self w with nextInode := Nat.le_succ _ }

lemma World.Sound.create (h : w.Sound T digest) (hnone : w.active = none) :
    w.create.Sound T digest := by
  have hfil : w.create.files = w.nextInode :: w.files := by
    unfold World.files
    rw [hnone]
    rfl
  refine { h with apart := ?_, below := ?_, empty := ?_ }
  · rw [hfil]
    apply nodup_cons.mpr
    exact ⟨fun hin => Nat.lt_irrefl _ (h.below _ hin), h.apart⟩
  · intro fd hfd
    rw [hfil] at hfd
    change fd < w.nextInode + 1
    rcases mem_cons.mp hfd with rfl | hfd
    · omega
    · have hlt := h.below fd hfd
      omega
  · intro fd hle
    change w.nextInode + 1 ≤ fd at hle
    exact h.empty fd (by omega)

lemma lies_create (hnone : w.active = none) (h : w.Lies T digest entry) :
    w.create.Lies T digest entry := by
  rcases h with ⟨fd, hact | hleg, hentry⟩ | hdrain
  · rw [hnone] at hact
    cases hact
  · exact .inl ⟨fd, .inr hleg, hentry⟩
  · exact .inr hdrain

lemma grows_write (fd : ℕ) (lines : List Text) : World.Grows T w (w.write fd lines) := by
  refine { grows_self w with content := ?_ }
  intro other
  change _ <+: update w.content fd (w.content fd ++ lines) other
  rw [update_apply]
  split_ifs with hoth
  · rw [hoth]
    exact prefix_append _ _
  · exact prefix_refl _

lemma entries_write (law : T.Lawful) (given : Text × TelemetryEvent) (hgiv : Spoolable given.2)
    (fd other : ℕ) :
    (w.write fd (formatSpoolRow T ⟨given.1, some given.2, none⟩)).entries T digest other =
      if other = fd then w.entries T digest fd ++ [spooled given.1 given.2]
      else w.entries T digest other := by
  unfold World.entries World.write
  dsimp only
  rw [update_apply]
  split_ifs with hoth
  · unfold parseSpoolEntries
    rw [parseSpoolLines_append, parse_formatSpoolRow law hgiv]
  · rfl

lemma World.Sound.write (law : T.Lawful) (h : w.Sound T digest) (hfd : fd < w.nextInode)
    {given : Text × TelemetryEvent} (hgiv : given ∈ w.events) :
    (w.write fd (formatSpoolRow T ⟨given.1, some given.2, none⟩)).Sound T digest := by
  have hgrows : World.Grows T w (w.write fd (formatSpoolRow T ⟨given.1, some given.2, none⟩)) :=
    grows_write fd _
  obtain ⟨hid, hspoolable⟩ := h.given given hgiv
  refine { h with empty := ?_, settled := ?_, means := ?_ }
  · intro other hle
    change w.nextInode ≤ other at hle
    change update w.content fd _ other = []
    rw [update_of_ne (by omega)]
    exact h.empty other hle
  · exact fun file hfile => (h.settled file hfile).trans (hgrows.content file.2)
  · intro other entry hentry
    rw [entries_write law given hspoolable] at hentry
    have hold : ∀ fd, entry ∈ w.entries T digest fd → w.Means entry :=
      fun fd hin => h.means fd entry hin
    split_ifs at hentry
    · rcases mem_append.mp hentry with hentry | hentry
      · exact hold fd hentry
      · rw [mem_singleton.mp hentry]
        refine ⟨hid, ?_⟩
        intro other hoth hsame
        rw [h.once other hoth given hgiv hsame]
    · exact hold other hentry

lemma lies_write {lines : List Text} (h : w.Lies T digest entry) :
    (w.write fd lines).Lies T digest entry := by
  have hgrows : World.Grows T w (w.write fd lines) := grows_write fd lines
  rcases h with ⟨other, hfile, hentry⟩ | hdrain
  · exact .inl ⟨other, hfile, entries_grows hgrows hentry⟩
  · exact .inr hdrain

lemma grows_accept (entry : RspTelemetrySpoolEntry) : World.Grows T w (w.accept entry) :=
  { grows_self w with accepted := subset_append_left _ _ }

lemma World.Sound.accept (h : w.Sound T digest) (entry : RspTelemetrySpoolEntry) :
    (w.accept entry).Sound T digest :=
  { h with corrections := fun row hrow => (h.corrections row hrow).grows (grows_accept (T := T) entry) }

lemma grows_correct (law : T.Lawful) (row : RspTelemetryCorrectionRow) :
    World.Grows T w (w.correct (formatCorrectionRow T row)) := by
  refine { (grows_self w : World.Grows T w w) with rows := ?_ }
  unfold World.rows World.correct
  rw [parseCorrectionRows_append law]
  exact subset_append_left _ _

lemma World.Sound.correct (law : T.Lawful) (h : w.Sound T digest)
    {row : RspTelemetryCorrectionRow} (hrow : w.RowMeans row) :
    (w.correct (formatCorrectionRow T row)).Sound T digest := by
  refine { h with corrections := ?_ }
  intro other hoth
  unfold World.rows World.correct at hoth
  rw [parseCorrectionRows_append law] at hoth
  rcases mem_append.mp hoth with hoth | hoth
  · exact h.corrections other hoth
  · rw [mem_singleton.mp hoth]
    exact hrow

lemma drains_renamed (h : w.Sound T digest) (hname : name ∉ w.names) (file : SpoolFile) (fd : ℕ) :
    (w.renamed file name fd).drains = (name, fd) :: w.drains := by
  unfold World.renamed
  dsimp only
  congr 1
  apply filter_eq_self.mpr
  intro old hold
  rw [decide_eq_true_eq]
  rintro rfl
  exact hname (h.named old hold).2

lemma apart_of_file (h : w.Sound T digest) (hfile : w.file file = some fd) :
    ∀ old ∈ w.drains, old.2 ≠ fd := by
  have hapart := h.apart
  unfold World.files at hapart
  rw [nodup_append] at hapart
  intro old hold heq
  have hin : fd ∈ w.active.toList ++ w.legacy.toList := by
    cases file with
    | active => exact mem_append_left _ (Option.mem_toList.mpr hfile)
    | legacy => exact mem_append_right _ (Option.mem_toList.mpr hfile)
  exact hapart.2.2 fd hin old.2 (mem_map_of_mem hold) heq.symm

lemma grows_renamed (h : w.Sound T digest) (hfile : w.file file = some fd)
    (hname : name ∉ w.names) : World.Grows T w (w.renamed file name fd) := by
  refine { grows_self w with drains := ?_, settled := ?_, names := ?_ }
  · intro old hold
    rw [drains_renamed h hname] at hold
    rcases mem_cons.mp hold with rfl | hold
    · exact .inr hname
    · exact .inl hold
  · intro old hold
    exact update_of_ne (apart_of_file h hfile old hold) _ _
  · exact subset_cons_self _ _

lemma mem_files_renamed (h : w.Sound T digest) (hfile : w.file file = some fd)
    (hname : name ∉ w.names) : (w.renamed file name fd).files.Perm w.files := by
  have hdrains := drains_renamed h hname file fd
  unfold World.files
  rw [hdrains]
  cases file with
  | active =>
    have hact : w.active = some fd := hfile
    have hrest : (w.renamed .active name fd).active = none ∧
        (w.renamed .active name fd).legacy = w.legacy := ⟨rfl, rfl⟩
    rw [hrest.1, hrest.2, hact, map_cons]
    exact perm_middle
  | legacy =>
    have hleg : w.legacy = some fd := hfile
    have hrest : (w.renamed .legacy name fd).active = w.active ∧
        (w.renamed .legacy name fd).legacy = none := ⟨rfl, rfl⟩
    rw [hrest.1, hrest.2, hleg, map_cons, append_assoc, append_assoc]
    exact List.Perm.refl _

lemma World.Sound.renamed (h : w.Sound T digest) (hfile : w.file file = some fd)
    (hname : name ∉ w.names) (hdrain : isDrainName name = true) :
    (w.renamed file name fd).Sound T digest := by
  have hfil := mem_files_renamed h hfile hname
  have hdrains := drains_renamed h hname file fd
  refine { h with apart := ?_, below := ?_, distinct := ?_, named := ?_, settled := ?_ }
  · exact hfil.nodup_iff.mpr h.apart
  · exact fun other hoth => h.below other (hfil.mem_iff.mp hoth)
  · rw [hdrains]
    apply nodup_cons.mpr
    refine ⟨?_, h.distinct⟩
    intro hin
    obtain ⟨old, hold, rfl⟩ := mem_map.mp hin
    exact hname (h.named old hold).2
  · intro old hold
    rw [hdrains] at hold
    rcases mem_cons.mp hold with rfl | hold
    · exact ⟨hdrain, mem_cons_self⟩
    · obtain ⟨hisdr, hin⟩ := h.named old hold
      exact ⟨hisdr, mem_cons_of_mem _ hin⟩
  · intro old hold
    rw [hdrains] at hold
    change update w.settled fd (w.content fd) old.2 <+: w.content old.2
    rw [update_apply]
    split_ifs with heq
    · rw [heq]
    · rcases mem_cons.mp hold with rfl | hold
      · exact absurd rfl heq
      · exact h.settled old hold

lemma lies_renamed (h : w.Sound T digest) (hfile : w.file file = some fd)
    (hname : name ∉ w.names) (hlies : w.Lies T digest entry) :
    (w.renamed file name fd).Lies T digest entry := by
  have hdrains := drains_renamed h hname file fd
  have hgrows : World.Grows T w (w.renamed file name fd) := grows_renamed h hfile hname
  have hgiv : entry ∈ w.entries T digest fd → (w.renamed file name fd).Lies T digest entry := by
    intro hentry
    right
    refine ⟨(name, fd), ?_, ?_⟩
    · rw [hdrains]
      exact mem_cons_self
    · change entry ∈ parseSpoolEntries T digest (update w.settled fd (w.content fd) fd)
      rw [update_self]
      exact hentry
  rcases hlies with ⟨other, hoth, hentry⟩ | ⟨old, hold, hentry⟩
  · by_cases heq : other = fd
    · rw [heq] at hentry
      exact hgiv hentry
    · left
      refine ⟨other, ?_, hentry⟩
      cases file with
      | active =>
        rcases hoth with hoth | hoth
        · have hsame : some other = some fd := hoth.symm.trans hfile
          exact absurd (Option.some.inj hsame) heq
        · exact .inr hoth
      | legacy =>
        rcases hoth with hoth | hoth
        · exact .inl hoth
        · have hsame : some other = some fd := hoth.symm.trans hfile
          exact absurd (Option.some.inj hsame) heq
  · right
    refine ⟨old, ?_, ?_⟩
    · rw [hdrains]
      exact mem_cons_of_mem _ hold
    · rw [hgrows.settled old hold]
      exact hentry

lemma World.Sound.remove (h : w.Sound T digest) (name : Text) : (w.remove name).Sound T digest := by
  have hdrains : ∀ file ∈ (w.remove name).drains, file ∈ w.drains :=
    fun file hfile => (mem_filter.mp hfile).1
  have hfil : (w.remove name).files.Sublist w.files := by
    apply List.Sublist.append (List.Sublist.refl _)
    exact filter_sublist.map _
  refine { h with apart := ?_, below := ?_, distinct := ?_, named := ?_, settled := ?_ }
  · exact h.apart.sublist hfil
  · exact fun other hoth => h.below other (hfil.subset hoth)
  · exact h.distinct.sublist (filter_sublist.map _)
  · exact fun file hfile => h.named file (hdrains file hfile)
  · exact fun file hfile => h.settled file (hdrains file hfile)

lemma grows_remove (name : Text) : World.Grows T w (w.remove name) :=
  { grows_self w with drains := fun _ hfile => .inl (mem_filter.mp hfile).1 }

lemma lies_remove (name : Text) (h : w.Lies T digest entry) : (w.remove name).Lies T digest entry ∨
      ∃ file ∈ w.drains, file.1 = name ∧ entry ∈ parseSpoolEntries T digest (w.settled file.2) := by
  rcases h with hspool | ⟨file, hfile, hentry⟩
  · exact .inl (.inl hspool)
  · by_cases hname : file.1 = name
    · exact .inr ⟨file, hfile, hname, hentry⟩
    · left
      right
      refine ⟨file, mem_filter.mpr ⟨hfile, ?_⟩, hentry⟩
      exact decide_eq_true hname

lemma grows_give {spoolId : Text} {event : TelemetryEvent} (hnew : spoolId ∉ w.ids) :
    World.Grows T w (w.give spoolId event) := by
  refine { grows_self w with ids := ?_, events := ?_, fresh := ?_ }
  · exact subset_cons_self _ _
  · exact subset_append_left _ _
  · intro given hgiv
    rcases mem_append.mp hgiv with hgiv | hgiv
    · exact .inl hgiv
    · rw [mem_singleton.mp hgiv]
      exact .inr hnew

lemma World.Sound.give (h : w.Sound T digest) {spoolId : Text} {event : TelemetryEvent}
    (hnew : spoolId ∉ w.ids) (hevent : Spoolable event) :
    (w.give spoolId event).Sound T digest := by
  have hgrows : World.Grows T w (w.give spoolId event) := grows_give hnew
  refine { h with given := ?_, once := ?_, means := ?_, corrections := ?_ }
  · intro given hgiv
    rcases mem_append.mp hgiv with hgiv | hgiv
    · obtain ⟨hid, hspoolable⟩ := h.given given hgiv
      exact ⟨mem_cons_of_mem _ hid, hspoolable⟩
    · rw [mem_singleton.mp hgiv]
      exact ⟨mem_cons_self, hevent⟩
  · intro given hgiv other hoth hsame
    rcases mem_append.mp hgiv with hgiv | hgiv
    · rcases mem_append.mp hoth with hoth | hoth
      · exact h.once given hgiv other hoth hsame
      · rw [mem_singleton.mp hoth] at hsame
        have hin := (h.given given hgiv).1
        rw [show given.1 = spoolId from hsame] at hin
        exact absurd hin hnew
    · rcases mem_append.mp hoth with hoth | hoth
      · rw [mem_singleton.mp hgiv] at hsame
        have hin := (h.given other hoth).1
        rw [← show spoolId = other.1 from hsame] at hin
        exact absurd hin hnew
      · rw [mem_singleton.mp hgiv, mem_singleton.mp hoth]
  · exact fun fd entry hentry => (h.means fd entry hentry).grows hgrows
  · exact fun row hrow => (h.corrections row hrow).grows hgrows

lemma Effect.passes (law : T.Lawful) (h : w.Sound T digest) {call : Call} {q : SpoolOp}
    (heff : Effect w call q later) (hfit : Fit T w call q) :
    later.Sound T digest ∧ World.Grows T w later ∧ ∀ entry, w.Lies T digest entry →
      later.Lies T digest entry ∨ ∃ name, q = .rm name ∧ ∃ file ∈ w.drains, file.1 = name ∧
        entry ∈ parseSpoolEntries T digest (w.settled file.2) := by
  cases heff with
  | none q => exact ⟨h, grows_self w, fun entry hlies => .inl hlies⟩
  | create q hnone =>
    exact ⟨h.create hnone, grows_create w, fun entry hlies => .inl (lies_create hnone hlies)⟩
  | write fd lines =>
    obtain ⟨hfd, given, hgiv, rfl⟩ := hfit
    exact ⟨h.write law hfd hgiv, grows_write fd _, fun entry hlies => .inl (lies_write hlies)⟩
  | accept entry =>
    exact ⟨h.accept entry, grows_accept entry, fun entry hlies => .inl hlies⟩
  | correct row lines =>
    obtain ⟨rfl, hrow⟩ := hfit
    exact ⟨h.correct law hrow, grows_correct law row, fun entry hlies => .inl hlies⟩
  | renamed file name fd hfile =>
    have hname : name ∉ w.names := hfit.2 (by rw [hfile]; exact Option.some_ne_none fd)
    exact ⟨h.renamed hfile hname hfit.1, grows_renamed h hfile hname,
      fun entry hlies => .inl (lies_renamed h hfile hname hlies)⟩
  | remove name =>
    refine ⟨h.remove name, grows_remove name, ?_⟩
    intro entry hlies
    rcases lies_remove name hlies with hlat | hrem
    · exact .inl hlat
    · exact .inr ⟨name, rfl, hrem⟩
  | give spoolId event turns hcall hnew =>
    exact ⟨h.give hnew (hfit event turns hcall).compact, grows_give hnew,
      fun entry hlies => .inl hlies⟩

end

end Redskilled.Telemetry
