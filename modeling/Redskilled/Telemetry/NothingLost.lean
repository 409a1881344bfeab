import Redskilled.Telemetry.PlainToonl
import Redskilled.Telemetry.SpoolEffects

/-!
# Nothing that was spooled is lost

What a drain removes was read and handed over, and what was not accepted was recorded. This
fails where a read of a drain file throws, where a refused event cannot be recorded, where a
text that is no event is refused, where a drain file gets a name that another had, and where
an append gives up behind writes to files that were not the active one.
-/
namespace Redskilled.Telemetry
open Foundation Foundation.Text Dialogue List

section
variable (T : Toonl) (w : World)

/-- What can throw, or be refused, without a loss. -/
def Spares (past : Past) (choice : Choice) : SpoolOp → Prop
  | .readFile name => choice = .fails → ∀ file ∈ w.drains, file.1 ≠ name
  | .drainLine entry => entry.event = none → ∃ text number, choice = .works text number true
  | .correctionLane row => row.action = .retry → ¬ w.Recorded T row.targetSpoolId →
      ∃ text number, choice = .works text number true
  | .appendCorrection row _ => row.action = .retry → ¬ w.Recorded T row.targetSpoolId →
      choice ≠ .fails
  | .rename file name => choice ≠ .fails → w.file file ≠ none → name ∉ w.names
  | _ => choice = .fails → ∀ fd lines, ⟨.write fd lines, some ()⟩ ∈ past → lines ∈ w.firm

/-- The next step of a call is spared, and no event has a name with the bracket that ends the
names of a header. -/
def Spared (s : State) : Move → Prop
  | .call (.append event _) => ∀ field ∈ event.fields, '}' ∉ field.1
  | .op id choice => ∀ session q next, s.sessions id = some session →
      session.program = .ask q next → Spares T s.world session.past choice q
  | _ => True

def World.Legible (digest : Text → Text) : Prop :=
  ∀ line ∈ w.rawLines, ∃ fd ∈ w.files, rawEntry digest line ∈ w.entries T digest fd

end

section
variable {T : Toonl} {digest : Text → Text} {w later : World} {call : Call} {past : Past}
  {entry : RspTelemetrySpoolEntry}

lemma Named.known {name : Text} (h : Named past name)
    (hfacts : ∀ e ∈ past, Fact T digest w call e) : name ∈ w.names := by
  rcases h with ⟨names, hin, hname⟩ | ⟨file, hin⟩
  · exact hfacts _ hin name hname
  · exact hfacts _ hin

lemma FromRead.means (h : FromRead T digest past entry)
    (hfacts : ∀ e ∈ past, Fact T digest w call e) : w.Means entry := by
  rcases h with ⟨name, lines, hin, hentry⟩ | ⟨lines, hin, hentry⟩
  · exact (hfacts _ hin).2.2 entry hentry
  · exact hfacts _ hin entry hentry

lemma Corrects.means {row : RspTelemetryCorrectionRow} (h : Corrects past row)
    (hsound : w.Sound T digest) (hfacts : ∀ e ∈ past, Fact T digest w call e) :
    w.RowMeans row := by
  obtain ⟨entry, answer, hin, htarg, hcase⟩ := h
  have hfact : Fact T digest w call ⟨.drainLine entry, answer⟩ := hfacts _ hin
  obtain ⟨⟨hid, hmeans⟩, hacc, -⟩ := hfact
  refine ⟨htarg ▸ hid, ?_⟩
  intro given hgiv hsame
  have hentry : entry = spooled given.1 given.2 := hmeans given hgiv (hsame.trans htarg)
  rcases hcase with ⟨hretry, hjson⟩ | ⟨hres, hyes⟩
  · left
    refine ⟨hretry, ?_⟩
    have hflat : Spoolable (flatten given.2) := (hsound.given given hgiv).2.flatten
    have htext : row.eventJson = some (Json.object (flatten given.2)).stringify := by
      rw [hjson, hentry]
      rfl
    have hne : (Json.object (flatten given.2)).stringify ≠ [] := by
      intro hnil
      have hparse := hflat.parse
      rw [hnil] at hparse
      cases hparse
    unfold pendingEntry
    rw [if_pos hretry, htext, Option.filter_some, if_pos (decide_eq_true hne), Option.bind_some,
      hflat.parse, ← hsame]
    rfl
  · right
    rw [← hentry]
    exact ⟨hres, hacc hyes⟩

/-- What a drain is done with was accepted, or is recorded where it is an event. -/
lemma Treated.kept (h : Treated T past entry) (hfacts : ∀ e ∈ past, Fact T digest w call e) :
    entry ∈ w.accepted ∨ (entry.event ≠ none ∧ w.Recorded T entry.spoolId) := by
  obtain ⟨answer, hin, hcase⟩ := h
  have hfact : Fact T digest w call ⟨.drainLine entry, answer⟩ := hfacts _ hin
  obtain ⟨-, hacc, hraw⟩ := hfact
  rcases hcase with hyes | ⟨row, htarg, haction, htried⟩
  · exact .inl (hacc hyes)
  · by_cases hnone : entry.event = none
    · exact .inl (hacc (hraw hnone))
    · right
      refine ⟨hnone, ?_⟩
      rw [← htarg]
      rcases htried with ⟨answer, hin⟩ | ⟨answer, hne, hin⟩
      · exact hfacts _ hin haction
      · exact hfacts _ hin hne haction

lemma isDrainName_drainName (file : SpoolFile) (pid time : ℕ) :
    isDrainName (drainName file pid time) = true := by
  have hbase : (spoolBase (drainName file pid time)).isSome = true := by
    unfold spoolBase
    rw [find?_isSome]
    refine ⟨file, by cases file <;> simp, ?_⟩
    rw [List.isPrefixOf_iff_prefix]
    refine ⟨number pid ++ '.' :: number time ++ drainSuffix, ?_⟩
    unfold drainName
    simp only [append_assoc, cons_append, nil_append]
  have hsuff : drainSuffix.isSuffixOf (drainName file pid time) = true := by
    rw [isSuffixOf_iff_suffix]
    exact suffix_append _ _
  unfold isDrainName
  rw [hbase, hsuff]
  rfl

variable {q : SpoolOp}

lemma fit_of_asks (hsound : w.Sound T digest) (hfacts : ∀ e ∈ past, Fact T digest w call e)
    (hcall : ∀ event turns, call = .append event turns → Spoolable event.fields)
    (hasks : asks T digest call past q)
    (hname : ∀ file name, q = .rename file name → w.file file ≠ none → name ∉ w.names) :
    Fit T w call q := by
  cases q with
  | write fd lines =>
    cases call with
    | drain pid => cases hasks
    | append event turns =>
      obtain ⟨hopen, spoolId, hid, hlin⟩ := hasks
      refine ⟨hfacts _ hopen, _, hfacts _ hid event turns rfl, hlin⟩
  | appendCorrection row lines =>
    cases call with
    | append event turns => cases hasks
    | drain pid => exact ⟨hasks.1, hasks.2.means hsound hfacts⟩
  | rename file name =>
    cases call with
    | append event turns => cases hasks
    | drain pid =>
      obtain ⟨time, hdrain⟩ := hasks
      refine ⟨?_, hname file name rfl⟩
      rw [hdrain]
      exact isDrainName_drainName file pid time
  | randomUUID => exact hcall
  | _ => trivial

lemma fact_of_failure
    (hfacts : ∀ e ∈ past, Fact T digest w call e) (hasks : asks T digest call past q)
    (hspar : Spares T w past .fails q) : Fact T digest w call ⟨q, none⟩ := by
  cases q with
  | readFile name =>
    cases call with
    | append event turns => cases hasks
    | drain pid => exact ⟨hasks.known hfacts, hspar rfl⟩
  | drainLine entry =>
    cases call with
    | append event turns => cases hasks
    | drain pid =>
      refine ⟨FromRead.means hasks hfacts, by rintro ⟨⟩, ?_⟩
      intro hnone
      obtain ⟨text, number, hworks⟩ := hspar hnone
      cases hworks
  | correctionLane row =>
    intro _ hretry
    by_contra hnot
    obtain ⟨text, number, hworks⟩ := hspar hretry hnot
    cases hworks
  | appendCorrection row lines =>
    intro hretry
    by_contra hnot
    exact hspar hretry hnot rfl
  | _ => trivial

lemma fact_of_perform (law : T.Lawful) {text : Text} {number : ℕ} {yes : Bool}
    {answer : Option (Answer q)} (hsound : w.Sound T digest)
    (hfacts : ∀ e ∈ past, Fact T digest w call e) (hasks : asks T digest call past q)
    (hspar : Spares T w past (.works text number yes) q)
    (hperf : perform w call text number yes q = some (answer, later)) :
    Fact T digest later call ⟨q, answer⟩ := by
  cases q with
  | openActive =>
    simp only [perform] at hperf
    split at hperf
    · next fd hact =>
      cases hperf
      exact hsound.below fd (mem_files.mpr (.inl hact))
    · cases hperf
      exact Nat.lt_succ_self _
  | fstat fd =>
    cases hperf
    rfl
  | write fd lines =>
    cases hperf
    rintro spoolId event hevent rfl
    rw [entries_write law (spoolId, event) hevent, if_pos rfl]
    exact mem_append_right _ mem_cons_self
  | randomUUID =>
    simp only [perform] at hperf
    split at hperf
    · split_ifs at hperf
      cases hperf
      rintro event turns ⟨⟩
      exact mem_append_right _ mem_cons_self
    · cases hperf
      rintro event turns ⟨⟩
  | readdir =>
    cases hperf
    intro name hname
    obtain ⟨file, hfile, rfl⟩ := mem_map.mp hname
    exact (hsound.named file hfile).2
  | rename file name =>
    simp only [perform] at hperf
    split at hperf
    · cases hperf
      exact mem_cons_self
    · cases hperf
      trivial
  | readFile name =>
    cases call with
    | append event turns => cases hasks
    | drain pid =>
      have hknown : name ∈ w.names := Named.known hasks hfacts
      cases hperf
      cases hlook : w.drains.lookup name with
      | none =>
        refine ⟨hknown, ?_⟩
        rintro file hfile rfl
        have hne := lookup_eq_none_iff.mp hlook file hfile
        rw [bne_self_eq_false] at hne
        cases hne
      | some fd =>
        have hin : (name, fd) ∈ w.drains := by
          obtain ⟨before, behind, hdrains, -⟩ := lookup_eq_some_iff.mp hlook
          rw [hdrains]
          exact mem_append_right _ mem_cons_self
        refine ⟨?_, hknown, hsound.means fd⟩
        rintro file hfile rfl
        have hsame : file = (file.1, fd) :=
          inj_on_of_nodup_map hsound.distinct hfile hin rfl
        have hsettl := hsound.settled file hfile
        rw [congrArg Prod.snd hsame] at hsettl ⊢
        exact hsettl
  | readCorrections =>
    cases hperf
    exact fun entry hentry => hsound.pending hentry
  | drainLine entry =>
    cases call with
    | append event turns => cases hasks
    | drain pid =>
      have hmeans : w.Means entry := FromRead.means hasks hfacts
      have hraw : entry.event = none → yes = true := by
        intro hnone
        obtain ⟨text, number, hworks⟩ := hspar hnone
        cases hworks
        rfl
      cases hperf
      cases yes with
      | false =>
        refine ⟨hmeans, by rintro ⟨⟩, ?_⟩
        exact fun hnone => absurd (hraw hnone) Bool.false_ne_true
      | true =>
        refine ⟨hmeans.grows (grows_accept (T := T) entry), ?_, fun _ => rfl⟩
        exact fun _ => mem_append_right _ mem_cons_self
  | correctionLane row =>
    cases hperf
    intro hne hretry
    by_contra hnot
    obtain ⟨text, number, hworks⟩ := hspar hretry hnot
    cases hworks
    exact hne rfl
  | appendCorrection row lines =>
    cases call with
    | append event turns => cases hasks
    | drain pid =>
      obtain ⟨rfl, -⟩ := hasks
      cases hperf
      intro hretry
      refine ⟨row, ?_, rfl⟩
      unfold World.rows World.correct
      rw [parseCorrectionRows_append law]
      exact mem_append_right _ mem_cons_self
  | _ => trivial

end

section
variable (T : Toonl) (digest : Text → Text)

def World.Safe (w : World) (entry : RspTelemetrySpoolEntry) : Prop :=
  w.Lies T digest entry ∨ w.Recorded T entry.spoolId ∨ entry ∈ w.accepted

structure World.Keeps (w : World) : Prop where
  sound : w.Sound T digest
  firm : ∀ lines ∈ w.firm, ∀ spoolId event, Spoolable event →
    lines = formatSpoolRow T ⟨spoolId, some event, none⟩ → w.Safe T digest (spooled spoolId event)
  appended : ∀ entry ∈ w.appended,
    w.Safe T digest entry ∧ ∃ given ∈ w.events, entry = spooled given.1 given.2
  raw : ∀ line ∈ w.rawLines,
    w.Lies T digest (rawEntry digest line) ∨ rawEntry digest line ∈ w.accepted

/-- The world keeps what it has, and every call knows what it was answered. -/
structure Keeps (s : State) : Prop where
  world : s.world.Keeps T digest
  facts : ∀ id session, s.sessions id = some session →
    ∀ e ∈ session.past, Fact T digest s.world session.call e
  calls : ∀ id session, s.sessions id = some session →
    ∀ event turns, session.call = .append event turns → Spoolable event.fields

variable {T digest} {w later : World} {call : Call} {past : Past} {q : SpoolOp}
  {answer : Option (Answer q)} {id : ℕ} {choice : Choice}

def Stays (T : Toonl) (digest : Text → Text) (w later : World) : Prop :=
  ∀ entry, w.Lies T digest entry → later.Lies T digest entry ∨ entry ∈ later.accepted ∨
    (entry.event ≠ none ∧ later.Recorded T entry.spoolId)

lemma World.Safe.stays {entry : RspTelemetrySpoolEntry} (h : w.Safe T digest entry)
    (hgrows : World.Grows T w later) (hstays : Stays T digest w later) :
    later.Safe T digest entry := by
  rcases h with hlies | hrecord | hacc
  · rcases hstays entry hlies with hlies | hacc | ⟨-, hrecord⟩
    · exact .inl hlies
    · exact .inr (.inr hacc)
    · exact .inr (.inl hrecord)
  · exact .inr (.inl (recorded_grows hgrows hrecord))
  · exact .inr (.inr (hgrows.accepted hacc))

lemma stays_of_reply (law : T.Lawful) (h : w.Sound T digest)
    (hfacts : ∀ e ∈ past, Fact T digest w call e)
    (hcall : ∀ event turns, call = .append event turns → Spoolable event.fields)
    (hasks : asks T digest call past q) (hspar : Spares T w past choice q)
    (hreply : reply w id call q choice = some (answer, later)) :
    later.Sound T digest ∧ World.Grows T w later ∧ Stays T digest w later := by
  cases choice with
  | fails =>
    have hsame : w = later := by
      simp only [reply] at hreply
      split_ifs at hreply
      exact congrArg Prod.snd (Option.some.inj hreply)
    subst hsame
    exact ⟨h, grows_self w, fun entry hlies => .inl hlies⟩
  | works text number yes =>
    have hname : ∀ file name, q = .rename file name → w.file file ≠ none → name ∉ w.names := by
      rintro file name rfl
      exact hspar (by rintro ⟨⟩)
    have hfit := fit_of_asks h hfacts hcall hasks hname
    obtain ⟨hsound, hgrows, hlies⟩ := (effect_of_reply hreply).passes law h hfit
    refine ⟨hsound, hgrows, ?_⟩
    intro entry hentry
    rcases hlies entry hentry with hlat | ⟨name, rfl, file, hfile, hsame, hin⟩
    · exact .inl hlat
    -- the file that is removed was read, and what it had when it was renamed was treated
    · cases call with
      | append event turns => cases hasks
      | drain pid =>
        obtain ⟨found, hread, htreat⟩ := hasks
        have hfact := hfacts _ hread
        cases found with
        | none => exact absurd hsame (hfact.2 file hfile)
        | some lines =>
          have hsub : parseSpoolEntries T digest (w.settled file.2) <+:
              parseSpoolEntries T digest lines :=
            parseSpoolEntries_initial (hfact.1 file hfile hsame)
          rcases (htreat entry (hsub.subset hin)).kept hfacts with hacc | ⟨hne, hrec⟩
          · exact .inr (.inl (hgrows.accepted hacc))
          · exact .inr (.inr ⟨hne, recorded_grows hgrows hrec⟩)

lemma fact_of_reply (law : T.Lawful) (h : w.Sound T digest)
    (hfacts : ∀ e ∈ past, Fact T digest w call e) (hasks : asks T digest call past q)
    (hspar : Spares T w past choice q)
    (hreply : reply w id call q choice = some (answer, later)) :
    Fact T digest later call ⟨q, answer⟩ := by
  cases choice with
  | fails =>
    simp only [reply] at hreply
    split_ifs at hreply
    cases hreply
    exact fact_of_failure hfacts hasks hspar
  | works text number yes => exact fact_of_perform law h hfacts hasks hspar hreply

variable (digest) in
lemma ghosts_of_reply (law : T.Lawful) (hreply : reply w id call q choice = some (answer, later)) :
    later.appended = w.appended ∧ later.rawLines = w.rawLines ∧
      ∀ lines ∈ later.firm, lines ∈ w.firm ∨ ∀ spoolId event, Spoolable event →
        lines = formatSpoolRow T ⟨spoolId, some event, none⟩ →
          later.Lies T digest (spooled spoolId event) := by
  have heff := effect_of_reply hreply
  cases heff with
  | correct row lines => exact ⟨rfl, rfl, fun lines hin => .inl hin⟩
  | write fd lines =>
    refine ⟨rfl, rfl, ?_⟩
    intro row hrow
    change row ∈ (if w.active = some fd then lines :: w.firm else w.firm) at hrow
    split_ifs at hrow with hact
    · rcases mem_cons.mp hrow with rfl | hrow
      · right
        rintro spoolId event hevent rfl
        left
        refine ⟨fd, .inl hact, ?_⟩
        rw [entries_write law (spoolId, event) hevent, if_pos rfl]
        exact mem_append_right _ mem_cons_self
      · exact .inl hrow
    · exact .inl hrow
  | _ => exact ⟨rfl, rfl, fun lines hin => .inl hin⟩

lemma World.Keeps.answered (h : w.Keeps T digest) (hsound : later.Sound T digest)
    (hgrows : World.Grows T w later) (hstays : Stays T digest w later)
    (happ : later.appended = w.appended) (hraw : later.rawLines = w.rawLines)
    (hfirm : ∀ lines ∈ later.firm, lines ∈ w.firm ∨ ∀ spoolId event, Spoolable event →
      lines = formatSpoolRow T ⟨spoolId, some event, none⟩ →
        later.Lies T digest (spooled spoolId event)) : later.Keeps T digest := by
  constructor
  · exact hsound
  · intro lines hlin spoolId event hevent hrow
    rcases hfirm lines hlin with hold | hnew
    · exact (h.firm lines hold spoolId event hevent hrow).stays hgrows hstays
    · exact .inl (hnew spoolId event hevent hrow)
  · intro entry hentry
    rw [happ] at hentry
    obtain ⟨hsafe, given, hgiv, hsame⟩ := h.appended entry hentry
    exact ⟨hsafe.stays hgrows hstays, given, hgrows.events hgiv, hsame⟩
  · intro line hline
    rw [hraw] at hline
    rcases h.raw line hline with hlies | hacc
    · rcases hstays _ hlies with hlies | hacc | ⟨hne, -⟩
      · exact .inl hlies
      · exact .inr hacc
      · exact absurd rfl hne
    · exact .inr (hgrows.accepted hacc)

variable {event : RspTelemetryEvent} {turns : ℕ}

lemma firm_of_spares
    (hasks : asks T digest (.append event turns) past q) (hspar : Spares T w past .fails q) :
    ∀ fd lines, ⟨.write fd lines, some ()⟩ ∈ past → lines ∈ w.firm := by
  cases q with
  | resolveRoot => exact hspar rfl
  | mkdir => exact hspar rfl
  | laneCeiling => exact hspar rfl
  | openActive => exact hspar rfl
  | write fd lines => exact hspar rfl
  | fstat fd => exact hspar rfl
  | statActive => exact hspar rfl
  | randomUUID => exact hspar rfl
  | _ => cases hasks

lemma answered_of_works {number : ℕ} {text : Text} {yes : Bool}
    (hasks : asks T digest (.append event turns) past q) :
    perform w (.append event turns) text number yes q ≠ some (none, later) := by
  intro hperf
  cases q with
  | resolveRoot => cases hperf
  | mkdir => cases hperf
  | laneCeiling => cases hperf
  | openActive =>
    simp only [perform] at hperf
    split at hperf <;> cases hperf
  | write fd lines => cases hperf
  | fstat fd => cases hperf
  | statActive => cases hperf
  | randomUUID =>
    simp only [perform] at hperf
    split_ifs at hperf
    cases hperf
  | _ => cases hasks

lemma safe_of_ends (hkeeps : later.Keeps T digest)
    (hevent : Spoolable event.fields) {spoolId : Text}
    (hfacts : ∀ e ∈ past ++ [⟨q, answer⟩], Fact T digest later (.append event turns) e)
    (hasks : asks T digest (.append event turns) past q)
    (hspar : Spares T w past choice q)
    (hreply : reply w id (.append event turns) q choice = some (answer, later))
    (hwrote : WroteLines (past ++ [⟨q, answer⟩]) (rowOf T event spoolId)) :
    later.Safe T digest (spooled spoolId (compactTelemetryEventForSpool event.fields)) := by
  obtain ⟨fd, hwrite, hend⟩ := hwrote
  rw [getLast?_concat] at hend
  rcases hend with ⟨opened, hopen, hlast⟩ | ⟨asked, hlast⟩
  -- the file that was written to is the active one
  · have hsame : opened = fd := hfacts _ hopen
    have hrow := hfacts _ hwrite spoolId _ hevent.compact rfl
    cases hlast
    cases choice with
    | fails => cases hreply
    | works text number yes =>
      have hfound : (some w.active, w) = (some (some opened), later) := Option.some.inj hreply
      obtain ⟨hact, rfl⟩ := Prod.mk.inj hfound
      left
      left
      refine ⟨fd, .inl ?_, hrow⟩
      rw [← hsame]
      exact Option.some.inj hact
  -- the operation threw, behind a write to the file that was active then
  · cases hlast
    have hbef : ⟨.write fd (rowOf T event spoolId), some ()⟩ ∈ past := by
      rcases mem_append.mp hwrite with hin | hin
      · exact hin
      · cases mem_singleton.mp hin
    cases choice with
    | works text number yes => exact absurd hreply (answered_of_works hasks)
    | fails =>
      have hsame : w = later := by
        simp only [reply] at hreply
        split_ifs at hreply
        exact congrArg Prod.snd (Option.some.inj hreply)
      subst hsame
      exact hkeeps.firm _ (firm_of_spares hasks hspar fd _ hbef) spoolId _ hevent.compact rfl

lemma settled_cases (w : World) (id : ℕ) (call : Call) (p : Program Returned) :
    (spool T digest).settled w id call p = w ∨
      ∃ event turns value spoolId, call = .append event turns ∧ p = .done value ∧
        wroteRow (some value) = some spoolId ∧
        (spool T digest).settled w id call p = { w with appended := w.appended ++
          [spooled spoolId (compactTelemetryEventForSpool event.fields)] } := by
  cases p with
  | ask q next => exact .inl rfl
  | fail =>
    left
    cases call <;> rfl
  | done value =>
    cases call with
    | drain pid => exact .inl rfl
    | append event turns =>
      cases hrow : wroteRow (some value) with
      | none =>
        left
        unfold Service.settled
        change settle w id (.append event turns) (some value) = w
        unfold settle
        rw [hrow]
      | some spoolId =>
        right
        refine ⟨event, turns, value, spoolId, rfl, rfl, hrow, ?_⟩
        change settle w id (.append event turns) (some value) = _
        unfold settle
        rw [hrow]

lemma World.Keeps.append (h : w.Keeps T digest) {given : Text × TelemetryEvent}
    (hgiv : given ∈ w.events) (hsafe : w.Safe T digest (spooled given.1 given.2)) :
    World.Keeps T digest { w with appended := w.appended ++ [spooled given.1 given.2] } := by
  obtain ⟨hsound, hfirm, happ, hraw⟩ := h
  refine ⟨{ hsound with }, hfirm, ?_, hraw⟩
  intro entry hentry
  rcases mem_append.mp hentry with hentry | hentry
  · exact happ entry hentry
  · rw [mem_singleton.mp hentry]
    exact ⟨hsafe, given, hgiv, rfl⟩

lemma grows_append (w : World) (entries : List RspTelemetrySpoolEntry) :
    World.Grows T w { w with appended := entries } :=
  { (grows_self w : World.Grows T w w) with }

variable {s : State}

lemma keeps_start (h : w.Begins T digest) (hleg : w.Legible T digest) : w.Keeps T digest := by
  have hnone : ∀ given, given ∉ w.events := by
    intro given hin
    rw [h.events] at hin
    cases hin
  have hsound : w.Sound T digest := by
    constructor
    · exact h.apart
    · exact h.below
    · exact h.empty
    · exact h.distinct
    · exact h.drainNames
    · intro file _
      rw [h.settled]
    · exact fun given hgiv => absurd hgiv (hnone given)
    · exact fun given hgiv => absurd hgiv (hnone given)
    · exact fun fd entry hentry =>
        ⟨h.ids.1 fd entry hentry, fun given hgiv => absurd hgiv (hnone given)⟩
    · exact fun row hrow => ⟨h.ids.2 row hrow, fun given hgiv => absurd hgiv (hnone given)⟩
  refine ⟨hsound, ?_, ?_, ?_⟩
  · rw [h.firm]
    rintro lines ⟨⟩
  · rw [h.appended]
    rintro entry ⟨⟩
  · intro line hline
    obtain ⟨fd, hfd, hentry⟩ := hleg line hline
    left
    rcases mem_files.mp hfd with hact | hlegacy | ⟨file, hfile, rfl⟩
    · exact .inl ⟨fd, .inl hact, hentry⟩
    · exact .inl ⟨fd, .inr hlegacy, hentry⟩
    · refine .inr ⟨file, hfile, ?_⟩
      rw [h.settled]
      exact hentry

lemma keeps_call (hs : Keeps T digest s) {call : Call} (hok : Spared T s (.call call)) :
    Keeps T digest ((spool T digest).called s call) := by
  have hworld : ((spool T digest).called s call).world = s.world := by
    cases call <;> rfl
  constructor
  · rw [hworld]
    exact hs.world
  · intro id session hsess e he
    rw [hworld]
    rcases Service.called_cases hsess with ⟨-, rfl⟩ | ⟨-, hsess⟩
    · cases he
    · exact hs.facts id session hsess e he
  · intro id session hsess event turns hcall
    rcases Service.called_cases hsess with ⟨-, rfl⟩ | ⟨-, hsess⟩
    · have hsame : call = .append event turns := hcall
      subst hsame
      exact ⟨event.proper, event.telemetry, hok⟩
    · exact hs.calls id session hsess event turns hcall

lemma keeps_op (law : T.Lawful) (hs : Keeps T digest s) {session : Session}
    {next : Option (Answer q) → Program Returned} {world : World}
    (hok : Spared T s (.op id choice)) (hsess : s.sessions id = some session)
    (hask : session.program = .ask q next)
    (hreply : reply s.world id session.call q choice = some (answer, world))
    (hasks : asks T digest session.call session.past q)
    (hcond : (session.goesOn ⟨q, answer⟩ (next answer)).Conducted (asks T digest) (ends T)) :
    Keeps T digest ((spool T digest).answered s id session ⟨q, answer⟩ (next answer) world) := by
  have hspar := hok session q next hsess hask
  have hfacts := hs.facts id session hsess
  obtain ⟨hsound, hgrows, hstays⟩ :=
    stays_of_reply law hs.world.sound hfacts (hs.calls id session hsess) hasks hspar hreply
  obtain ⟨happ, hraw, hfirm⟩ := ghosts_of_reply digest law hreply
  have hworld := hs.world.answered hsound hgrows hstays happ hraw hfirm
  have hnew : Fact T digest world session.call ⟨q, answer⟩ :=
    fact_of_reply law hs.world.sound hfacts hasks hspar hreply
  have hpast : ∀ e ∈ session.past ++ [⟨q, answer⟩], Fact T digest world session.call e := by
    intro e he
    rcases mem_append.mp he with he | he
    · exact (hfacts e he).grows hgrows
    · rw [mem_singleton.mp he]
      exact hnew
  have hsettl : World.Keeps T digest
      ((spool T digest).settled world id session.call (next answer)) ∧
        World.Grows T world ((spool T digest).settled world id session.call (next answer)) := by
    rcases settled_cases world id session.call (next answer) with
      hsame | ⟨event, turns, value, spoolId, hcall, hdone, hrow, hsame⟩
    · rw [hsame]
      exact ⟨hworld, grows_self world⟩
    · obtain ⟨call, past, program⟩ := session
      obtain rfl : call = .append event turns := hcall
      have hends : ends T (.append event turns) (past ++ [⟨q, answer⟩]) (some value) := by
        unfold Service.Session.Conducted at hcond
        change Conducts _ _ (next answer) _ at hcond
        rw [hdone] at hcond
        exact hcond
      obtain ⟨hid, hwrote⟩ := hends spoolId hrow
      have hevent := hs.calls id _ hsess event turns rfl
      rw [hsame]
      refine ⟨?_, grows_append world _⟩
      have hgiv : (spoolId, compactTelemetryEventForSpool event.fields) ∈ world.events :=
        hpast _ hid event turns rfl
      exact hworld.append hgiv
        (safe_of_ends hworld hevent hpast hasks hspar hreply hwrote)
  obtain ⟨hkeeps, hlat⟩ := hsettl
  constructor
  · exact hkeeps
  · intro other left hleft e he
    rcases Service.answered_cases hleft with ⟨-, rfl⟩ | ⟨-, hleft⟩
    · exact (hpast e he).grows hlat
    · exact ((hs.facts other left hleft e he).grows hgrows).grows hlat
  · intro other left hleft event turns hcall
    rcases Service.answered_cases hleft with ⟨-, rfl⟩ | ⟨-, hleft⟩
    · exact hs.calls id session hsess event turns hcall
    · exact hs.calls other left hleft event turns hcall

def Starts (T : Toonl) (digest : Text → Text) (w : World) : Prop :=
  w.Begins T digest ∧ w.Legible T digest

lemma keeps_of_reach (law : T.Lawful)
    (h : ((spool T digest).machine (Starts T digest)).Reach (Spared T) s) :
    Keeps T digest s := by
  have hprogr : ∀ w call, ((spool T digest).program w call).Conducts (asks T digest call)
      (ends T call) [] := fun _ call => program_conducts call
  refine (Service.reach_inv (Keeps T digest) hprogr ?_ ?_ ?_ ?_ ?_ h).1
  · rintro s ⟨⟨hbeg, hleg⟩, hsessi, -⟩
    refine ⟨keeps_start hbeg hleg, ?_, ?_⟩
    · intro id session hsess
      rw [hsessi] at hsess
      cases hsess
    · intro id session hsess
      rw [hsessi] at hsess
      cases hsess
  · exact fun s call _ hs hok => keeps_call hs hok
  · intro s id choice session q next answer world _ hs hok hsess hask hreply hasks hcond
    exact keeps_op law hs hok hsess hask hreply hasks hcond
  · rintro s id - ⟨hworld, hfacts, hcalls⟩ -
    constructor
    · exact hworld
    · intro other session hsess
      exact hfacts other session (Service.stopped_cases hsess).2
    · intro other session hsess
      exact hcalls other session (Service.stopped_cases hsess).2
  · rintro s ⟨⟩

lemma need_returned {q : SpoolOp} {a : Answer q} {trace : Past}
    (h : Run (need q : Program (Answer q)) trace (.returned a)) : trace = [⟨q, some a⟩] := by
  cases h with
  | @ask _ _ answer rest _ hnext =>
    cases answer with
    | none => cases hnext
    | some found =>
      cases hnext
      rfl

lemma mem_filterOrphans {pid : ℕ} {names found : List Text} {trace : Past}
    (hrun : Run (filterOrphans pid names) trace (.returned found)) {name : Text}
    (hname : name ∈ names)
    (hdead : ∀ owner, ownerPid name = some owner → owner ≠ pid →
      ⟨.isAlive owner, some true⟩ ∉ trace) : name ∈ found := by
  induction names generalizing trace found with
  | nil => cases hname
  | cons first names ih =>
    obtain ⟨orphan, a, b, rfl, horph, hrest⟩ := hrun.bind_returned
    obtain ⟨rest, c, d, rfl, hfilt, hpure⟩ := hrest.bind_returned
    cases hpure
    have hdeadr : name ∈ names → name ∈ rest := by
      intro hin
      apply ih hfilt hin
      intro owner hown hne hyes
      exact hdead owner hown hne (by simp [hyes])
    rcases mem_cons.mp hname with rfl | hin
    · have hyes : orphan = true := by
        unfold isOrphan at horph
        split at horph
        · next owner hown =>
          split_ifs at horph with hne
          · obtain ⟨alive, e, f, rfl, halive, hnot⟩ := horph.bind_returned
            cases hnot
            have hasked := need_returned halive
            rw [hasked] at hdead
            cases alive with
            | false => rfl
            | true => exact absurd (by simp) (hdead owner hown hne)
          · cases horph
            rfl
        · cases horph
          rfl
      rw [hyes, if_pos rfl]
      exact mem_cons_self
    · split_ifs
      · exact mem_cons_of_mem _ (hdeadr hin)
      · exact hdeadr hin

lemma adopted_of_isDrainName {name : Text} (h : isDrainName name = true) : Adopted name := by
  intro pid names trace found hrun hname hdead
  cases hrun with
  | ask hrest =>
    change Run (filterOrphans pid (names.filter isDrainName) >>= _) _ _ at hrest
    obtain ⟨orphans, c, d, rfl, hfilt, hpure⟩ := hrest.bind_returned
    cases hpure
    rw [mem_insertionSort]
    apply mem_filterOrphans hfilt
    · exact mem_filter.mpr ⟨hname, h⟩
    · intro owner hown hne hyes
      exact hdead owner hown hne (by simp [hyes])

lemma World.Keeps.nothingLost (h : w.Keeps T digest) : w.NothingLost T digest := by
  have hlies : ∀ entry, w.Lies T digest entry → w.Kept T digest entry := by
    intro entry hentry
    left
    rcases hentry with ⟨fd, hact | hlegacy, hin⟩ | ⟨file, hfile, hin⟩
    · exact ⟨fd, mem_files.mpr (.inl hact), hin⟩
    · exact ⟨fd, mem_files.mpr (.inr (.inl hlegacy)), hin⟩
    · refine ⟨file.2, mem_files.mpr (.inr (.inr ⟨file, hfile, rfl⟩)), ?_⟩
      exact (parseSpoolEntries_initial (h.sound.settled file hfile)).subset hin
  constructor
  · intro entry hentry
    obtain ⟨hsafe, given, hgiv, rfl⟩ := h.appended entry hentry
    rcases hsafe with hlie | hrecord | hacc
    · exact hlies _ hlie
    · exact .inr (h.sound.recorded hgiv hrecord)
    · exact .inr (.inr hacc)
  · intro line hline
    rcases h.raw line hline with hlie | hacc
    · exact hlies _ hlie
    · exact .inr (.inr hacc)
  · exact fun file hfile => adopted_of_isDrainName (h.sound.named file hfile).1

/-- In every run of spared steps from legible files, with any number of appends and drains that
stop anywhere, nothing that was spooled is lost. -/
theorem spool_loses_nothing (T : Toonl) (digest : Text → Text) (law : T.Lawful) (s : State)
    (h : ((spool T digest).machine (Starts T digest)).Reach (Spared T) s) :
    s.world.NothingLost T digest :=
  (keeps_of_reach law h).world.nothingLost

end

/-- The step throws nothing, refuses nothing, and gives no name that another drain file had. -/
def faultless (s : State) : Move → Bool
  | .call (.append event _) => event.fields.all fun field => '}' ∉ field.1
  | .op _ .fails => false
  | .op id (.works _ _ yes) =>
    yes && match s.sessions id with
      | some session =>
        match session.program with
        | .ask (.rename _ name) _ => name ∉ s.world.names
        | _ => true
      | none => true
  | _ => true

lemma spared_of_faultless {T : Toonl} {s : State} {move : Move} (h : faultless s move = true) :
    Spared T s move := by
  cases move with
  | call call =>
    cases call with
    | drain pid => trivial
    | append event turns =>
      intro field hfield
      exact of_decide_eq_true (all_eq_true.mp h field hfield)
  | stop id => trivial
  | world move => trivial
  | op id choice =>
    intro session q next hsess hask
    cases choice with
    | fails => cases h
    | works text number yes =>
      unfold faultless at h
      obtain ⟨rfl, hname⟩ := Bool.and_eq_true_iff.mp h
      rw [hsess] at hname
      dsimp only at hname
      rw [hask] at hname
      cases q with
      | rename file name => exact fun _ _ => of_decide_eq_true hname
      | drainLine entry => exact fun _ => ⟨text, number, rfl⟩
      | correctionLane row => exact fun _ _ => ⟨text, number, rfl⟩
      | appendCorrection row lines => exact fun _ _ => by rintro ⟨⟩
      | _ => rintro ⟨⟩

section

def spoolOf (digest : Text → Text) (lines : List Text) : World where
  active := some 0
  legacy := none
  drains := []
  content := fun fd => if fd = 0 then lines else []
  nextInode := 1
  corrections := []
  ids := (parseSpoolEntries PlainToonl.toonl digest lines).map (·.spoolId)
  events := []
  settled := fun fd => if fd = 0 then lines else []
  names := []
  firm := []
  rawLines := nonEvents PlainToonl.toonl digest [] lines
  appended := []
  accepted := []

lemma begins_spoolOf (digest : Text → Text) (lines : List Text) :
    (spoolOf digest lines).Begins PlainToonl.toonl digest := by
  have hfil : (spoolOf digest lines).files = [0] := rfl
  constructor
  · rw [hfil]
    exact nodup_singleton 0
  · rw [hfil]
    intro fd hfd
    rw [mem_singleton.mp hfd]
    exact Nat.zero_lt_one
  · intro fd hle
    have hpos : 1 ≤ fd := hle
    exact if_neg (by omega)
  · exact nodup_nil
  · rintro file ⟨⟩
  · rfl
  · constructor
    · intro fd entry hentry
      by_cases hfd : fd = 0
      · subst hfd
        exact mem_map_of_mem hentry
      · have hempty : (spoolOf digest lines).content fd = [] := if_neg hfd
        unfold World.entries at hentry
        rw [hempty] at hentry
        cases hentry
    · rintro row ⟨⟩
  · rfl
  · rfl
  · intro line
    rw [hfil]
    constructor
    · exact fun hin => ⟨0, mem_cons_self, hin⟩
    · rintro ⟨fd, hfd, hin⟩
      rw [mem_singleton.mp hfd] at hin
      exact hin
  · rfl
  · rfl

def anEvent : RspTelemetryEvent where
  fields := [(collectionField, .string "rsp_decisions_v1".toList)]
  proper := by
    apply Json.Proper.object
    · exact List.nodup_singleton _
    · intro field hfield
      rw [List.mem_singleton.mp hfield]
      exact .string _
  telemetry := by decide

def noDigest (_ : Text) : Text := []

def emptySpool : State := ⟨spoolOf noDigest [], fun _ => none, 0⟩

def appending : List Move :=
  .call (.append anEvent 1) :: ["", "", "a", "", "", "", "", ""].map fun text =>
    .op 0 (.works text.toList 0 true)

def behindAppend : Option State :=
  ((spool PlainToonl.toonl noDigest).machine (Starts PlainToonl.toonl noDigest)).execIf faultless
    emptySpool appending

theorem one_append : ∃ s, behindAppend = some s ∧ s.world.appended.length = 1 ∧
    s.world.NothingLost PlainToonl.toonl noDigest := by
  have hlength : (behindAppend.map fun s => s.world.appended.length) = some 1 := by decide +kernel
  obtain ⟨s, hs, happ⟩ := Option.map_eq_some_iff.mp hlength
  refine ⟨s, hs, happ, ?_⟩
  apply spool_loses_nothing PlainToonl.toonl noDigest PlainToonl.toonl_lawful s
  refine ⟨emptySpool, appending, ⟨⟨begins_spoolOf noDigest [], ?_⟩, rfl, rfl⟩, ?_⟩
  · rintro line ⟨⟩
  · exact (Machine.run_of_execIf hs).mono fun _ _ => spared_of_faultless

def oops : Text := "oops".toList

def oopsDigest (_ : Text) : Text := "d13f2eadd4ed5b027fa773a2".toList

def refusing : List Move :=
  .call (.drain 1) :: [("", 0, true), ("", 0, true), ("", 0, true), ("", 0, true), ("", 0, true),
    ("", 5, true), ("", 0, true), ("", 0, true), ("", 5, true), ("", 0, true), ("", 0, true),
    ("", 0, true), ("", 0, false), ("c", 0, true), ("t", 0, true), ("", 0, true), ("", 0, true),
    ("", 0, true)].map fun answer => .op 0 (.works answer.1.toList answer.2.1 answer.2.2)

def oopsSpool : State := ⟨spoolOf oopsDigest [oops], fun _ => none, 0⟩

def behindRefusal : Option State :=
  ((spool PlainToonl.toonl oopsDigest).machine (World.Begins PlainToonl.toonl oopsDigest)).exec
    oopsSpool refusing

/-- The text is in no file any more, nor is it pending, nor was it accepted. -/
def forgotten (w : World) : Bool :=
  (w.files.all fun fd => (w.content fd).isEmpty) && w.accepted.isEmpty &&
    (pendingCorrectionEntries PlainToonl.toonl w.corrections).isEmpty && oops ∈ w.rawLines

/-- A text that is no event is refused, and what is recorded has nothing to retry. -/
theorem refused_text : ¬ ∀ (T : Toonl) (digest : Text → Text), T.Lawful → ∀ s,
    ((spool T digest).machine (World.Begins T digest)).Reach anyStep s →
      s.world.NothingLost T digest := by
  intro hall
  have hforg : (behindRefusal.map fun s => forgotten s.world) = some true := by
    decide +kernel
  obtain ⟨s, hs, hforg⟩ := Option.map_eq_some_iff.mp hforg
  have hreach : ((spool PlainToonl.toonl oopsDigest).machine
      (World.Begins PlainToonl.toonl oopsDigest)).Reach anyStep s :=
    ⟨oopsSpool, refusing, ⟨begins_spoolOf oopsDigest [oops], rfl, rfl⟩, Machine.run_of_exec hs⟩
  have hkept := hall PlainToonl.toonl oopsDigest PlainToonl.toonl_lawful s hreach
  unfold forgotten at hforg
  simp only [Bool.and_eq_true, List.all_eq_true, List.isEmpty_iff, decide_eq_true_eq] at hforg
  obtain ⟨⟨⟨hfil, hacc⟩, hpend⟩, hline⟩ := hforg
  rcases hkept.lines oops hline with ⟨fd, hfd, hentry⟩ | hentry | hentry
  · unfold World.entries at hentry
    rw [hfil fd hfd] at hentry
    cases hentry
  · rw [hpend] at hentry
    cases hentry
  · rw [hacc] at hentry
    cases hentry

end

end Redskilled.Telemetry
