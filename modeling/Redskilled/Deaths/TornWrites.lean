import Redskilled.Deaths.PlainDeaths

/-!
# Torn writes on the lane of deaths

A tail that is a whole line but for its newline, or that is torn in a last cell that can
still be read, is a line like any other once it is ended. A tail that lacks cells is not:
the next writer ends its line, and from then on no reader decodes the lane, and no
compaction either.
-/
namespace Redskilled.Deaths
open Foundation Lane List

variable {ν : Type*} {toonl : DeathToonl ν} {numbers : Numbers ν} {dateParse : Text → Option ℤ}

section
variable (toonl : DeathToonl ν) (numbers : Numbers ν)

/-- The tail is nothing, a header, or the row of a record under the header before it. -/
def Closable (lane : Bytes) : Prop :=
  incompleteTail newline lane = [] ∨ isHeader (incompleteTail newline lane) = true ∨
    ((lastHeader lane).bind (readDeath toonl numbers · (incompleteTail newline lane))).isSome

/-- The lane decodes, and its records and the dropped ones are the acknowledged ones and
what crashed appends left as rows, each as often. -/
def Kept [DecidableEq ν] (run : LaneRun ν) : Prop :=
  ∃ records, decodeProcessDeathRecords toonl numbers run.lane = some records ∧
    (records ++ run.shed).Perm (run.acked ++ run.leftovers)

end

lemma decode_eq (raw : Bytes) :
    decodeProcessDeathRecords toonl numbers raw = parseText (readDeath toonl numbers) raw := by
  unfold decodeProcessDeathRecords parseText
  rw [completeLines_drop, parseLines_bind]
  rfl

lemma readDeath_line (law : toonl.Lawful) (order : KeyOrder) (record : ProcessDeathRecord ν) :
    readDeath toonl numbers (toonl.header (toRow order record))
      (toonl.line (toRow order record)) = some record := by
  unfold readDeath
  rw [law.reads_back, Option.bind_some, toDeathRecord_toRow]

variable {lane : Bytes}

lemma endsClean_iff : endsClean lane = true ↔ incompleteTail newline lane = [] := by
  rcases eq_nil_or_concat lane with rfl | ⟨front, last, rfl⟩
  · simp [endsClean, incompleteTail]
  · unfold endsClean incompleteTail
    by_cases hlast : last = newline
    · simp [hlast, rtakeWhile_concat_neg]
    · simp [hlast, rtakeWhile_concat_pos]

lemma atBoundary_of_tail (h : incompleteTail newline lane = []) : AtBoundary newline lane := by
  have hspl := @drop_append_tail _ _ newline lane
  rw [h, append_nil] at hspl
  exact hspl

lemma tail_of_atBoundary (h : AtBoundary newline lane) : incompleteTail newline lane = [] := by
  rcases atBoundary_iff.mp h with rfl | ⟨front, rfl⟩
  · rfl
  · rw [← endsClean_iff]
    simp [endsClean]

lemma separator_of_clean (h : incompleteTail newline lane = []) : separator lane = [] := by
  rw [separator, if_pos (endsClean_iff.mpr h)]

lemma separator_of_torn (h : incompleteTail newline lane ≠ []) : separator lane = [newline] := by
  rw [separator, if_neg (fun hclean => h (endsClean_iff.mp hclean))]

lemma segment_eq (append : DeathAppend ν) :
    append.segment toonl = toonl.header (toRow append.order append.record) ++ [newline] ++
      (toonl.line (toRow append.order append.record) ++ [newline]) := by
  simp [DeathAppend.segment, unlines]

lemma completeLines_take_line {line : Bytes} (h : newline ∉ line) (written : ℕ) :
    completeLines newline ((line ++ [newline]).take written) =
      if written ≤ line.length then [] else [line] := by
  split_ifs with hshort
  · rw [take_append_of_le_length hshort]
    apply completeLines_of_notMem
    intro hmem
    exact h (mem_of_mem_take hmem)
  · rw [take_of_length_le (by simp; omega), completeLines_line h]

lemma parse_segment (law : toonl.Lawful) (append : DeathAppend ν) (written : ℕ)
    (header : Option Bytes) :
    parseLines (readDeath toonl numbers) header
        (completeLines newline ((append.segment toonl).take written)) =
      some (if (append.segment toonl).length ≤ written then [append.record] else []) := by
  have hheader := law.newline_header append.order append.record
  have hline := law.newline_line append.order append.record
  rw [segment_eq]
  by_cases hshort : written ≤ (toonl.header (toRow append.order append.record)).length + 1
  · rw [take_append_of_le_length (by simpa using hshort), completeLines_take_line hheader]
    have hnot : ¬ (toonl.header (toRow append.order append.record) ++ [newline] ++
        (toonl.line (toRow append.order append.record) ++ [newline])).length ≤ written := by
      simp only [length_append, length_singleton]
      omega
    rw [if_neg hnot]
    split_ifs
    · rfl
    · rw [parseLines_header (law.header_isHeader _ _)]
      rfl
  · have hwhole : (toonl.header (toRow append.order append.record) ++ [newline]).length ≤
        written := by
      simp only [length_append, length_singleton]
      omega
    have hbound : AtBoundary newline
        (toonl.header (toRow append.order append.record) ++ [newline]) :=
      atBoundary_iff.mpr (.inr ⟨_, rfl⟩)
    rw [take_append, take_of_length_le hwhole, completeLines_append hbound,
      completeLines_line hheader, completeLines_take_line hline, singleton_append,
      parseLines_header (law.header_isHeader _ _)]
    simp only [length_append, length_singleton]
    split_ifs with hrow hlong hlong
    · omega
    · rfl
    · have hread : (some (toonl.header (toRow append.order append.record))).bind
          (readDeath toonl numbers · (toonl.line (toRow append.order append.record))) =
            some append.record := readDeath_line law _ _
      rw [parseLines_row (law.line_notHeader _ _) hread]
      rfl
    · omega

lemma parse_closed {records : List (ProcessDeathRecord ν)}
    (htorn : incompleteTail newline lane ≠ []) (hclos : Closable toonl numbers lane)
    (hrec : parseText (readDeath toonl numbers) lane = some records) :
    parseText (readDeath toonl numbers) (lane ++ [newline]) =
      some (records ++ closedRow toonl numbers lane) := by
  unfold parseText at hrec ⊢
  rw [completeLines_append_tail, completeLines_line notMem_tail, parseLines_append, hrec,
    Option.bind_some]
  have hheader : governing none (completeLines newline lane) = lastHeader lane := rfl
  rw [hheader]
  unfold closedRow
  rcases hclos with hclean | hhead | hrow
  · exact absurd hclean htorn
  · rw [if_pos (.inr hhead), parseLines_header hhead]
    rfl
  · cases hhead : isHeader (incompleteTail newline lane) with
    | true =>
      rw [if_pos (.inr hhead), parseLines_header hhead]
      rfl
    | false =>
      obtain ⟨row, hrow⟩ := Option.isSome_iff_exists.mp hrow
      rw [if_neg (by simp [htorn, hhead]), parseLines_row hhead hrow, hrow]
      rfl

lemma parse_unclosable (hclos : ¬ Closable toonl numbers lane) :
    parseText (readDeath toonl numbers) (lane ++ [newline]) = none := by
  have hhead : isHeader (incompleteTail newline lane) = false := by
    cases hhead : isHeader (incompleteTail newline lane) with
    | true => exact absurd (.inr (.inl hhead)) hclos
    | false => rfl
  have hrow : (lastHeader lane).bind
      (readDeath toonl numbers · (incompleteTail newline lane)) = none := by
    cases hrow : (lastHeader lane).bind
        (readDeath toonl numbers · (incompleteTail newline lane)) with
    | none => rfl
    | some row => exact absurd (.inr (.inr (by rw [hrow]; rfl))) hclos
  unfold parseText
  rw [completeLines_append_tail, completeLines_line notMem_tail, parseLines_append]
  have hnone : parseLines (readDeath toonl numbers) (governing none (completeLines newline lane))
      [incompleteTail newline lane] = none :=
    parseLines_none hhead hrow
  rw [hnone]
  cases parseLines (readDeath toonl numbers) none (completeLines newline lane) <;> rfl

section
variable {run : LaneRun ν} {append : DeathAppend ν} {records : List (ProcessDeathRecord ν)}

def addedRow (toonl : DeathToonl ν) (run : LaneRun ν) (append : DeathAppend ν) :
    List (ProcessDeathRecord ν) :=
  let text := separator run.lane ++ append.segment toonl
  if append.finish.reaches text = text then [append.record] else []

lemma take_eq_self_iff {text : Bytes} {written : ℕ} :
    text.take written = text ↔ text.length ≤ written :=
  List.take_eq_self_iff text

lemma reaches_eq_take (finish : AppendEnd) (text : Bytes) :
    ∃ written, finish.reaches text = text.take written := by
  cases finish with
  | acknowledged => exact ⟨text.length, (take_length).symm⟩
  | crashedEarly => exact ⟨0, rfl⟩
  | crashed written => exact ⟨written, rfl⟩

lemma segment_ne_nil (append : DeathAppend ν) : append.segment toonl ≠ [] := by
  rw [segment_eq]
  simp

lemma parse_written (law : toonl.Lawful)
    (hclos : append.finish.reaches (separator run.lane ++ append.segment toonl) = [] ∨
      Closable toonl numbers run.lane)
    (hrec : parseText (readDeath toonl numbers) run.lane = some records) :
    parseText (readDeath toonl numbers) (run.lane ++
        append.finish.reaches (separator run.lane ++ append.segment toonl)) =
      some (records ++
        ((if append.finish.reaches (separator run.lane ++ append.segment toonl) = [] then []
          else closedRow toonl numbers run.lane) ++ addedRow toonl run append)) := by
  obtain ⟨written, hwritt⟩ :=
    reaches_eq_take append.finish (separator run.lane ++ append.segment toonl)
  unfold addedRow
  simp only [hwritt, take_eq_self_iff] at hclos ⊢
  have hne : separator run.lane ++ append.segment toonl ≠ [] := by
    simp [segment_ne_nil]
  by_cases hempty : (separator run.lane ++ append.segment toonl).take written = []
  · have hzero : written = 0 := by
      rcases take_eq_nil_iff.mp hempty with h | h
      · exact h
      · exact absurd h hne
    subst hzero
    have hshort : ¬ (separator run.lane ++ append.segment toonl).length ≤ 0 := by
      have := length_pos_iff.mpr hne
      omega
    rw [if_pos hempty, if_neg hshort, hempty, append_nil, hrec]
    simp
  · have hcloses := hclos.resolve_left hempty
    rw [if_neg hempty]
    by_cases htail : incompleteTail newline run.lane = []
    · rw [separator_of_clean htail, nil_append,
        parseText_append (atBoundary_of_tail htail), hrec, Option.bind_some,
        parse_segment law]
      have hclosed : closedRow toonl numbers run.lane = [] := by
        unfold closedRow
        rw [if_pos (.inl htail)]
      rw [hclosed]
      rfl
    · obtain ⟨rest, rfl⟩ : ∃ rest, written = rest + 1 := by
        apply Nat.exists_eq_succ_of_ne_zero
        rintro rfl
        exact hempty rfl
      have hbound : AtBoundary newline (run.lane ++ [newline]) :=
        atBoundary_iff.mpr (.inr ⟨_, rfl⟩)
      have htext : run.lane ++ (newline :: append.segment toonl).take (rest + 1) =
          (run.lane ++ [newline]) ++ (append.segment toonl).take rest := by
        simp
      rw [separator_of_torn htail, singleton_append, htext, parseText_append hbound,
        parse_closed htail hcloses hrec, Option.bind_some, parse_segment law]
      simp [append_assoc]

lemma parse_encodeLines (law : toonl.Lawful) (inHand : Option Bytes)
    (records : List (ProcessDeathRecord ν)) :
    parseLines (readDeath toonl numbers) inHand (encodeLines toonl inHand records) =
      some records := by
  induction records generalizing inHand with
  | nil => rfl
  | cons record records ih =>
    have hrow : ∀ rest, parseLines (readDeath toonl numbers)
        (some (toonl.header (toRow .decoded record)))
        (toonl.line (toRow .decoded record) :: rest) = (parseLines (readDeath toonl numbers)
            (some (toonl.header (toRow .decoded record))) rest).map (record :: ·) := by
      intro rest
      exact parseLines_row (law.line_notHeader _ _) (readDeath_line law _ _)
    unfold encodeLines pushLines
    split_ifs with hsame
    · rw [hsame, singleton_append, hrow, ih]
      rfl
    · rw [cons_append, parseLines_header (law.header_isHeader _ _), singleton_append, hrow, ih]
      rfl

lemma newline_encodeLines (law : toonl.Lawful) (inHand : Option Bytes)
    (records : List (ProcessDeathRecord ν)) :
    ∀ line ∈ encodeLines toonl inHand records, newline ∉ line := by
  induction records generalizing inHand with
  | nil =>
    intro line hline
    cases hline
  | cons record records ih =>
    intro line hline
    rcases mem_append.mp hline with hpush | hrest
    · unfold pushLines at hpush
      split_ifs at hpush
      · rw [mem_singleton.mp hpush]
        exact law.newline_line _ _
      · rcases mem_cons.mp hpush with rfl | hpush
        · exact law.newline_header _ _
        · rw [mem_singleton.mp hpush]
          exact law.newline_line _ _
    · exact ih _ line hrest

lemma retainedDeaths_sublist (nowMs : ℤ) (targetBytes : Option ℕ)
    (records : List (ProcessDeathRecord ν)) :
    (retainedDeaths toonl dateParse nowMs targetBytes records).Sublist records := by
  unfold retainedDeaths
  cases targetBytes with
  | none => exact retainAge_sublist _ _ _
  | some target => exact (retainWithin_sublist _ _).trans (retainAge_sublist _ _ _)

lemma decode_encodeDeathLane (law : toonl.Lawful) (records : List (ProcessDeathRecord ν)) :
    decodeProcessDeathRecords toonl numbers (encodeDeathLane toonl records) = some records := by
  rw [decode_eq, parseText, encodeDeathLane,
    completeLines_unlines (newline_encodeLines law none records), parse_encodeLines law]

variable [DecidableEq ν]

lemma Kept.written (law : toonl.Lawful)
    (hclos : append.finish.reaches (separator run.lane ++ append.segment toonl) = [] ∨
      Closable toonl numbers run.lane) (h : Kept toonl numbers run) :
    Kept toonl numbers (writeSegment toonl numbers run append) := by
  obtain ⟨records, hrec, hperm⟩ := h
  rw [decode_eq] at hrec
  refine ⟨_, (decode_eq _).trans (parse_written law hclos hrec), ?_⟩
  rw [perm_iff_count] at hperm ⊢
  intro record
  have hcount := hperm record
  unfold writeSegment addedRow
  simp only [count_append] at hcount ⊢
  cases hfin : append.finish with
  | acknowledged =>
    simp only [AppendEnd.reaches, if_true, ne_eq, not_true_eq_false, false_and, if_false,
      count_append, count_nil]
    omega
  | crashedEarly =>
    simp only [reduceCtorEq, if_false, ne_eq, not_false_eq_true, true_and]
    omega
  | crashed written =>
    simp only [reduceCtorEq, if_false, ne_eq, not_false_eq_true, true_and]
    omega

lemma compact_spec (law : toonl.Lawful) {nowMs : ℤ} {forced : Option ℕ} {raw lane : Bytes}
    {dropped : List (ProcessDeathRecord ν)}
    (h : compactProcessDeathLaneToTarget toonl numbers dateParse nowMs forced raw =
      some (lane, dropped)) :
    ∃ records kept, decodeProcessDeathRecords toonl numbers raw = some records ∧
      decodeProcessDeathRecords toonl numbers lane = some kept ∧
      (kept ++ dropped).Perm records ∧
      (forced.isSome → incompleteTail newline lane = []) := by
  unfold compactProcessDeathLaneToTarget at h
  cases hrec : decodeProcessDeathRecords toonl numbers raw with
  | none =>
    rw [hrec] at h
    cases h
  | some records =>
    simp only [hrec] at h
    split at h
    · next hleft =>
        obtain ⟨rfl, rfl⟩ := Prod.mk.inj (Option.some.inj h)
        refine ⟨records, records, rfl, hrec, by simp, ?_⟩
        intro hforc
        cases forced <;> simp_all
    · obtain ⟨hlane, hdropp⟩ := Prod.mk.inj (Option.some.inj h)
      refine ⟨records, _, rfl, hlane ▸ decode_encodeDeathLane law _, ?_, ?_⟩
      · rw [← hdropp]
        apply subperm_append_diff_self_of_count_le
        intro record _
        exact (retainedDeaths_sublist _ _ _).count_le record
      · intro _
        rw [← hlane]
        exact tail_of_atBoundary (atBoundary_unlines _)

lemma Kept.compacted (law : toonl.Lawful) {nowMs : ℤ} {forced : Option ℕ} {lane : Bytes}
    {dropped : List (ProcessDeathRecord ν)} (h : Kept toonl numbers run)
    (hcomp : compactProcessDeathLaneToTarget toonl numbers dateParse nowMs forced run.lane =
      some (lane, dropped)) :
    Kept toonl numbers { run with lane := lane, shed := run.shed ++ dropped } := by
  obtain ⟨records, hrec, hperm⟩ := h
  obtain ⟨found, kept, hfound, hkept, hspl, -⟩ := compact_spec law hcomp
  rw [hrec] at hfound
  cases hfound
  refine ⟨kept, hkept, ?_⟩
  rw [perm_iff_count] at hperm hspl ⊢
  intro record
  have hcount := hperm record
  have hkeeps := hspl record
  simp only [count_append] at hcount hkeeps ⊢
  omega

end

section
variable [DecidableEq ν]

variable (toonl numbers) in
/-- Where an append has to end the line of a tail, the tail reads. -/
def StepSound (run : LaneRun ν) : LaneEvent ν → Prop
  | .append append =>
    laneSizeOverCeiling toonl run.lane append = true ∨
      append.finish.reaches (separator run.lane ++ append.segment toonl) = [] ∨
      Closable toonl numbers run.lane
  | .compact _ => True

variable (toonl numbers dateParse) in
inductive Reaches : LaneRun ν → Prop
  | start : Reaches .start
  | step (run : LaneRun ν) (event : LaneEvent ν) : Reaches run →
      StepSound toonl numbers run event → Reaches (laneStep toonl numbers dateParse run event)

lemma Kept.start : Kept toonl numbers (.start : LaneRun ν) :=
  ⟨[], by rw [decode_eq]; rfl, .refl _⟩

variable {run : LaneRun ν}

lemma Kept.step (law : toonl.Lawful) {event : LaneEvent ν}
    (h : Kept toonl numbers run) (hsound : StepSound toonl numbers run event) :
    Kept toonl numbers (laneStep toonl numbers dateParse run event) := by
  cases event with
  | append append =>
    unfold laneStep appendProcessDeathRecord
    simp only
    split
    · split
      · exact h
      · split
        · exact h
        · next lane dropped hcomp =>
            obtain ⟨-, -, -, -, -, hclean⟩ := compact_spec law hcomp
            apply Kept.written law _ (h.compacted law hcomp)
            exact .inr (.inl (hclean rfl))
    · next hfits =>
        exact h.written law (hsound.resolve_left hfits)
  | compact nowMs =>
    unfold laneStep
    simp only
    split
    · exact h
    · next lane dropped hcomp => exact h.compacted law hcomp

/-- On a lane on which every tail that had to be closed could be read, every
acknowledged record that retention did not drop is returned by every decode, as often as
it was acknowledged; the only other records are rows that crashed appends left. -/
theorem acknowledged_deaths_returned (law : toonl.Lawful) {run : LaneRun ν}
    (h : Reaches toonl numbers dateParse run) : Kept toonl numbers run := by
  induction h with
  | start => exact Kept.start
  | step run event _ hsound ih => exact ih.step law hsound

def killedWorker : ProcessDeathRecord ℕ where
  version := 1
  ts := "2026-08-01T20:00:00.000Z".toList
  kind := .worker
  id := "w1".toList
  pid := 42
  exitPath := .signal
  signal := some "SIGTERM".toList
  exitCode := none
  lastPhase := "boot".toList
  detail := none
  scope := none
  memoryCeiling := none
  scopeDegradation := none
  uptimeS := 3
  rssKb := 4
  maxRssKb := 5
  userCpuUs := 6
  systemCpuUs := 7
  minorPageFaults := 8
  majorPageFaults := 9
  voluntaryCtxSwitches := 10
  involuntaryCtxSwitches := 11

def deathOf (finish : AppendEnd) : LaneEvent ℕ :=
  .append { record := killedWorker, order := .built, clockMs := 0, finish := finish }

def behind (run : LaneRun ℕ) (finish : AppendEnd) : LaneRun ℕ :=
  laneStep PlainDeaths.toonl PlainDeaths.numbers (fun _ => none) run (deathOf finish)

lemma Reaches.behind {run : LaneRun ℕ} {finish : AppendEnd}
    (h : Reaches PlainDeaths.toonl PlainDeaths.numbers (fun _ => none) run)
    (hclos : Closable PlainDeaths.toonl PlainDeaths.numbers run.lane) :
    Reaches PlainDeaths.toonl PlainDeaths.numbers (fun _ => none) (behind run finish) :=
  .step run (deathOf finish) h (.inr (.inr hclos))

theorem lost_newline_returned : Kept PlainDeaths.toonl PlainDeaths.numbers
    (behind (behind (behind .start .acknowledged) (.crashed 468)) .acknowledged) := by
  have hfirst : Closable PlainDeaths.toonl PlainDeaths.numbers
      (behind .start .acknowledged).lane := .inl (by decide +kernel)
  have hsec : Closable PlainDeaths.toonl PlainDeaths.numbers
      (behind (behind .start .acknowledged) (.crashed 468)).lane :=
    .inr (.inr (by decide +kernel))
  apply acknowledged_deaths_returned PlainDeaths.lawful
  exact (Reaches.start.behind (.inl rfl)).behind hfirst |>.behind hsec

lemma decode_unclosable {append : DeathAppend ν}
    (hfits : laneSizeOverCeiling toonl run.lane append = false)
    (hreturns : append.finish = .acknowledged) (htail : ¬ Closable toonl numbers run.lane) :
    decodeProcessDeathRecords toonl numbers
      (appendProcessDeathRecord toonl numbers dateParse run append).lane = none := by
  have htorn : incompleteTail newline run.lane ≠ [] := by
    intro hclean
    exact htail (.inl hclean)
  unfold appendProcessDeathRecord
  rw [if_neg (by simp [hfits]), decode_eq]
  unfold writeSegment
  rw [hreturns, separator_of_torn htorn]
  have htext : run.lane ++ AppendEnd.acknowledged.reaches ([newline] ++ append.segment toonl) =
      (run.lane ++ [newline]) ++ append.segment toonl := by
    simp [AppendEnd.reaches]
  simp only [htext]
  exact parseText_append_none (parse_unclosable htail) _

/-- Such a lane stays so: appends write behind it or throw, and a compaction throws. -/
lemma decode_none_step {event : LaneEvent ν}
    (h : decodeProcessDeathRecords toonl numbers run.lane = none) :
    decodeProcessDeathRecords toonl numbers (laneStep toonl numbers dateParse run event).lane =
      none := by
  have hthr : ∀ nowMs forced,
      compactProcessDeathLaneToTarget toonl numbers dateParse nowMs forced run.lane = none := by
    intro nowMs forced
    unfold compactProcessDeathLaneToTarget
    rw [h]
  cases event with
  | append append =>
    unfold laneStep appendProcessDeathRecord
    simp only [hthr]
    split
    · split <;> exact h
    · rw [decode_eq] at h ⊢
      exact parseText_append_none h _
  | compact nowMs =>
    unfold laneStep
    simp only [hthr]
    exact h

/-- Once an append has ended the line of a tail that cannot be read, the lane is never decoded
again. -/
theorem unreadable_for_good {append : DeathAppend ν}
    (hfits : laneSizeOverCeiling toonl run.lane append = false)
    (hreturns : append.finish = .acknowledged) (htail : ¬ Closable toonl numbers run.lane)
    (events : List (LaneEvent ν)) :
    decodeProcessDeathRecords toonl numbers (events.foldl (laneStep toonl numbers dateParse)
      (appendProcessDeathRecord toonl numbers dateParse run append)).lane = none := by
  induction events using reverseRecOn with
  | nil => exact decode_unclosable hfits hreturns htail
  | append_singleton events event ih =>
    rw [foldl_append, foldl_cons, foldl_nil]
    exact decode_none_step ih

theorem torn_row_for_good : decodeProcessDeathRecords PlainDeaths.toonl PlainDeaths.numbers
    ([deathOf .acknowledged, .compact 0].foldl
      (laneStep PlainDeaths.toonl PlainDeaths.numbers fun _ => none)
      (behind (behind (behind .start .acknowledged) (.crashed 300)) .acknowledged)).lane =
        none := by
  have hfits : laneSizeOverCeiling PlainDeaths.toonl
      (behind (behind .start .acknowledged) (.crashed 300)).lane
      ⟨killedWorker, .built, 0, .acknowledged⟩ = false := by
    decide +kernel
  have htorn : ¬ Closable PlainDeaths.toonl PlainDeaths.numbers
      (behind (behind .start .acknowledged) (.crashed 300)).lane := by
    rintro (h | h | h)
    · exact absurd h (by decide +kernel)
    · exact absurd h (by decide +kernel)
    · exact absurd h (by decide +kernel)
  exact unreadable_for_good hfits rfl htorn _

/-- The row behind a torn one makes a lane that cannot be read. -/
theorem torn_row_refuses_lane : ¬ ∀ toonl : DeathToonl ℕ, toonl.Lawful →
    ∀ events : List (LaneEvent ℕ), Kept toonl PlainDeaths.numbers
      (events.foldl (laneStep toonl PlainDeaths.numbers fun _ => none) .start) := by
  intro h
  obtain ⟨records, hrec, -⟩ := h PlainDeaths.toonl PlainDeaths.lawful
    [deathOf .acknowledged, deathOf (.crashed 300), deathOf .acknowledged]
  have href : decodeProcessDeathRecords PlainDeaths.toonl PlainDeaths.numbers
      (behind (behind (behind .start .acknowledged) (.crashed 300)) .acknowledged).lane = none := by
    decide +kernel
  unfold behind at href
  simp only [foldl_cons, foldl_nil] at hrec
  rw [href] at hrec
  cases hrec

end
end Redskilled.Deaths
