import Redskilled.Lane.Encode

/-!
# The tolerant row decoder

A lane outlives the daemons that write it. Its complete lines are read in order: a
header governs the rows behind it, a row that no governing header can hold is
skipped and counted, and what a crash left behind the last newline is no line at
all.

An event that is read back is the event that was written, but for empty texts: the
decoder takes an empty text in a nullable field for no text.
-/
namespace Redskilled.Lane
open Foundation List

variable {ν : Type*}

def isDigit (b : UInt8) : Bool := 48 ≤ b && b ≤ 57

/-- The bytes that `.` matches: no line feed, no carriage return, and neither of
the separators U+2028 and U+2029. -/
def terminatorFree (bytes : Bytes) : Bool :=
  bytes.all (fun b => b ≠ 10 && b ≠ 13) &&
    bytes.tails.all fun t => !([226, 128, 168].isPrefixOf t) && !([226, 128, 169].isPrefixOf t)

/-- `/^\[\d*\]\{.*\}:$/`. -/
def isHeader (line : Bytes) : Bool :=
  match line with
  | 91 :: rest =>
    match rest.dropWhile isDigit with
    | 93 :: 123 :: body => [125, 58].isSuffixOf body && terminatorFree (body.take (body.length - 2))
    | _ => false
  | _ => false

/-- The header that governs what follows some lines. -/
def governing (header : Option Bytes) (lines : List Bytes) : Option Bytes :=
  lines.foldl (fun header line => if isHeader line then some line else header) header

def lastHeader (file : Bytes) : Option Bytes := governing none (completeLines newline file)

structure DecodedLane (ν : Type*) where
  records : List (Row ν)
  /-- The numbers of the lines whose rows no governing header could decode. -/
  malformed : List ℕ

section
variable (toon : Toon ν) (conv : Conversions ν)

def decodeFrom (header : Option Bytes) (number : ℕ) : List Bytes → DecodedLane ν
  | [] => ⟨[], []⟩
  | line :: lines =>
    if isHeader line then decodeFrom (some line) (number + 1) lines
    else
      let rest := decodeFrom header (number + 1) lines
      match header.bind (toon.parseRecords · line) with
      | some rows => { rest with records := rows ++ rest.records }
      | none => { rest with malformed := number :: rest.malformed }

def decodeLaneRows (lines : List Bytes) : DecodedLane ν := decodeFrom toon none 1 lines

/-- The event of one record, if it is one. -/
def hostEvent [DecidableEq ν] (row : Row ν) : Option (HostEvent ν) :=
  (hostEventKind conv row).map fun kind => decodeHostEventRow conv kind row

def parseEventLane [DecidableEq ν] (raw : Bytes) : List (HostEvent ν) :=
  (decodeLaneRows toon (completeLines newline raw)).records.filterMap (hostEvent conv)

end

section
variable {toon : Toon ν} {conv : Conversions ν}

lemma governing_append (header : Option Bytes) (a b : List Bytes) :
    governing header (a ++ b) = governing (governing header a) b :=
  foldl_append

lemma governing_of_forall {header : Option Bytes} {ls : List Bytes}
    (h : ∀ l ∈ ls, isHeader l → some l = header) : governing header ls = header := by
  induction ls with
  | nil => rfl
  | cons l ls ih =>
    have hrest := ih fun l' hl' => h l' (mem_cons_of_mem _ hl')
    by_cases hl : isHeader l
    · have hself := h l mem_cons_self hl
      simpa [governing, hl, hself] using hrest
    · simpa [governing, hl] using hrest

lemma lastHeader_drop (file : Bytes) :
    lastHeader (dropIncompleteTail newline file) = lastHeader file := by
  rw [lastHeader, completeLines_drop, lastHeader]

lemma lastHeader_append (file b : Bytes) : lastHeader (dropIncompleteTail newline file ++ b) =
      governing (lastHeader file) (completeLines newline b) := by
  rw [lastHeader, completeLines_append (atBoundary_drop file), governing_append,
    completeLines_drop, lastHeader]

lemma records_cons (header : Option Bytes) (n : ℕ) (line : Bytes) (lines : List Bytes) :
    (decodeFrom toon header n (line :: lines)).records =
      if isHeader line then (decodeFrom toon (some line) (n + 1) lines).records
      else (header.bind (toon.parseRecords · line)).getD [] ++
        (decodeFrom toon header (n + 1) lines).records := by
  rw [decodeFrom]
  split
  · rfl
  · cases header.bind (toon.parseRecords · line) with
    | none => rfl
    | some rows => rfl

lemma records_number (header : Option Bytes) (m n : ℕ) (lines : List Bytes) :
    (decodeFrom toon header m lines).records = (decodeFrom toon header n lines).records := by
  induction lines generalizing header m n with
  | nil => rfl
  | cons line lines ih => simp only [records_cons, ih _ (m + 1) (n + 1)]

lemma records_append (header : Option Bytes) (n : ℕ) (a b : List Bytes) :
    (decodeFrom toon header n (a ++ b)).records = (decodeFrom toon header n a).records ++
        (decodeFrom toon (governing header a) n b).records := by
  induction a generalizing header n with
  | nil => rfl
  | cons line a ih =>
    rw [cons_append, records_cons, records_cons, ih, ih,
      records_number (governing (some line) a) (n + 1) n,
      records_number (governing header a) (n + 1) n]
    split_ifs with hline
    · simp [governing, hline]
    · simp [governing, hline]

lemma parse_append [DecidableEq ν] {a b : Bytes} (h : AtBoundary newline a) :
    parseEventLane toon conv (a ++ b) = parseEventLane toon conv a ++
        (decodeFrom toon (governing none (completeLines newline a)) 1
          (completeLines newline b)).records.filterMap (hostEvent conv) := by
  simp only [parseEventLane, decodeLaneRows, completeLines_append h, records_append,
    filterMap_append]

lemma parse_prefix [DecidableEq ν] (a b : Bytes) :
    parseEventLane toon conv a <+: parseEventLane toon conv (a ++ b) := by
  rw [parseEventLane, parseEventLane, completeLines_append_tail, decodeLaneRows, decodeLaneRows,
    records_append, filterMap_append]
  exact prefix_append _ _

lemma parse_drop [DecidableEq ν] (raw : Bytes) :
    parseEventLane toon conv (dropIncompleteTail newline raw) = parseEventLane toon conv raw := by
  rw [parseEventLane, completeLines_drop, parseEventLane]

end

/-- What the format promises of the rows of events: a header is told from a row,
neither has a newline in it, and under its own header a row is read back. -/
structure Toon.Lawful (toon : Toon ν) (conv : Conversions ν) : Prop where
  header_isHeader : ∀ event, isHeader (toon.header (toRow conv event)) = true
  line_notHeader : ∀ event, isHeader (toon.line (toRow conv event)) = false
  newline_header : ∀ event, newline ∉ toon.header (toRow conv event)
  newline_line : ∀ event, newline ∉ toon.line (toRow conv event)
  reads_back : ∀ event, toon.parseRecords (toon.header (toRow conv event))
    (toon.line (toRow conv event)) = some [toRow conv event]

/-- The emitter has no header in hand, or the one that governs. -/
def Emitter.Agrees (emitter : Emitter) (header : Option Bytes) : Prop :=
  ∀ h, emitter = some h → header = some h

section
variable {toon : Toon ν} {conv : Conversions ν} {emitter : Emitter} {header : Option Bytes}

lemma newline_notMem_lines (law : toon.Lawful conv) (event : HostEvent ν) :
    ∀ l ∈ emitter.lines toon (toRow conv event), newline ∉ l := by
  intro l hl
  unfold Emitter.lines at hl
  split_ifs at hl with hsame
  · rw [mem_singleton.mp hl]
    exact law.newline_line event
  · rcases mem_cons.mp hl with rfl | hl
    · exact law.newline_header event
    · rw [mem_singleton.mp hl]
      exact law.newline_line event

lemma governing_lines (law : toon.Lawful conv) (event : HostEvent ν) (h : emitter.Agrees header) :
    governing header (emitter.lines toon (toRow conv event)) = some (headerOf toon conv event) := by
  unfold Emitter.lines
  split_ifs with hsame
  · simp [governing, law.line_notHeader, h _ hsame, headerOf]
  · simp [governing, law.line_notHeader, law.header_isHeader, headerOf]

lemma header_of_mem_lines (law : toon.Lawful conv) (event : HostEvent ν) {emitter : Emitter} :
    ∀ l ∈ emitter.lines toon (toRow conv event), isHeader l → l = headerOf toon conv event := by
  intro l hl hhead
  have hline := law.line_notHeader event
  unfold Emitter.lines at hl
  split_ifs at hl with hsame
  · rw [mem_singleton.mp hl, hline] at hhead
    cases hhead
  · rcases mem_cons.mp hl with rfl | hl
    · rfl
    · rw [mem_singleton.mp hl, hline] at hhead
      cases hhead

/-- The beginning of an append brings the header, if it is long enough or if there
is nothing to bring. -/
lemma governing_take (law : toon.Lawful conv) (event : HostEvent ν) {emitter : Emitter}
    {header : Option Bytes} {bytes : ℕ}
    (h : header = some (headerOf toon conv event) ∨
      emitter ≠ some (headerOf toon conv event) ∧ (headerOf toon conv event).length < bytes) :
    governing header
        (completeLines newline ((emitter.push toon (toRow conv event)).1.take bytes)) =
      some (headerOf toon conv event) := by
  obtain ⟨j, hj, hfirst⟩ :=
    completeLines_take_unlines (@newline_notMem_lines _ _ _ emitter law event) bytes
  rw [Emitter.push, hj]
  have honly : ∀ l ∈ (emitter.lines toon (toRow conv event)).take j,
      isHeader l → l = headerOf toon conv event :=
    fun l hl => header_of_mem_lines law event l (mem_of_mem_take hl)
  rcases h with rfl | ⟨hne, hlong⟩
  · exact governing_of_forall fun l hl hhead => congrArg some (honly l hl hhead)
  · have hlin : emitter.lines toon (toRow conv event) =
        [headerOf toon conv event, toon.line (toRow conv event)] := if_neg hne
    rw [hlin] at hfirst honly ⊢
    obtain ⟨i, rfl⟩ : ∃ i, j = i + 1 := ⟨j - 1, by have := hfirst _ rfl hlong; omega⟩
    have hhead : governing header [headerOf toon conv event] = some (headerOf toon conv event) := by
      simp [governing, headerOf, law.header_isHeader]
    rw [take_succ_cons, ← singleton_append, governing_append, hhead]
    refine governing_of_forall fun l hl hl' => congrArg some (honly l ?_ hl')
    exact mem_cons_of_mem _ hl

lemma records_lines (law : toon.Lawful conv) (event : HostEvent ν) (h : emitter.Agrees header)
    (n : ℕ) :
    (decodeFrom toon header n (emitter.lines toon (toRow conv event))).records =
      [toRow conv event] := by
  have hread := law.reads_back event
  unfold Emitter.lines
  split_ifs with hsame
  · simp [decodeFrom, law.line_notHeader, h _ hsame, hread]
  · simp [decodeFrom, law.line_notHeader, law.header_isHeader, hread]

lemma agrees_self (h : Bytes) : Emitter.Agrees (some h) (some h) := fun _ => id

lemma agrees_none : Emitter.Agrees encodeToonlLines header := fun _ h => nomatch h

lemma newline_notMem_encode (law : toon.Lawful conv) (events : List (HostEvent ν)) :
    ∀ l ∈ encodeFrom toon conv emitter events, newline ∉ l := by
  induction events generalizing emitter with
  | nil => simp [encodeFrom]
  | cons event events ih =>
    intro l hl
    rcases mem_append.mp hl with hl | hl
    · exact newline_notMem_lines law event l hl
    · exact ih l hl

lemma records_encode (law : toon.Lawful conv) (events : List (HostEvent ν))
    (h : emitter.Agrees header) (n : ℕ) :
    (decodeFrom toon header n (encodeFrom toon conv emitter events)).records =
      events.map (toRow conv) := by
  induction events generalizing emitter header with
  | nil => rfl
  | cons event events ih =>
    rw [encodeFrom, records_append, records_lines law event h, governing_lines law event h,
      ih (agrees_self _)]
    rfl

lemma governing_encode (law : toon.Lawful conv) (events : List (HostEvent ν))
    (last : HostEvent ν) (h : emitter.Agrees header) :
    governing header (encodeFrom toon conv emitter (events ++ [last])) =
      some (headerOf toon conv last) := by
  induction events generalizing emitter header with
  | nil => simpa [encodeFrom] using governing_lines law last h
  | cons event events ih =>
    rw [cons_append, encodeFrom, governing_append, governing_lines law event h]
    exact ih (agrees_self _)

lemma lastHeader_encode (law : toon.Lawful conv) (kept : List (HostEvent ν)) (last : HostEvent ν) :
    lastHeader (encodeEventLane toon conv (kept ++ [last])) = some (headerOf toon conv last) := by
  rw [lastHeader, encodeEventLane, completeLines_unlines (newline_notMem_encode law _),
    governing_encode law kept last agrees_none]

end

def nullableTexts (event : HostEvent ν) : List (Option Text) :=
  [event.procStartTime, event.forkSha, event.logPath, event.unit, event.memoryHigh,
    event.memoryMax, event.admissionVerdict, event.phase, event.step, event.runner, event.model,
    event.baseHeadSha, event.healKind, event.failureMode.join, event.detail, event.signal,
    event.systemdResult, event.journalTail, event.reason]

/-- No nullable text is present and empty. -/
def Plain (event : HostEvent ν) : Prop := some [] ∉ nullableTexts event

instance (event : HostEvent ν) : Decidable (Plain event) :=
  inferInstanceAs (Decidable (some [] ∉ nullableTexts event))

def withMode (event : HostEvent ν) : HostEvent ν :=
  { event with failureMode := some event.failureMode.join }

def nonEmpty (value : Option Text) : Option Text := value.filter (· ≠ [])

/-- The event without its empty texts. -/
def readBack (event : HostEvent ν) : HostEvent ν :=
  { event with
    procStartTime := nonEmpty event.procStartTime
    forkSha := nonEmpty event.forkSha
    logPath := nonEmpty event.logPath
    unit := nonEmpty event.unit
    memoryHigh := nonEmpty event.memoryHigh
    memoryMax := nonEmpty event.memoryMax
    admissionVerdict := nonEmpty event.admissionVerdict
    phase := nonEmpty event.phase
    step := nonEmpty event.step
    runner := nonEmpty event.runner
    model := nonEmpty event.model
    baseHeadSha := nonEmpty event.baseHeadSha
    healKind := nonEmpty event.healKind
    failureMode := some (nonEmpty event.failureMode.join)
    detail := nonEmpty event.detail
    signal := nonEmpty event.signal
    systemdResult := nonEmpty event.systemdResult
    journalTail := nonEmpty event.journalTail
    reason := nonEmpty event.reason }

section
variable (conv : Conversions ν)

@[simp] lemma textOrNull_text (value : Option Text) :
    textOrNull conv (value.map .text) = nonEmpty value := by
  rcases value with _ | _ | _ <;> rfl

@[simp] lemma textOrNull_orNull (value : Option Text) :
    textOrNull conv (orNull (value.map .text)) = nonEmpty value := by
  rcases value with _ | _ | _ <;> rfl

@[simp] lemma numberOrNull_number (value : Option ν) :
    numberOrNull conv (value.map .number) = value := by
  cases value <;> rfl

@[simp] lemma numberOrNull_orNull (value : Option ν) :
    numberOrNull conv (orNull (value.map .number)) = value := by
  cases value <;> rfl

@[simp] lemma textOrNull_getD (t : Text) : (textOrNull conv (some (.text t))).getD [] = t := by
  cases t <;> rfl

@[simp] lemma textOrNull_mode (mode : Option (Option Text)) :
    textOrNull conv (mode.map fun m => (m.map Value.text).getD .null) = nonEmpty mode.join := by
  rcases mode with _ | _ | _ | _ <;> rfl

@[simp] lemma oneOf_word {κ : Type*} [Vocabulary κ] (value : Option κ) :
    oneOf κ (orNull (value.map fun word => (.text (Vocabulary.text word) : Value ν))) = value := by
  cases value with
  | none => rfl
  | some word => exact Vocabulary.ofText_text word

lemma decode_toRow (event : HostEvent ν) :
    decodeHostEventRow conv event.kind (toRow conv event) = readBack event := by
  simp only [decodeHostEventRow, toRow, readBack, Conversions.string, Conversions.number,
    Option.getD_some, textOrNull_text, textOrNull_orNull, numberOrNull_number,
    numberOrNull_orNull, textOrNull_getD, textOrNull_mode, oneOf_word]

lemma hostEventKind_toRow [DecidableEq ν] (event : HostEvent ν) :
    hostEventKind conv (toRow conv event) = some event.kind := by
  simp only [hostEventKind, toRow, nonNull, if_true]
  exact Vocabulary.ofText_text event.kind

lemma hostEvent_toRow [DecidableEq ν] (event : HostEvent ν) :
    hostEvent conv (toRow conv event) = some (readBack event) := by
  rw [hostEvent, hostEventKind_toRow, Option.map_some, decode_toRow]

end

lemma nonEmpty_eq_self {value : Option Text} : nonEmpty value = value ↔ ¬some [] = value := by
  cases value with
  | none => simp [nonEmpty]
  | some t => cases t <;> simp [nonEmpty, Option.filter]

lemma readBack_eq_iff (event : HostEvent ν) : readBack event = withMode event ↔ Plain event := by
  simp only [readBack, withMode, HostEvent.mk.injEq, Option.some.injEq, nonEmpty_eq_self, Plain,
    nullableTexts, mem_cons, not_mem_nil, or_false, not_or, true_and]

lemma parse_encode [DecidableEq ν] {toon : Toon ν} {conv : Conversions ν}
    (law : toon.Lawful conv) (events : List (HostEvent ν)) :
    parseEventLane toon conv (encodeEventLane toon conv events) = events.map readBack := by
  rw [parseEventLane, encodeEventLane, completeLines_unlines (newline_notMem_encode law events),
    decodeLaneRows, records_encode law events agrees_none, filterMap_map]
  have hevents : hostEvent conv ∘ toRow conv = fun event => some (readBack event) := by
    funext event
    exact hostEvent_toRow conv event
  rw [hevents, filterMap_eq_map']

end Redskilled.Lane
