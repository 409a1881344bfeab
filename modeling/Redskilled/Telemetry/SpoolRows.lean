import Redskilled.Foundation.Json
import Redskilled.Foundation.JsMap
import Redskilled.Foundation.Utf8

/-!
# The rows of the telemetry spool

An event is spooled as one flat row under a header of its own; what is not flat becomes the
text of its JSON. Lines of JSON, from before there were rows, are events too, and a line that
is neither is kept as a text. What could not be drained is recorded in a lane of corrections,
where the last word on an entry counts.

A file is the lines that were written to it: whatever writes there writes whole lines.
-/
namespace Redskilled.Telemetry
open Foundation Foundation.Text List

lemma toDigits_head {n : ℕ} (hn : 0 < n) :
    ∃ c t, Nat.toDigits 10 n = c :: t ∧ c ≠ '0' := by
  induction n using Nat.strong_induction_on with
  | _ n ih =>
    rcases Nat.lt_or_ge n 10 with hlt | hge
    · have hdigit : ∀ k < 10, 0 < k → k.digitChar ≠ '0' := by decide
      exact ⟨n.digitChar, [], Nat.toDigits_of_lt_base hlt, hdigit n hlt hn⟩
    · obtain ⟨c, t, hdig, hc⟩ := ih (n / 10) (by omega) (by omega)
      rw [Nat.toDigits_of_base_le (by decide) hge, hdig]
      exact ⟨c, _, rfl, hc⟩

lemma isNumberToken_number (n : ℕ) : isNumberToken (number n) = true := by
  have hdig : ∀ c ∈ number n, c.isDigit = true := fun c hc => isDigit_of_mem_number hc
  have hall : (number n).all isNumberChar = true := by
    apply all_eq_true.mpr
    intro c hc
    unfold isNumberChar
    rw [hdig c hc]
    rfl
  rcases Nat.eq_zero_or_pos n with rfl | hn
  · rfl
  · obtain ⟨c, t, htext, hc⟩ := toDigits_head hn
    have hnumb : number n = c :: t := by rw [← htext, number, Nat.toList_repr]
    rw [hnumb] at hdig hall ⊢
    have hdigit : c.isDigit = true := hdig c mem_cons_self
    have hmin : (c == '-') = false := by
      apply beq_false_of_ne
      rintro rfl
      cases hdigit
    have hrest : t.dropWhile Char.isDigit = [] := by
      apply dropWhile_eq_nil_iff.mpr
      exact fun d hd => hdig d (mem_cons_of_mem _ hd)
    rw [isNumberToken.eq_def, hall]
    simp only [hmin, Bool.true_and, Bool.false_eq_true, if_false]
    rw [isUnsigned, if_neg (by simpa using hc), hdigit, hrest]
    rfl

def jsonNumber (n : ℕ) : Json := .number ⟨number n, isNumberToken_number n⟩

/-- An object by its fields. -/
abbrev Record := List (Text × Json)

abbrev TelemetryEvent := Record

def collections : List Text :=
  ["rsp_accounting_events_v1".toList, "rsp_decisions_v1".toList,
    "rsp_telemetry_invocations_v1".toList, "rsp_telemetry_degradations_v1".toList]

def isString : Option Json → Option Text
  | some (.string t) => some t
  | _ => none

def isTelemetry (fields : Record) : Bool :=
  (isString (fields.lookup "collection".toList)).any (· ∈ collections)

def parseTelemetryEvent (line : Text) : Option TelemetryEvent :=
  match Json.parse line with
  | some (.object fields) => if isTelemetry fields then some fields else none
  | _ => none

/-- `{ ...fields, [key]: value }`. -/
def setField (fields : Record) (key : Text) (value : Json) : Record :=
  if key ∈ fields.map Prod.fst then
    fields.map fun field => if field.1 = key then (key, value) else field
  else fields ++ [(key, value)]

def deleteField (fields : Record) (key : Text) : Record := fields.filter fun field => field.1 ≠ key

def spoolTextInlineCapBytes : ℕ := 65536

/-- No number, or one whose digits are all zero. -/
def isZero : Option Json → Bool
  | some (.number n) => (n.text.takeWhile fun c => c ≠ 'e' && c ≠ 'E').all (· ∈ ['-', '0', '.'])
  | _ => true

def compactTextField (event : TelemetryEvent) (textField bytesField : Text) : TelemetryEvent :=
  match isString (event.lookup textField) with
  | none => event
  | some text =>
    let bytes := (Utf8.encode text).length
    if bytes ≤ spoolTextInlineCapBytes then event
    else
      let next := deleteField event textField
      let next :=
        if isZero (next.lookup bytesField) then setField next bytesField (jsonNumber bytes)
        else next
      setField next "estimated".toList (.bool true)

def compactTelemetryEventForSpool (event : TelemetryEvent) : TelemetryEvent :=
  compactTextField (compactTextField event "raw_text".toList "raw_bytes".toList)
    "emitted_text".toList "emitted_bytes".toList

/-- The package of the format. A row is written under a header of its own, and read with it. -/
structure Toonl where
  header : Record → Text
  row : Record → Text
  /-- `none` is a text that it throws on. -/
  parseRecords : Text → Option (List Json)

structure RspTelemetrySpoolEntry where
  spoolId : Text
  event : Option TelemetryEvent
  rawLine : Option Text

def spoolIdField : Text := "spool_id".toList

def isFlat : Json → Bool
  | .array _ => false
  | .object _ => false
  | _ => true

def flatField (field : Text × Json) : Text × Json :=
  if isFlat field.2 then field else (field.1, .string field.2.stringify)

def flatten (event : TelemetryEvent) : TelemetryEvent :=
  (deleteField event spoolIdField).map flatField

def spoolEntryToToonlRow (entry : RspTelemetrySpoolEntry) : Record :=
  (spoolIdField, .string entry.spoolId) :: flatten (entry.event.getD [])

variable (T : Toonl)

def formatRow (record : Record) : List Text := [T.header record, T.row record]

def formatSpoolRow (entry : RspTelemetrySpoolEntry) : List Text :=
  formatRow T (spoolEntryToToonlRow entry)

def isFlatToonlRecord : Json → Option Record
  | .object fields => if fields.all fun field => isFlat field.2 then some fields else none
  | _ => none

def eventFromSpoolRow (row : Record) : Option TelemetryEvent :=
  parseTelemetryEvent (Json.object (deleteField row spoolIdField)).stringify

def spoolRow (value : Json) : Option RspTelemetrySpoolEntry :=
  (isFlatToonlRecord value).bind fun row =>
    (isString (row.lookup spoolIdField)).bind fun spoolId =>
      (eventFromSpoolRow row).map fun event => ⟨spoolId, some event, none⟩

/-- `/^\[(?:\d*)\]\{[^}]+\}:$/`. -/
def isHeaderLine : Text → Bool
  | '[' :: t =>
    match t.dropWhile Char.isDigit with
    | ']' :: '{' :: u =>
      !(u.takeWhile (· ≠ '}')).isEmpty && u.dropWhile (· ≠ '}') == ['}', ':']
    | _ => false
  | _ => false

def underHeader (header line : Text) : Text := header ++ '\n' :: line ++ ['\n']

variable (digest : Text → Text)

def legacySpoolId (line : Text) : Text := "legacy:".toList ++ digest line

def rawEntry (line : Text) : RspTelemetrySpoolEntry := ⟨legacySpoolId digest line, none, some line⟩

def parseSpoolLine (header raw : Text) : Text × List RspTelemetrySpoolEntry :=
  let line := trim raw
  if line = [] then (header, [])
  else
    match Json.parse line with
    | some (.object fields) =>
      let text := (Json.object fields).stringify
      match parseTelemetryEvent text with
      | some event => (header, [⟨legacySpoolId digest text, some event, none⟩])
      | none => (header, [rawEntry digest line])
    | some _ => (header, [])
    | none =>
      if isHeaderLine line then (line, [])
      else if header = [] then (header, [rawEntry digest line])
      else
        match T.parseRecords (underHeader header line) with
        | some rows => (header, rows.filterMap spoolRow)
        | none => if line.head? = some '{' then (header, [rawEntry digest line]) else (header, [])

def parseSpoolLines (header : Text) : List Text → List RspTelemetrySpoolEntry
  | [] => []
  | raw :: lines =>
    (parseSpoolLine T digest header raw).2 ++
      parseSpoolLines (parseSpoolLine T digest header raw).1 lines

def parseSpoolEntries (lines : List Text) : List RspTelemetrySpoolEntry :=
  parseSpoolLines T digest [] lines

inductive CorrectionAction where
  | retry | resolved
  deriving DecidableEq

def CorrectionAction.name : CorrectionAction → Text
  | .retry => "retry".toList
  | .resolved => "resolved".toList

structure RspTelemetryCorrectionRow where
  correctionId : Text
  targetSpoolId : Text
  action : CorrectionAction
  createdAt : Text
  eventJson : Option Text

def correctionRecord (correction : RspTelemetryCorrectionRow) : Record :=
  [("correction_id".toList, .string correction.correctionId),
    ("target_spool_id".toList, .string correction.targetSpoolId),
    ("action".toList, .string correction.action.name),
    ("created_at".toList, .string correction.createdAt),
    ("event_json".toList, (correction.eventJson.map Json.string).getD .null)]

def formatCorrectionRow (correction : RspTelemetryCorrectionRow) : List Text :=
  formatRow T (correctionRecord correction)

def actionOf (name : Text) : Option CorrectionAction :=
  if name = CorrectionAction.retry.name then some .retry
  else if name = CorrectionAction.resolved.name then some .resolved
  else none

def nullOrString : Option Json → Option (Option Text)
  | some .null => some none
  | some (.string t) => some (some t)
  | _ => none

def toCorrectionRow (fields : Record) : Option RspTelemetryCorrectionRow := do
  let correctionId ← isString (fields.lookup "correction_id".toList)
  let targetSpoolId ← isString (fields.lookup "target_spool_id".toList)
  let action ← (isString (fields.lookup "action".toList)).bind actionOf
  let createdAt ← isString (fields.lookup "created_at".toList)
  let eventJson ← nullOrString (fields.lookup "event_json".toList)
  pure ⟨correctionId, targetSpoolId, action, createdAt, eventJson⟩

def parseSniffedLine (header raw : Text) : Text × List Record :=
  let line := trim raw
  if line = [] then (header, [])
  else
    match Json.parse line with
    | some value => (header, (isFlatToonlRecord value).toList)
    | none =>
      if isHeaderLine line then (line, [])
      else if header = [] then (header, [])
      else
        match T.parseRecords (underHeader header line) with
        | some rows => (header, rows.filterMap isFlatToonlRecord)
        | none => (header, [])

def parseSniffedRecords (header : Text) : List Text → List Record
  | [] => []
  | raw :: lines =>
    (parseSniffedLine T header raw).2 ++ parseSniffedRecords (parseSniffedLine T header raw).1 lines

def parseCorrectionRows (lines : List Text) : List RspTelemetryCorrectionRow :=
  (parseSniffedRecords T [] lines).filterMap toCorrectionRow

def latestCorrections (rows : List RspTelemetryCorrectionRow) : JsMap Text RspTelemetryCorrectionRow :=
  JsMap.ofRecords (·.targetSpoolId) rows

def pendingEntry (row : RspTelemetryCorrectionRow) : Option RspTelemetrySpoolEntry :=
  if row.action = .retry then
    ((row.eventJson.filter (· ≠ [])).bind parseTelemetryEvent).map fun event =>
      ⟨row.targetSpoolId, some event, none⟩
  else none

def pendingCorrectionEntries (lines : List Text) : List RspTelemetrySpoolEntry :=
  (latestCorrections (parseCorrectionRows T lines)).values.filterMap pendingEntry

/-- Reading a record is what the package is for: a header and a row of two cells or more are
no JSON, only the header has the form of one, and the row is read as the record. -/
structure Toonl.Spells (record : Record) : Prop where
  header_trimmed : trim (T.header record) = T.header record
  header_json : Json.parse (T.header record) = none
  header_form : isHeaderLine (T.header record) = true
  row_trimmed : trim (T.row record) = T.row record
  row_nonempty : T.row record ≠ []
  row_json : Json.parse (T.row record) = none
  row_form : isHeaderLine (T.row record) = false
  read_back : T.parseRecords (underHeader (T.header record) (T.row record)) = some [.object record]

/-- A flat record of two fields or more, none of whose names has the bracket that ends the
names of a header. -/
structure Tabular (record : Record) : Prop where
  proper : (Json.object record).Proper
  flat : ∀ field ∈ record, isFlat field.2 = true
  several : 2 ≤ record.length
  unbraced : ∀ field ∈ record, '}' ∉ field.1

def Toonl.Lawful : Prop := ∀ record, Tabular record → T.Spells record

section
variable {fields : Record} {key other : Text} {value : Json}

lemma lookup_deleteField (h : key ≠ other) :
    (deleteField fields other).lookup key = fields.lookup key := by
  unfold deleteField
  induction fields with
  | nil => rfl
  | cons field fields ih =>
    obtain ⟨name, v⟩ := field
    by_cases hname : name = other
    · have hkey : (key == name) = false := beq_false_of_ne (hname ▸ h)
      rw [filter_cons_of_neg (by simp [hname]), ih, lookup_cons, hkey]
    · rw [filter_cons_of_pos (by simp [hname]), lookup_cons, lookup_cons, ih]

lemma lookup_map {f : Text × Json → Text × Json} (hf : ∀ field, (f field).1 = field.1) :
    (fields.map f).lookup key = (fields.lookup key).map fun v => (f (key, v)).2 := by
  induction fields with
  | nil => rfl
  | cons field fields ih =>
    obtain ⟨name, v⟩ := field
    have hname : f (name, v) = (name, (f (name, v)).2) := Prod.ext (hf _) rfl
    rw [map_cons, hname, lookup_cons, lookup_cons, ih]
    by_cases hkey : key = name
    · rw [hkey, beq_self_eq_true]
      rfl
    · rw [beq_false_of_ne hkey]

lemma lookup_setField (h : key ≠ other) :
    (setField fields other value).lookup key = fields.lookup key := by
  have hkey : (key == other) = false := beq_false_of_ne h
  unfold setField
  split_ifs
  · rw [lookup_map]
    · simp only [if_neg h, Option.map_id']
    · intro field
      split_ifs with hname
      · exact hname.symm
      · rfl
  · rw [lookup_append, lookup_cons, hkey]
    exact Option.or_none

lemma keys_setField : (setField fields other value).map Prod.fst = fields.map Prod.fst ∨
      (other ∉ fields.map Prod.fst ∧
        (setField fields other value).map Prod.fst = fields.map Prod.fst ++ [other]) := by
  unfold setField
  split_ifs with hin
  · left
    rw [map_map]
    apply map_congr_left
    intro field _
    change (if field.1 = other then (other, value) else field).1 = field.1
    split_ifs with hname
    · exact hname.symm
    · rfl
  · exact .inr ⟨hin, map_append⟩

lemma mem_setField {field : Text × Json} (h : field ∈ setField fields other value) :
    field ∈ fields ∨ field = (other, value) := by
  unfold setField at h
  split_ifs at h
  · obtain ⟨old, hold, rfl⟩ := mem_map.mp h
    split_ifs
    · exact .inr rfl
    · exact .inl hold
  · rcases mem_append.mp h with h | h
    · exact .inl h
    · exact .inr (mem_singleton.mp h)

end

def collectionField : Text := "collection".toList

/-- An event of a known collection, none of whose names has the bracket that ends the names
of a header. -/
structure Spoolable (event : TelemetryEvent) : Prop where
  proper : (Json.object event).Proper
  telemetry : isTelemetry event = true
  unbraced : ∀ field ∈ event, '}' ∉ field.1

section
variable {event : TelemetryEvent} {key : Text} {value : Json}

lemma Spoolable.nodup (h : Spoolable event) : (event.map Prod.fst).Nodup := by
  cases h.proper with
  | object hnod _ => exact hnod

lemma Spoolable.values (h : Spoolable event) : ∀ field ∈ event, field.2.Proper := by
  cases h.proper with
  | object _ hval => exact hval

lemma isTelemetry_congr {fields : Record}
    (h : fields.lookup collectionField = event.lookup collectionField) :
    isTelemetry fields = isTelemetry event := by
  unfold isTelemetry
  change (isString (fields.lookup collectionField)).any _ =
    (isString (event.lookup collectionField)).any _
  rw [h]

lemma Spoolable.delete (h : Spoolable event) (hkey : collectionField ≠ key) :
    Spoolable (deleteField event key) := by
  have hin : ∀ field ∈ deleteField event key, field ∈ event :=
    fun field hfield => (mem_filter.mp hfield).1
  constructor
  · apply Json.Proper.object
    · exact h.nodup.sublist (filter_sublist.map _)
    · exact fun field hfield => h.values field (hin field hfield)
  · rw [isTelemetry_congr (lookup_deleteField hkey)]
    exact h.telemetry
  · exact fun field hfield => h.unbraced field (hin field hfield)

lemma Spoolable.set (h : Spoolable event) (hkey : collectionField ≠ key) (hvalue : value.Proper)
    (hbrace : '}' ∉ key) : Spoolable (setField event key value) := by
  constructor
  · apply Json.Proper.object
    · rcases @keys_setField event key value with hkeys | ⟨hnew, hkeys⟩
      · rw [hkeys]
        exact h.nodup
      · rw [hkeys]
        apply nodup_append.mpr
        refine ⟨h.nodup, nodup_singleton _, ?_⟩
        intro a ha b hb
        rw [mem_singleton.mp hb]
        exact fun heq => hnew (heq ▸ ha)
    · intro field hfield
      rcases mem_setField hfield with hold | rfl
      · exact h.values field hold
      · exact hvalue
  · rw [isTelemetry_congr (lookup_setField hkey)]
    exact h.telemetry
  · intro field hfield
    rcases mem_setField hfield with hold | rfl
    · exact h.unbraced field hold
    · exact hbrace

lemma Spoolable.compactTextField (h : Spoolable event) {textField bytesField : Text}
    (htext : collectionField ≠ textField) (hbyt : collectionField ≠ bytesField)
    (hbrace : '}' ∉ bytesField) : Spoolable (compactTextField event textField bytesField) := by
  have hest : collectionField ≠ "estimated".toList ∧ '}' ∉ "estimated".toList := by decide
  unfold Telemetry.compactTextField
  split
  · exact h
  · dsimp only
    split_ifs
    · exact h
    · exact ((h.delete htext).set hbyt (.number _) hbrace).set hest.1 (.bool _) hest.2
    · exact (h.delete htext).set hest.1 (.bool _) hest.2

lemma Spoolable.compact (h : Spoolable event) :
    Spoolable (compactTelemetryEventForSpool event) := by
  have hraw : collectionField ≠ "raw_text".toList ∧ collectionField ≠ "raw_bytes".toList ∧
      '}' ∉ "raw_bytes".toList := by decide
  have hemitt : collectionField ≠ "emitted_text".toList ∧
      collectionField ≠ "emitted_bytes".toList ∧ '}' ∉ "emitted_bytes".toList := by decide
  exact (h.compactTextField hraw.1 hraw.2.1 hraw.2.2).compactTextField hemitt.1 hemitt.2.1
    hemitt.2.2

lemma flatField_key (field : Text × Json) : (flatField field).1 = field.1 := by
  unfold flatField
  split_ifs <;> rfl

lemma isFlat_flatField (field : Text × Json) : isFlat (flatField field).2 = true := by
  unfold flatField
  split_ifs with hflat
  · exact hflat
  · rfl

lemma Spoolable.flatten (h : Spoolable event) : Spoolable (flatten event) := by
  have hid : collectionField ≠ spoolIdField := by decide
  have hdel := h.delete hid
  have hkeys : ((deleteField event spoolIdField).map flatField).map Prod.fst =
      (deleteField event spoolIdField).map Prod.fst := by
    rw [map_map]
    exact map_congr_left fun field _ => flatField_key field
  constructor
  · apply Json.Proper.object
    · unfold Telemetry.flatten
      rw [hkeys]
      exact hdel.nodup
    · intro field hfield
      obtain ⟨old, hold, rfl⟩ := mem_map.mp hfield
      unfold flatField
      split_ifs
      · exact hdel.values old hold
      · exact .string _
  · have htel := hdel.telemetry
    unfold isTelemetry at htel ⊢
    change (isString ((deleteField event spoolIdField).lookup collectionField)).any _ = true
      at htel
    change (isString (((deleteField event spoolIdField).map flatField).lookup collectionField)).any
      _ = true
    rw [lookup_map flatField_key]
    cases hfound : (deleteField event spoolIdField).lookup collectionField with
    | none =>
      rw [hfound] at htel
      cases htel
    | some v =>
      rw [hfound] at htel
      cases v with
      | string t => exact htel
      | _ => cases htel
  · intro field hfield
    obtain ⟨old, hold, rfl⟩ := mem_map.mp hfield
    rw [flatField_key]
    exact hdel.unbraced old hold

lemma Spoolable.parse (h : Spoolable event) :
    parseTelemetryEvent (Json.object event).stringify = some event := by
  unfold parseTelemetryEvent
  rw [Json.parse_stringify h.proper]
  dsimp only
  rw [if_pos h.telemetry]

end

section
variable {T digest}

def headerBehind (T : Toonl) (digest : Text → Text) (header : Text) (lines : List Text) : Text :=
  lines.foldl (fun header raw => (parseSpoolLine T digest header raw).1) header

lemma parseSpoolLines_append (header : Text) (a b : List Text) :
    parseSpoolLines T digest header (a ++ b) = parseSpoolLines T digest header a ++
      parseSpoolLines T digest (headerBehind T digest header a) b := by
  induction a generalizing header with
  | nil => rfl
  | cons raw a ih =>
    rw [cons_append, parseSpoolLines, parseSpoolLines, ih, append_assoc]
    rfl

lemma parseSpoolEntries_initial {a b : List Text} (h : a <+: b) :
    parseSpoolEntries T digest a <+: parseSpoolEntries T digest b := by
  obtain ⟨rest, rfl⟩ := h
  unfold parseSpoolEntries
  rw [parseSpoolLines_append]
  exact prefix_append _ _

variable {event : TelemetryEvent} {record : Record}

lemma Toonl.Spells.header_line (h : T.Spells record) (header : Text) :
    parseSpoolLine T digest header (T.header record) = (T.header record, []) := by
  have hne : T.header record ≠ [] := by
    intro hnil
    have hform := h.header_form
    rw [hnil] at hform
    cases hform
  unfold parseSpoolLine
  dsimp only
  rw [h.header_trimmed, if_neg hne, h.header_json]
  dsimp only
  rw [if_pos h.header_form]

lemma Toonl.Spells.row_line (h : T.Spells record) :
    parseSpoolLine T digest (T.header record) (T.row record) =
      (T.header record, [Json.object record].filterMap spoolRow) := by
  have hne : T.header record ≠ [] := by
    intro hnil
    have hform := h.header_form
    rw [hnil] at hform
    cases hform
  unfold parseSpoolLine
  dsimp only
  rw [h.row_trimmed, if_neg h.row_nonempty, h.row_json]
  dsimp only
  rw [if_neg (by rw [h.row_form]; exact Bool.false_ne_true), if_neg hne, h.read_back]

lemma parseSpoolLines_row (h : T.Spells record) (header : Text) :
    parseSpoolLines T digest header (formatRow T record) =
      [Json.object record].filterMap spoolRow := by
  unfold formatRow
  rw [parseSpoolLines, parseSpoolLines, h.header_line, h.row_line, parseSpoolLines]
  exact append_nil _

lemma Spoolable.tabular (h : Spoolable event) (spoolId : Text) :
    Tabular (spoolEntryToToonlRow ⟨spoolId, some event, none⟩) := by
  have hflat := h.flatten
  have hdel : ∀ field ∈ Telemetry.flatten event, field.1 ≠ spoolIdField := by
    intro field hfield
    obtain ⟨old, hold, rfl⟩ := mem_map.mp hfield
    rw [flatField_key]
    simpa using (mem_filter.mp hold).2
  constructor
  · apply Json.Proper.object
    · apply nodup_cons.mpr
      refine ⟨?_, hflat.nodup⟩
      intro hin
      obtain ⟨field, hfield, hname⟩ := mem_map.mp hin
      exact hdel field hfield hname
    · intro field hfield
      rcases mem_cons.mp hfield with rfl | hfield
      · exact .string _
      · exact hflat.values field hfield
  · intro field hfield
    rcases mem_cons.mp hfield with rfl | hfield
    · rfl
    · obtain ⟨old, -, rfl⟩ := mem_map.mp hfield
      exact isFlat_flatField old
  · have hne : Telemetry.flatten event ≠ [] := by
      intro hnil
      have htel := hflat.telemetry
      rw [hnil] at htel
      cases htel
    have hpos := length_pos_of_ne_nil hne
    change 2 ≤ (Telemetry.flatten event).length + 1
    omega
  · intro field hfield
    rcases mem_cons.mp hfield with rfl | hfield
    · have hbrace : '}' ∉ spoolIdField := by decide
      exact hbrace
    · exact hflat.unbraced field hfield

lemma deleteField_row (spoolId : Text) :
    deleteField (spoolEntryToToonlRow ⟨spoolId, some event, none⟩) spoolIdField = flatten event := by
  unfold spoolEntryToToonlRow deleteField
  rw [filter_cons_of_neg (by simp)]
  apply filter_eq_self.mpr
  intro field hfield
  obtain ⟨old, hold, rfl⟩ := mem_map.mp hfield
  rw [flatField_key]
  exact (mem_filter.mp hold).2

def spooled (spoolId : Text) (event : TelemetryEvent) : RspTelemetrySpoolEntry :=
  ⟨spoolId, some (flatten event), none⟩

lemma spoolRow_row (h : Spoolable event) (spoolId : Text) :
    spoolRow (.object (spoolEntryToToonlRow ⟨spoolId, some event, none⟩)) =
      some (spooled spoolId event) := by
  have hflat : isFlatToonlRecord (.object (spoolEntryToToonlRow ⟨spoolId, some event, none⟩)) =
      some (spoolEntryToToonlRow ⟨spoolId, some event, none⟩) :=
    if_pos (all_eq_true.mpr (h.tabular spoolId).flat)
  have hid : (spoolEntryToToonlRow ⟨spoolId, some event, none⟩).lookup spoolIdField =
      some (.string spoolId) := lookup_cons_self
  unfold spoolRow
  rw [hflat, Option.bind_some, hid]
  change (eventFromSpoolRow (spoolEntryToToonlRow ⟨spoolId, some event, none⟩)).map _ = _
  unfold eventFromSpoolRow
  rw [deleteField_row, h.flatten.parse]
  rfl

lemma parse_formatSpoolRow (law : T.Lawful) (h : Spoolable event) (spoolId header : Text) :
    parseSpoolLines T digest header (formatSpoolRow T ⟨spoolId, some event, none⟩) =
      [spooled spoolId event] := by
  unfold formatSpoolRow
  rw [parseSpoolLines_row (law _ (h.tabular spoolId)), filterMap_cons, spoolRow_row h]
  rfl

def sniffedHeaderBehind (T : Toonl) (header : Text) (lines : List Text) : Text :=
  lines.foldl (fun header raw => (parseSniffedLine T header raw).1) header

lemma parseSniffedRecords_append (header : Text) (a b : List Text) :
    parseSniffedRecords T header (a ++ b) = parseSniffedRecords T header a ++
      parseSniffedRecords T (sniffedHeaderBehind T header a) b := by
  induction a generalizing header with
  | nil => rfl
  | cons raw a ih =>
    rw [cons_append, parseSniffedRecords, parseSniffedRecords, ih, append_assoc]
    rfl

lemma parseSniffedRecords_row (h : T.Spells record) (header : Text) :
    parseSniffedRecords T header (formatRow T record) =
      [Json.object record].filterMap isFlatToonlRecord := by
  have hne : T.header record ≠ [] := by
    intro hnil
    have hform := h.header_form
    rw [hnil] at hform
    cases hform
  have hhead : parseSniffedLine T header (T.header record) = (T.header record, []) := by
    unfold parseSniffedLine
    dsimp only
    rw [h.header_trimmed, if_neg hne, h.header_json]
    dsimp only
    rw [if_pos h.header_form]
  have hrow : parseSniffedLine T (T.header record) (T.row record) =
      (T.header record, [Json.object record].filterMap isFlatToonlRecord) := by
    unfold parseSniffedLine
    dsimp only
    rw [h.row_trimmed, if_neg h.row_nonempty, h.row_json]
    dsimp only
    rw [if_neg (by rw [h.row_form]; exact Bool.false_ne_true), if_neg hne, h.read_back]
  unfold formatRow
  rw [parseSniffedRecords, parseSniffedRecords, hhead, hrow, parseSniffedRecords]
  exact append_nil _

lemma tabular_correction (correction : RspTelemetryCorrectionRow) :
    Tabular (correctionRecord correction) := by
  constructor
  · apply Json.Proper.object
    · have hkeys : (correctionRecord correction).map Prod.fst =
          ["correction_id".toList, "target_spool_id".toList, "action".toList,
            "created_at".toList, "event_json".toList] := rfl
      rw [hkeys]
      decide
    · intro field hfield
      simp only [correctionRecord, mem_cons, not_mem_nil, or_false] at hfield
      rcases hfield with rfl | rfl | rfl | rfl | rfl
      · exact .string _
      · exact .string _
      · exact .string _
      · exact .string _
      · cases correction.eventJson with
        | none => exact .null
        | some t => exact .string _
  · intro field hfield
    simp only [correctionRecord, mem_cons, not_mem_nil, or_false] at hfield
    rcases hfield with rfl | rfl | rfl | rfl | rfl
    · rfl
    · rfl
    · rfl
    · rfl
    · cases correction.eventJson with
      | none => rfl
      | some t => rfl
  · exact Nat.le_of_ble_eq_true rfl
  · have hkeys : ∀ key ∈ ["correction_id".toList, "target_spool_id".toList, "action".toList,
        "created_at".toList, "event_json".toList], '}' ∉ key := by decide
    intro field hfield
    exact hkeys field.1 (mem_map_of_mem hfield)

lemma toCorrectionRow_record (correction : RspTelemetryCorrectionRow) :
    toCorrectionRow (correctionRecord correction) = some correction := by
  obtain ⟨correctionId, target, action, createdAt, eventJson⟩ := correction
  cases action <;> cases eventJson <;> rfl

lemma parseCorrectionRows_append (law : T.Lawful) (lines : List Text)
    (correction : RspTelemetryCorrectionRow) :
    parseCorrectionRows T (lines ++ formatCorrectionRow T correction) =
      parseCorrectionRows T lines ++ [correction] := by
  have hspells := law _ (tabular_correction correction)
  have hflat : isFlatToonlRecord (.object (correctionRecord correction)) =
      some (correctionRecord correction) :=
    if_pos (all_eq_true.mpr (tabular_correction correction).flat)
  unfold parseCorrectionRows formatCorrectionRow
  rw [parseSniffedRecords_append, parseSniffedRecords_row hspells, filterMap_append,
    filterMap_cons, hflat]
  dsimp only
  rw [filterMap_nil, filterMap_cons, toCorrectionRow_record]
  rfl

lemma latestCorrections_append (rows : List RspTelemetryCorrectionRow)
    (correction : RspTelemetryCorrectionRow) :
    latestCorrections (rows ++ [correction]) =
      (latestCorrections rows).set correction.targetSpoolId correction := by
  unfold latestCorrections JsMap.ofRecords
  rw [foldl_append]
  rfl

lemma latestCorrections_target (rows : List RspTelemetryCorrectionRow) {spoolId : Text}
    {row : RspTelemetryCorrectionRow} (h : (latestCorrections rows).lookup spoolId = some row) :
    row.targetSpoolId = spoolId ∧ row ∈ rows := by
  induction rows using reverseRecOn with
  | nil => cases h
  | append_singleton rows correction ih =>
    rw [latestCorrections_append, JsMap.lookup_set] at h
    split_ifs at h with hid
    · cases h
      exact ⟨hid.symm, by simp⟩
    · obtain ⟨htarg, hin⟩ := ih h
      exact ⟨htarg, mem_append_left _ hin⟩

lemma mem_pending {lines : List Text} {entry : RspTelemetrySpoolEntry} :
    entry ∈ pendingCorrectionEntries T lines ↔
      ∃ row, (latestCorrections (parseCorrectionRows T lines)).lookup entry.spoolId = some row ∧
        pendingEntry row = some entry := by
  have hid : ∀ {row : RspTelemetryCorrectionRow}, pendingEntry row = some entry →
      row.targetSpoolId = entry.spoolId := by
    intro row hrow
    unfold pendingEntry at hrow
    split_ifs at hrow
    obtain ⟨event, -, rfl⟩ := Option.map_eq_some_iff.mp hrow
    rfl
  unfold pendingCorrectionEntries
  rw [mem_filterMap]
  constructor
  · rintro ⟨row, hrow, hpend⟩
    obtain ⟨spoolId, hlook⟩ := JsMap.mem_values.mp hrow
    have htarg := (latestCorrections_target _ hlook).1
    rw [← hid hpend, htarg]
    exact ⟨row, hlook, hpend⟩
  · rintro ⟨row, hlook, hpend⟩
    exact ⟨row, JsMap.mem_values.mpr ⟨_, hlook⟩, hpend⟩

end

end Redskilled.Telemetry
