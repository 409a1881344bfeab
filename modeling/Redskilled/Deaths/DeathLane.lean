import Redskilled.Deaths.DeathRecord
import Redskilled.Lane.StrictDecode

/-!
# The lane of deaths

A dying process appends its record under a header of its own. A tail that a crash cut off
is not dropped: the next writer ends the line, and writes behind it. A lane that would
pass its ceiling is decoded as a whole and replaced by what retention keeps.

The reader decodes the complete lines, all of them or none.
-/
namespace Redskilled.Deaths
open Foundation Lane

variable {ν : Type*}

inductive DeathField where
  | scope | memoryCeiling | scopeDegradation | version | ts | kind | id | pid | exitPath
  | signal | exitCode | lastPhase | detail | uptimeS | rssKb | maxRssKb | userCpuUs
  | systemCpuUs | minorPageFaults | majorPageFaults | voluntaryCtxSwitches
  | involuntaryCtxSwitches
  deriving DecidableEq

abbrev DeathRow (ν : Type*) := List (DeathField × Value ν)

/-- The keys of a record, in the order in which the object has them. -/
structure KeyOrder where
  fields : List DeathField
  complete : ∀ field, field ∈ fields

namespace KeyOrder

/-- The order of `buildProcessDeathRecord`. -/
def built : KeyOrder where
  fields := [.scope, .memoryCeiling, .scopeDegradation, .version, .ts, .kind, .id, .pid,
    .exitPath, .signal, .exitCode, .lastPhase, .detail, .uptimeS, .rssKb, .maxRssKb,
    .userCpuUs, .systemCpuUs, .minorPageFaults, .majorPageFaults, .voluntaryCtxSwitches,
    .involuntaryCtxSwitches]
  complete := by intro field; cases field <;> decide

/-- The order of `toDeathRecord`. -/
def decoded : KeyOrder where
  fields := [.version, .ts, .kind, .id, .pid, .exitPath, .signal, .exitCode, .lastPhase,
    .detail, .scope, .memoryCeiling, .scopeDegradation, .uptimeS, .rssKb, .maxRssKb,
    .userCpuUs, .systemCpuUs, .minorPageFaults, .majorPageFaults, .voluntaryCtxSwitches,
    .involuntaryCtxSwitches]
  complete := by intro field; cases field <;> decide

end KeyOrder

def nullable (value : Option (Value ν)) : Value ν := value.getD .null

def valueOf (record : ProcessDeathRecord ν) : DeathField → Value ν
  | .scope => nullable (record.scope.map .text)
  | .memoryCeiling => nullable (record.memoryCeiling.map .text)
  | .scopeDegradation => nullable (record.scopeDegradation.map .text)
  | .version => .number record.version
  | .ts => .text record.ts
  | .kind => .text (Vocabulary.text record.kind)
  | .id => .text record.id
  | .pid => .number record.pid
  | .exitPath => .text (Vocabulary.text record.exitPath)
  | .signal => nullable (record.signal.map .text)
  | .exitCode => nullable (record.exitCode.map .number)
  | .lastPhase => .text record.lastPhase
  | .detail => nullable (record.detail.map .text)
  | .uptimeS => .number record.uptimeS
  | .rssKb => .number record.rssKb
  | .maxRssKb => .number record.maxRssKb
  | .userCpuUs => .number record.userCpuUs
  | .systemCpuUs => .number record.systemCpuUs
  | .minorPageFaults => .number record.minorPageFaults
  | .majorPageFaults => .number record.majorPageFaults
  | .voluntaryCtxSwitches => .number record.voluntaryCtxSwitches
  | .involuntaryCtxSwitches => .number record.involuntaryCtxSwitches

def toRow (order : KeyOrder) (record : ProcessDeathRecord ν) : DeathRow ν :=
  order.fields.map fun field => (field, valueOf record field)

/-- The conversions of the language, and the number of no value. -/
structure Numbers (ν : Type*) extends Conversions ν where
  nan : ν

section
variable (numbers : Numbers ν) (row : DeathRow ν)

/-- `num(row[field])`. -/
def num (field : DeathField) : ν :=
  match row.lookup field with
  | none => numbers.nan
  | some value => numbers.number value

/-- `String(row[field])`. -/
def string (field : DeathField) : Text :=
  match row.lookup field with
  | none => "undefined".toList
  | some value => numbers.string value

def unlessNull {α : Type*} (field : DeathField) (convert : Value ν → α) : Option α :=
  match row.lookup field with
  | none | some .null => none
  | some value => some (convert value)

/-- A record of an unknown exit path or kind throws. -/
def toDeathRecord : Option (ProcessDeathRecord ν) :=
  match oneOf ProcessExitPath (row.lookup .exitPath), oneOf ProcessDeathKind (row.lookup .kind) with
  | some exitPath, some kind => some
      { version := num numbers row .version
        ts := string numbers row .ts
        kind := kind
        id := string numbers row .id
        pid := num numbers row .pid
        exitPath := exitPath
        signal := unlessNull row .signal numbers.string
        exitCode := unlessNull row .exitCode numbers.number
        lastPhase := string numbers row .lastPhase
        detail := unlessNull row .detail numbers.string
        scope := unlessNull row .scope numbers.string
        memoryCeiling := unlessNull row .memoryCeiling numbers.string
        scopeDegradation := unlessNull row .scopeDegradation numbers.string
        uptimeS := num numbers row .uptimeS
        rssKb := num numbers row .rssKb
        maxRssKb := num numbers row .maxRssKb
        userCpuUs := num numbers row .userCpuUs
        systemCpuUs := num numbers row .systemCpuUs
        minorPageFaults := num numbers row .minorPageFaults
        majorPageFaults := num numbers row .majorPageFaults
        voluntaryCtxSwitches := num numbers row .voluntaryCtxSwitches
        involuntaryCtxSwitches := num numbers row .involuntaryCtxSwitches }
  | _, _ => none

end

lemma lookup_toRow (order : KeyOrder) (record : ProcessDeathRecord ν) (field : DeathField) :
    (toRow order record).lookup field = some (valueOf record field) := by
  have hlook : ∀ fields : List DeathField, field ∈ fields →
      (fields.map fun field => (field, valueOf record field)).lookup field =
        some (valueOf record field) := by
    intro fields hfield
    induction fields with
    | nil => cases hfield
    | cons head fields ih =>
      rw [List.map_cons, List.lookup_cons]
      by_cases heq : field = head
      · simp [heq]
      · rw [beq_false_of_ne heq]
        exact ih ((List.mem_cons.mp hfield).resolve_left heq)
  exact hlook order.fields (order.complete field)

lemma toDeathRecord_toRow (numbers : Numbers ν) (order : KeyOrder) (record : ProcessDeathRecord ν) :
    toDeathRecord numbers (toRow order record) = some record := by
  obtain ⟨⟨scope, memoryCeiling, scopeDegradation⟩, sample, version, ts, kind, id, pid, exitPath,
    signal, exitCode, lastPhase, detail⟩ := record
  unfold toDeathRecord
  simp only [num, string, unlessNull, lookup_toRow, valueOf, oneOf, Vocabulary.ofText_text]
  cases scope <;> cases memoryCeiling <;> cases scopeDegradation <;> cases signal <;>
    cases exitCode <;> cases detail <;> rfl

/-- The spelling of one row: its header and its line, how a line is read back under a
header, and how many cells a line and a header have. -/
structure DeathToonl (ν : Type*) where
  header : DeathRow ν → Bytes
  line : DeathRow ν → Bytes
  readRow : Bytes → Bytes → Option (DeathRow ν)
  cellCount : Bytes → ℕ
  fieldCount : Bytes → ℕ

structure DeathToonl.Lawful (toonl : DeathToonl ν) : Prop where
  header_isHeader : ∀ order record, isHeader (toonl.header (toRow order record)) = true
  newline_header : ∀ order record, newline ∉ toonl.header (toRow order record)
  line_notHeader : ∀ order record, isHeader (toonl.line (toRow order record)) = false
  newline_line : ∀ order record, newline ∉ toonl.line (toRow order record)
  reads_back : ∀ order record, toonl.readRow (toonl.header (toRow order record))
    (toonl.line (toRow order record)) = some (toRow order record)
  /-- A row of another number of cells than its header has is rejected. -/
  counts : ∀ header line row, toonl.readRow header line = some row →
    toonl.cellCount line = toonl.fieldCount header

section
variable (toonl : DeathToonl ν) (numbers : Numbers ν)

/-- The lines that a row adds, behind the header the encoder has in hand. -/
def pushLines (inHand : Option Bytes) (row : DeathRow ν) : List Bytes :=
  if inHand = some (toonl.header row) then [toonl.line row] else [toonl.header row, toonl.line row]

def encodeLines (inHand : Option Bytes) : List (ProcessDeathRecord ν) → List Bytes
  | [] => []
  | record :: records =>
    pushLines toonl inHand (toRow .decoded record) ++
      encodeLines (some (toonl.header (toRow .decoded record))) records

def encodeDeathLane (records : List (ProcessDeathRecord ν)) : Bytes :=
  unlines newline (encodeLines toonl none records)

/-- The records of the complete lines, `none` where the decoder throws. -/
def decodeProcessDeathRecords (raw : Bytes) : Option (List (ProcessDeathRecord ν)) :=
  (parseText toonl.readRow (dropIncompleteTail newline raw)).bind
    (·.mapM (toDeathRecord numbers))

def readDeath (header line : Bytes) : Option (ProcessDeathRecord ν) :=
  (toonl.readRow header line).bind (toDeathRecord numbers)

variable (dateParse : Text → Option ℤ)

/-- What is young enough and, where there is a target, fits. -/
def retainedDeaths (nowMs : ℤ) (targetBytes : Option ℕ) (records : List (ProcessDeathRecord ν)) :
    List (ProcessDeathRecord ν) :=
  let dateOf := fun record : ProcessDeathRecord ν => dateParse record.ts
  let ageRetained := retainAge dateOf LanePolicy.processDeaths nowMs records
  match targetBytes with
  | none => ageRetained
  | some target =>
    retainWithin dateOf (fun kept => (encodeDeathLane toonl kept).length) target ageRetained

def oversized (raw : Bytes) : Bool := LanePolicy.processDeaths.maxBytes < raw.length

def compactionTarget (forcedTargetBytes : Option ℕ) (raw : Bytes) : Option ℕ :=
  forcedTargetBytes.or
    (if oversized raw then some LanePolicy.processDeaths.targetBytes else none)

variable [DecidableEq ν]

/-- The replacement of a lane and what it drops, `none` where it throws. Without a target
a lane that keeps all its records is left as it is. -/
def compactProcessDeathLaneToTarget (nowMs : ℤ) (forcedTargetBytes : Option ℕ) (raw : Bytes) :
    Option (Bytes × List (ProcessDeathRecord ν)) :=
  match decodeProcessDeathRecords toonl numbers raw with
  | none => none
  | some records =>
    let retained := retainedDeaths toonl dateParse nowMs
      (compactionTarget forcedTargetBytes raw) records
    if forcedTargetBytes.isNone && !oversized raw && retained.length = records.length then
      some (raw, [])
    else some (encodeDeathLane toonl retained, records.diff retained)

/-- How an append ends: it returns, or the process ends before a compaction it needs is
done, or with some of its bytes written. -/
inductive AppendEnd where
  | acknowledged
  | crashedEarly
  | crashed (written : ℕ)
  deriving DecidableEq

structure DeathAppend (ν : Type*) where
  record : ProcessDeathRecord ν
  order : KeyOrder
  clockMs : ℤ
  finish : AppendEnd

def DeathAppend.segment (append : DeathAppend ν) : Bytes :=
  unlines newline [toonl.header (toRow append.order append.record),
    toonl.line (toRow append.order append.record)]

/-- The lane, and what became of the appends: the records of those that returned, what
retention dropped, and what the crashed ones left as rows. -/
structure LaneRun (ν : Type*) where
  lane : Bytes
  acked : List (ProcessDeathRecord ν)
  shed : List (ProcessDeathRecord ν)
  leftovers : List (ProcessDeathRecord ν)

def LaneRun.start : LaneRun ν := ⟨[], [], [], []⟩

def endsClean (lane : Bytes) : Bool := lane.isEmpty || lane.getLast? == some newline

def separator (lane : Bytes) : Bytes := if endsClean lane then [] else [newline]

def closedRow (lane : Bytes) : List (ProcessDeathRecord ν) :=
  let tail := incompleteTail newline lane
  if tail = [] ∨ isHeader tail = true then []
  else ((lastHeader lane).bind (readDeath toonl numbers · tail)).toList

def AppendEnd.reaches (finish : AppendEnd) (text : Bytes) : Bytes :=
  match finish with
  | .acknowledged => text
  | .crashedEarly => []
  | .crashed written => text.take written

def writeSegment (run : LaneRun ν) (append : DeathAppend ν) : LaneRun ν :=
  let text := separator run.lane ++ append.segment toonl
  let reached := append.finish.reaches text
  { lane := run.lane ++ reached
    acked := if append.finish = .acknowledged then run.acked ++ [append.record] else run.acked
    shed := run.shed
    leftovers := run.leftovers ++ (if reached = [] then [] else closedRow toonl numbers run.lane) ++
      if append.finish ≠ .acknowledged ∧ reached = text then [append.record] else [] }

def laneSizeOverCeiling (lane : Bytes) (append : DeathAppend ν) : Bool :=
  LanePolicy.processDeaths.maxBytes <
    lane.length + ((separator lane).length + (append.segment toonl).length)

def appendProcessDeathRecord (run : LaneRun ν) (append : DeathAppend ν) : LaneRun ν :=
  if laneSizeOverCeiling toonl run.lane append then
    if append.finish = .crashedEarly then run
    else
      let nowMs := (dateParse append.record.ts).getD append.clockMs
      let targetBytes := LanePolicy.processDeaths.targetBytes - (append.segment toonl).length
      match compactProcessDeathLaneToTarget toonl numbers dateParse nowMs (some targetBytes)
        run.lane with
      | none => run
      | some (lane, dropped) =>
        writeSegment toonl numbers { run with lane := lane, shed := run.shed ++ dropped } append
  else writeSegment toonl numbers run append

inductive LaneEvent (ν : Type*) where
  | append (append : DeathAppend ν)
  | compact (nowMs : ℤ)

def laneStep (run : LaneRun ν) : LaneEvent ν → LaneRun ν
  | .append append => appendProcessDeathRecord toonl numbers dateParse run append
  | .compact nowMs =>
    match compactProcessDeathLaneToTarget toonl numbers dateParse nowMs none run.lane with
    | none => run
    | some (lane, dropped) => { run with lane := lane, shed := run.shed ++ dropped }

end
end Redskilled.Deaths
