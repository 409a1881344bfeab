import Redskilled.Foundation.Bisect
import Redskilled.Foundation.JsNumber
import Redskilled.Foundation.Lines
import Redskilled.Foundation.Locale
import Redskilled.Github.ConditionalClient

/-!
# The spend ledger

An observation is a row of the lane. `record` appends it under a header of its own. Where
the lane would outgrow its ceiling it is first cut down to its last rows, and the trimmer
writes these through one writer: a row whose fields are those of the row before it gets no
header.

`report` reads the lane by pairs of a header and a row. A row without a header of its own
is unreadable to it.

How a row is spelled belongs to the format library and is a parameter, with what the
library promises of the rows of the ledger. The dates and the collation of the language are
parameters too.
-/
namespace Redskilled.Github
open Foundation Foundation.Text

inductive ToonlValue where
  | text (t : Text)
  | number (n : ℚ)
  | bool (b : Bool)
  | null

abbrev ToonlRecord := List (Text × ToonlValue)

structure GithubAttributedOperation where
  key : Text
  budget : GithubRateBudget

structure GithubSpendObservation where
  observedAt : Text
  operationKey : Text
  identity : Option Text
  pool : GithubRateBudget
  actor : Option Text
  cost : ℕ
  deriving DecidableEq

def maxSafeInteger : ℕ := 2 ^ 53 - 1

def toToonlRecord (observation : GithubSpendObservation) : ToonlRecord :=
  [("version".toList, ToonlValue.number 1),
    ("observed_at".toList, .text observation.observedAt),
    ("operation_key".toList, .text observation.operationKey)] ++
  (observation.identity.toList.map fun identity => ("identity".toList, ToonlValue.text identity)) ++
  [("pool".toList, ToonlValue.text observation.pool.text)] ++
  (observation.actor.toList.map fun actor => ("actor".toList, ToonlValue.text actor)) ++
  [("cost".toList, ToonlValue.number observation.cost)]

def readPool (t : Text) : Option GithubRateBudget :=
  if t = "rest".toList then some .rest
  else if t = "graphql".toList then some .graphql
  else if t = "search".toList then some .search
  else none

/-- `Number.isSafeInteger(n) && n >= 0`. -/
def isSafeCost (n : ℚ) : Bool := n.den = 1 ∧ 0 ≤ n ∧ n ≤ maxSafeInteger

variable (locale : Locale)

def readActor (record : ToonlRecord) : Option (Option Text) :=
  match record.lookup "actor".toList with
  | none => some none
  | some (.text actor) => if actor = [] then none else some (some actor)
  | some _ => none

/-- The observation that a record is, where `isObservation` accepts it. -/
def readObservation (record : ToonlRecord) : Option GithubSpendObservation :=
  match record.lookup "version".toList, record.lookup "observed_at".toList,
      record.lookup "operation_key".toList, record.lookup "pool".toList, readActor record,
      record.lookup "cost".toList with
  | some (.number version), some (.text observedAt), some (.text operationKey),
      some (.text poolText), some actor, some (.number cost) =>
      match readPool poolText with
      | some pool =>
        if version = 1 ∧ (locale.dateParse observedAt).isSome ∧ operationKey ≠ [] ∧
            isSafeCost cost then
          some {
            observedAt, operationKey, pool, actor
            identity := match record.lookup "identity".toList with
              | some (.text identity) => some identity
              | _ => none
            cost := cost.num.toNat }
        else none
      | none => none
  | _, _, _, _, _, _ => none

inductive RecordError where
  | notAnInstant (label value : Text)
  | unsafeCost
  | blankActor
  | exceedsCeiling (ceiling : ℕ)
  | unwritten

/-- `cost` is none where it is no finite number. -/
def makeObservation (operation : GithubAttributedOperation) (cost : Option ℚ)
    (observedAt : Text) (actor identity : Option Text) :
    Except RecordError GithubSpendObservation :=
  if locale.dateParse observedAt = none then
    .error (.notAnInstant "GitHub spend observation".toList observedAt)
  else
    match cost with
    | none => .error .unsafeCost
    | some cost =>
      if isSafeCost cost = false then .error .unsafeCost
      else if actor.any fun actor => trim actor = [] then .error .blankActor
      else .ok {
        observedAt, identity, actor
        operationKey := operation.key
        pool := operation.budget
        cost := cost.num.toNat }

/-- The spelling of rows, with what the library promises of the rows of a ledger. -/
structure ToonlFormat where
  header : ToonlRecord → Text
  line : ToonlRecord → Text
  parseRecords : Text → Option (List ToonlRecord)

def newline : Char := '\n'

def headerMark : Text := "[]\x7b".toList

namespace ToonlFormat
variable (format : ToonlFormat)

def pushed (inHand : Option Text) : List ToonlRecord → List Text
  | [] => []
  | row :: rows =>
    (if inHand = some (format.header row) then [format.line row]
      else [format.header row, format.line row]) ++ pushed (some (format.header row)) rows

/-- The text of one writer. -/
def writerText (rows : List ToonlRecord) : Text := unlines newline (format.pushed none rows)

/-- What the library promises. -/
structure Lawful : Prop where
  header_mark : ∀ o, headerMark.isPrefixOf (format.header (toToonlRecord o)) = true
  header_line : ∀ o, newline ∉ format.header (toToonlRecord o)
  line_mark : ∀ o, headerMark.isPrefixOf (format.line (toToonlRecord o)) = false
  line_line : ∀ o, newline ∉ format.line (toToonlRecord o)
  line_blank : ∀ o, trim (format.line (toToonlRecord o)) ≠ []
  parse_written : ∀ written : List (List GithubSpendObservation), written.flatten ≠ [] →
    format.parseRecords (written.flatMap fun os => format.writerText (os.map toToonlRecord)) =
      some (written.flatten.map toToonlRecord)

def encodeRows (rows : List ToonlRecord) : Text := rows.flatMap fun row => format.writerText [row]

end ToonlFormat

def byteLength (t : Text) : ℕ := (t.map Char.utf8Size).sum

def sliceLast (n : ℕ) (rows : List ToonlRecord) : List ToonlRecord := rows.drop (rows.length - n)

variable (format : ToonlFormat)

def fitsWithin (rows : List ToonlRecord) (incomingBytes targetBytes middle : ℕ) : Bool :=
  byteLength (format.encodeRows (sliceLast middle rows)) + incomingBytes ≤ targetBytes

def keepLastWithin (rows : List ToonlRecord) (incomingBytes targetBytes : ℕ) : ℕ :=
  bisect (fitsWithin format rows incomingBytes targetBytes) rows.length 0 rows.length

/-- The lane is absent before its first row. -/
abbrev LaneFile := Option Text

def laneOverCeiling (file : LaneFile) (incomingBytes ceiling : ℕ) : Bool :=
  ceiling < byteLength (file.getD []) + incomingBytes

def readLaneRows (file : LaneFile) : Option (List ToonlRecord) :=
  match file with
  | none => some []
  | some raw => if trim raw = [] then some [] else format.parseRecords raw

/-- The rows of the complete lines. -/
def parseComplete (complete : Text) : Option (List ToonlRecord) :=
  if complete = [] then some [] else format.parseRecords complete

/-- The decoder path of `trimLaneKeepLast`, none where it throws. -/
def trimLaneKeepLast (file : LaneFile) (keepLast : ℕ) : Option LaneFile :=
  match file with
  | none => none
  | some raw =>
    (parseComplete format (dropIncompleteTail newline raw)).map fun rows =>
      some (format.writerText (if keepLast = 0 then [] else sliceLast keepLast rows))

structure Weather where
  mkdirFails : Bool
  statFails : Bool
  readFails : Bool
  trimFails : Bool
  appendFails : Option ℕ

def Weather.fair : Weather := ⟨false, false, false, false, none⟩

def append (file : LaneFile) (segment : Text) (weather : Weather) :
    LaneFile × Except RecordError Unit :=
  match weather.appendFails with
  | none => (some (file.getD [] ++ segment), .ok ())
  | some 0 => (file, .error .unwritten)
  | some written => (some (file.getD [] ++ segment.take written), .error .unwritten)

def targetBytes (ceiling incomingBytes : ℕ) : ℕ := max (ceiling / 2) incomingBytes

/-- What `record` does with an observation, in its turn of the pending writes. -/
def write (ceiling : ℕ) (file : LaneFile) (observation : GithubSpendObservation)
    (weather : Weather) : LaneFile × Except RecordError Unit :=
  let segment := format.writerText [toToonlRecord observation]
  let incomingBytes := byteLength segment
  if weather.mkdirFails then (file, .error .unwritten)
  else if weather.statFails then (file, .error .unwritten)
  else if laneOverCeiling file incomingBytes ceiling then
    if ceiling < incomingBytes then (file, .error (.exceedsCeiling ceiling))
    else if weather.readFails then (file, .error .unwritten)
    else
      match readLaneRows format file with
      | none => (file, .error .unwritten)
      | some rows =>
        if weather.trimFails then (file, .error .unwritten)
        else
          match trimLaneKeepLast format file
              (keepLastWithin format rows incomingBytes (targetBytes ceiling incomingBytes)) with
          | none => (file, .error .unwritten)
          | some file => append file segment weather
  else append file segment weather

structure ObservationRead where
  observations : List GithubSpendObservation
  unreadable : ℕ

def ObservationRead.add (read : ObservationRead) : Option GithubSpendObservation → ObservationRead
  | some observation => { read with observations := observation :: read.observations }
  | none => { read with unreadable := read.unreadable + 1 }

/-- The row of a header and a row line. -/
def readPair (header row : Text) : Option GithubSpendObservation :=
  ((format.parseRecords (unlines newline [header, row])).bind List.head?).bind
    (readObservation locale)

/-- The lines by pairs. -/
def readLines : List Text → ObservationRead
  | [] => ⟨[], 0⟩
  | header :: lines =>
    if trim header = [] then readLines lines
    else
      match lines with
      | [] => ⟨[], 1⟩
      | row :: rest =>
        if headerMark.isPrefixOf header = false ∨ trim row = [] then
          (readLines (row :: rest)).add none
        else (readLines rest).add (readPair locale format header row)

def readObservations (file : LaneFile) : ObservationRead :=
  match file with
  | none => ⟨[], 0⟩
  | some contents => readLines locale format (contents.splitOn newline)

structure GithubOperationSpend where
  operationKey : Text
  pool : GithubRateBudget
  actor : Option Text
  count : ℕ
  cost : JsNumber

def groupKey (observation : GithubSpendObservation) : Text :=
  observation.pool.text ++ [Char.ofNat 0] ++ observation.operationKey ++ [Char.ofNat 0] ++
    observation.actor.getD []

def group (grouped : JsMap Text GithubOperationSpend) (observation : GithubSpendObservation) :
    JsMap Text GithubOperationSpend :=
  let current := grouped.lookup (groupKey observation)
  JsMap.set grouped (groupKey observation) {
    operationKey := observation.operationKey
    pool := observation.pool
    actor := observation.actor
    count := (current.map (·.count)).getD 0 + 1
    cost := JsNumber.add ((current.map (·.cost)).getD 0) ((observation.cost : ℚ≥0) : JsNumber) }

def GithubOperationSpend.notAfter (left right : GithubOperationSpend) : Bool :=
  if left.cost ≠ right.cost then right.cost < left.cost
  else if left.count ≠ right.count then right.count < left.count
  else
    ((locale.localeCompare left.operationKey right.operationKey).then
      ((locale.localeCompare left.pool.text right.pool.text).then
        (locale.localeCompare (left.actor.getD []) (right.actor.getD [])))).isLE

structure GithubSpendAttributionReport where
  pool : Option GithubRateBudget
  totalCount : ℕ
  totalCost : JsNumber
  operations : List GithubOperationSpend
  unreadableRecords : ℕ

inductive ReportError where
  | notAnInstant (label value : Text)
  | emptyWindow

/-- An observation of the window and the pool. -/
def isReported (start stop : ℤ) (pool : Option GithubRateBudget)
    (observation : GithubSpendObservation) : Bool :=
  ((locale.dateParse observation.observedAt).all fun observed => start ≤ observed && observed < stop) &&
    pool.all (· = observation.pool)

def report (file : LaneFile) (windowFrom windowTo : Text) (pool : Option GithubRateBudget) :
    Except ReportError GithubSpendAttributionReport :=
  match locale.dateParse windowFrom, locale.dateParse windowTo with
  | none, _ => .error (.notAnInstant "report window start".toList windowFrom)
  | _, none => .error (.notAnInstant "report window end".toList windowTo)
  | some start, some stop =>
    if stop ≤ start then .error .emptyWindow
    else
      let read := readObservations locale format file
      let found := read.observations.filter (isReported locale start stop pool)
      let operations := (found.foldl group ∅).values.mergeSort (GithubOperationSpend.notAfter locale)
      .ok {
        pool
        totalCount := (operations.map (·.count)).sum
        totalCost := JsNumber.total (operations.map (·.cost))
        operations
        unreadableRecords := read.unreadable }

end Redskilled.Github
