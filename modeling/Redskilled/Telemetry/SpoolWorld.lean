import Redskilled.Foundation.Service
import Redskilled.Telemetry.Spool

/-!
# Spool and drains at work

Any number of appends and drains run on one directory. A file that is renamed or removed is
still written to by who has it open. What is recorded beside the files is which spool numbers
stand anywhere and which events they were given to, what each drain file had when it was
renamed, which names drain files had, which rows were written to the active file, what was
appended, and what was accepted.

A spool number that is made stands nowhere yet.
-/
namespace Redskilled.Telemetry
open Foundation Foundation.Text Dialogue

structure World where
  active : Option ℕ
  legacy : Option ℕ
  drains : List (Text × ℕ)
  content : ℕ → List Text
  nextInode : ℕ
  corrections : List Text
  ids : List Text
  /-- The spool numbers that appends were given, with what is spooled. -/
  events : List (Text × TelemetryEvent)
  /-- What a drain file had when it was renamed. -/
  settled : ℕ → List Text
  names : List Text
  /-- The rows that were written to the file that was the active one then. -/
  firm : List (List Text)
  /-- The lines that were no events at the beginning. -/
  rawLines : List Text
  appended : List RspTelemetrySpoolEntry
  accepted : List RspTelemetrySpoolEntry

namespace World
variable (w : World)

def file : SpoolFile → Option ℕ
  | .active => w.active
  | .legacy => w.legacy

def files : List ℕ := w.active.toList ++ w.legacy.toList ++ w.drains.map Prod.snd

def create : World := { w with active := some w.nextInode, nextInode := w.nextInode + 1 }

def write (fd : ℕ) (lines : List Text) : World :=
  { w with
    content := Function.update w.content fd (w.content fd ++ lines)
    firm := if w.active = some fd then lines :: w.firm else w.firm }

def renamed (file : SpoolFile) (name : Text) (fd : ℕ) : World :=
  { w with
    active := if file = .active then none else w.active
    legacy := if file = .legacy then none else w.legacy
    drains := (name, fd) :: w.drains.filter (·.1 ≠ name)
    settled := Function.update w.settled fd (w.content fd)
    names := name :: w.names }

def remove (name : Text) : World := { w with drains := w.drains.filter (·.1 ≠ name) }

def correct (lines : List Text) : World := { w with corrections := w.corrections ++ lines }

def accept (entry : RspTelemetrySpoolEntry) : World :=
  { w with accepted := w.accepted ++ [entry] }

def give (spoolId : Text) (event : TelemetryEvent) : World :=
  { w with ids := spoolId :: w.ids, events := w.events ++ [(spoolId, event)] }

end World

inductive Call where
  | append (event : RspTelemetryEvent) (turns : ℕ)
  | drain (pid : ℕ)

inductive Returned where
  | appended (ended : Option (Text × Appended))
  | drained

/-- An operation throws, or works, with a text, a number and a verdict that it is free to
choose. -/
inductive Choice where
  | fails
  | works (text : Text) (number : ℕ) (yes : Bool)

variable (T : Toonl) (digest : Text → Text)

def Call.program : Call → Program Returned
  | .append event turns => do
      let ended ← appendTelemetryEventSync T event turns
      pure (.appended ended)
  | .drain pid => do
      drainTelemetrySpool T digest pid
      pure .drained

def perform (w : World) (call : Call) (text : Text) (number : ℕ) (yes : Bool) :
    (q : SpoolOp) → Option (Option (Answer q) × World)
  | .resolveRoot => some (some yes, w)
  | .mkdir => some (some (), w)
  | .laneCeiling => some (some (), w)
  | .openActive =>
    match w.active with
    | some fd => some (some fd, w)
    | none => some (some w.nextInode, w.create)
  | .write fd lines => some (some (), w.write fd lines)
  | .fstat fd => some (some fd, w)
  | .statActive => some (some w.active, w)
  | .createActive =>
    match w.active with
    | some _ => some (some (), w)
    | none => some (some (), w.create)
  | .createExclusive =>
    match w.active with
    | some _ => some (none, w)
    | none => some (some (), w.create)
  | .readdir => some (some (w.drains.map Prod.fst), w)
  | .isAlive _ => some (some yes, w)
  | .readFile name => some ((w.drains.lookup name).map w.content, w)
  | .readCorrections => some (some w.corrections, w)
  | .drainLine entry => some (some yes, if yes then w.accept entry else w)
  | .correctionLane _ => some (some yes, w)
  | .appendCorrection _ lines => some (some (), w.correct lines)
  | .rename file name =>
    match w.file file with
    | some fd => some (some (), w.renamed file name fd)
    | none => some (none, w)
  | .rm name => some (some (), w.remove name)
  | .randomUUID =>
    match call with
    | .append event _ =>
      if text ∈ w.ids then none
      else some (some text, w.give text (compactTelemetryEventForSpool event.fields))
    | .drain _ => some (some text, w)
  | .isoNow => some (some text, w)
  | .now => some (some number, w)

/-- Whether an operation can throw. The clock, a random number, the life of a process and the
search for the directory cannot. -/
def throws : SpoolOp → Bool
  | .resolveRoot => false
  | .isAlive _ => false
  | .randomUUID => false
  | .isoNow => false
  | .now => false
  | _ => true

def reply (w : World) (_ : ℕ) (call : Call) (q : SpoolOp) :
    Choice → Option (Option (Answer q) × World)
  | .fails => if throws q then some (none, w) else none
  | .works text number yes => perform w call text number yes q

def wroteRow : Option Returned → Option Text
  | some (.appended (some (spoolId, .proved))) => some spoolId
  | some (.appended (some (spoolId, .thrown true))) => some spoolId
  | _ => none

def settle (w : World) (_ : ℕ) (call : Call) (result : Option Returned) : World :=
  match call, wroteRow result with
  | .append event _, some spoolId =>
    { w with appended := w.appended ++
        [spooled spoolId (compactTelemetryEventForSpool event.fields)] }
  | _, _ => w

def spool : Service SpoolOp Answer Returned Call World Choice Empty where
  program _ call := call.program T digest
  reply := reply
  settle := settle
  moves _ move := move.elim

abbrev Session := Service.Session SpoolOp Answer Returned Call

abbrev State := Service.State SpoolOp Answer Returned Call World

abbrev Move := Service.Move Call Choice Empty

def nonEvent (header raw : Text) : Option Text :=
  let line := trim raw
  if line = [] then none
  else if (Json.parse line).isNone && isHeaderLine line then none
  else if (parseSpoolLine T digest header raw).2.any (·.event.isSome) then none
  else some line

def nonEvents (header : Text) : List Text → List Text
  | [] => []
  | raw :: lines =>
    (nonEvent T digest header raw).toList ++ nonEvents (parseSpoolLine T digest header raw).1 lines

section
variable (w : World)

def World.entries (fd : ℕ) : List RspTelemetrySpoolEntry := parseSpoolEntries T digest (w.content fd)

/-- The entry is in a spool file or in a drain file, which is what a drain adopts, it is
pending, or it was accepted. -/
def World.Kept (entry : RspTelemetrySpoolEntry) : Prop :=
  (∃ fd ∈ w.files, entry ∈ w.entries T digest fd) ∨
    entry ∈ pendingCorrectionEntries T w.corrections ∨ entry ∈ w.accepted

/-- A drain that lists the name adopts it, unless another process whose number the name has
is found alive. -/
def Adopted (name : Text) : Prop :=
  ∀ pid names trace found,
    Run (orphanedDrainFiles pid) (⟨.readdir, some names⟩ :: trace) (.returned found) →
    name ∈ names →
    (∀ owner, ownerPid name = some owner → owner ≠ pid → ⟨.isAlive owner, some true⟩ ∉ trace) →
      name ∈ found

/-- No event is lost that was appended, nor a line of the beginning that is none. -/
structure World.NothingLost : Prop where
  events : ∀ entry ∈ w.appended, w.Kept T digest entry
  lines : ∀ line ∈ w.rawLines, w.Kept T digest (rawEntry digest line)
  adoptable : ∀ file ∈ w.drains, Adopted file.1

/-- Files of any content, all of them apart, with what stands in them recorded. -/
structure World.Begins : Prop where
  apart : w.files.Nodup
  below : ∀ fd ∈ w.files, fd < w.nextInode
  empty : ∀ fd, w.nextInode ≤ fd → w.content fd = []
  distinct : (w.drains.map Prod.fst).Nodup
  drainNames : ∀ file ∈ w.drains, isDrainName file.1 = true ∧ file.1 ∈ w.names
  settled : w.settled = w.content
  ids : (∀ fd, ∀ entry ∈ w.entries T digest fd, entry.spoolId ∈ w.ids) ∧
    ∀ row ∈ parseCorrectionRows T w.corrections, row.targetSpoolId ∈ w.ids
  events : w.events = []
  firm : w.firm = []
  rawLines : ∀ line, line ∈ w.rawLines ↔ ∃ fd ∈ w.files, line ∈ nonEvents T digest [] (w.content fd)
  appended : w.appended = []
  accepted : w.accepted = []

end
end Redskilled.Telemetry
