import Mathlib.Data.List.Sort
import Redskilled.Foundation.Dialogue
import Redskilled.Foundation.NumericText
import Redskilled.Telemetry.SpoolRows

/-!
# Spooling and draining

An event is appended to the file that is active, and the file it was written to is then
compared with the one that is active: where a drain has renamed the file away meanwhile, the
event is appended again. A drain first adopts what crashed drains have left, then retries
what is pending, and then renames the active file away and drains it.

What is found out about lines, files, processes and clocks is asked for. The search for the
directory, its making and the look at the size of a lane are one question each. To close a
descriptor is none.
-/
namespace Redskilled.Telemetry
open Foundation Foundation.Text Dialogue

/-- The two files that events were ever spooled to. -/
inductive SpoolFile where
  | active | legacy
  deriving DecidableEq

def SpoolFile.name : SpoolFile → Text
  | .active => "rsp-telemetry.spool.toonl".toList
  | .legacy => "rsp-telemetry.spool.jsonl".toList

inductive SpoolOp where
  | resolveRoot
  | mkdir
  | laneCeiling
  | openActive
  | write (fd : ℕ) (lines : List Text)
  | fstat (fd : ℕ)
  | statActive
  | createActive
  | createExclusive
  | readdir
  | isAlive (pid : ℤ)
  | readFile (name : Text)
  | readCorrections
  | drainLine (entry : RspTelemetrySpoolEntry)
  /-- What comes before a correction is appended. -/
  | correctionLane (correction : RspTelemetryCorrectionRow)
  | appendCorrection (correction : RspTelemetryCorrectionRow) (lines : List Text)
  | rename (file : SpoolFile) (name : Text)
  | rm (name : Text)
  | randomUUID
  | isoNow
  | now

abbrev Answer : SpoolOp → Type
  | .resolveRoot => Bool
  | .openActive => ℕ
  | .fstat _ => ℕ
  | .statActive => Option ℕ
  | .readdir => List Text
  | .isAlive _ => Bool
  | .readFile _ => List Text
  | .readCorrections => List Text
  | .drainLine _ => Bool
  | .correctionLane _ => Bool
  | .randomUUID => Text
  | .isoNow => Text
  | .now => ℕ
  | _ => Unit

abbrev Program (α : Type) := Dialogue SpoolOp Answer α

/-- An event as its type has it: an object that JSON has, of a known collection. -/
structure RspTelemetryEvent where
  fields : TelemetryEvent
  proper : (Json.object fields).Proper
  telemetry : isTelemetry fields = true

variable (T : Toonl) (digest : Text → Text)

inductive Appended where
  /-- The file that was written to was the active one behind the write. -/
  | proved
  /-- Something threw, with a row written before or none. -/
  | thrown (written : Bool)
  | trying

def appendSpoolLineSync (lines : List Text) : ℕ → Bool → Program Appended
  | 0, _ => pure .trying
  | turns + 1, written => do
      let opened ← attempt SpoolOp.openActive
      match opened with
      | none => pure (.thrown written)
      | some descriptor => do
          let wrote ← attempt (SpoolOp.write descriptor lines)
          match wrote with
          | none => pure (.thrown written)
          | some () => do
              let opened ← attempt (SpoolOp.fstat descriptor)
              match opened with
              | none => pure (.thrown true)
              | some opened => do
                  let active ← attempt SpoolOp.statActive
                  match active with
                  | none => pure (.thrown true)
                  | some active =>
                    if active = some opened then pure .proved
                    else appendSpoolLineSync lines turns true

/-- The number of the row and how its append ended, where it came to one. What throws is
dropped. -/
def appendTelemetryEventSync (event : RspTelemetryEvent) (turns : ℕ) :
    Program (Option (Text × Appended)) := do
  let found ← need SpoolOp.resolveRoot
  if !found then pure none
  else do
    let made ← attempt SpoolOp.mkdir
    match made with
    | none => pure none
    | some () => do
        let spoolId ← need SpoolOp.randomUUID
        let lines := formatSpoolRow T
          ⟨spoolId, some (compactTelemetryEventForSpool event.fields), none⟩
        let ceiling ← attempt SpoolOp.laneCeiling
        match ceiling with
        | none => pure none
        | some () => do
            let ended ← appendSpoolLineSync lines turns false
            pure (some (spoolId, ended))

def appendCorrection (correction : RspTelemetryCorrectionRow) : Program Unit := do
  let lane ← attempt (SpoolOp.correctionLane correction)
  match lane with
  | some true => do
      let _ ← attempt (SpoolOp.appendCorrection correction (formatCorrectionRow T correction))
      pure ()
  | _ => pure ()

def correct (entry : RspTelemetrySpoolEntry) (action : CorrectionAction) (eventJson : Option Text) :
    Program Unit := do
  let correctionId ← need SpoolOp.randomUUID
  let createdAt ← need SpoolOp.isoNow
  appendCorrection T ⟨correctionId, entry.spoolId, action, createdAt, eventJson⟩

def eventJson (entry : RspTelemetrySpoolEntry) : Option Text :=
  entry.event.map fun event => (Json.object event).stringify

def drainEntry (fromCorrection : Bool) (entry : RspTelemetrySpoolEntry) : Program Unit := do
  let drained ← attempt (SpoolOp.drainLine entry)
  match drained with
  | some true => if fromCorrection then correct T entry .resolved none else pure ()
  | _ => correct T entry .retry (eventJson entry)

def drainEntries (fromCorrection : Bool) : List RspTelemetrySpoolEntry → Program Unit
  | [] => pure ()
  | entry :: entries => do
      drainEntry T fromCorrection entry
      drainEntries fromCorrection entries

/-- A file is read until it is read twice alike, and a read that throws reads nothing. -/
def readSettledFile (name : Text) : ℕ → List Text → Program (List Text)
  | 0, text => pure text
  | turns + 1, text => do
      let read ← attempt (SpoolOp.readFile name)
      if read.getD [] = text then pure (read.getD [])
      else readSettledFile name turns (read.getD [])

def drainFile (name : Text) : Program Unit := do
  let text ← readSettledFile name 5 []
  drainEntries T false (parseSpoolEntries T digest text)
  need (SpoolOp.rm name)

def drainFiles : List Text → Program Unit
  | [] => pure ()
  | name :: names => do
      drainFile T digest name
      drainFiles names

def drainSuffix : Text := ".drain".toList

def drainName (file : SpoolFile) (pid time : ℕ) : Text :=
  file.name ++ '.' :: number pid ++ '.' :: number time ++ drainSuffix

def spoolBase (name : Text) : Option SpoolFile :=
  [SpoolFile.active, SpoolFile.legacy].find? fun file => (file.name ++ ['.']).isPrefixOf name

def isDrainName (name : Text) : Bool := (spoolBase name).isSome && drainSuffix.isSuffixOf name

/-- `Number(text)`, where it is an integer. -/
def integerOf (text : Text) : Option ℤ :=
  (toNumber text).bind fun n =>
    match n.magnitude with
    | none => none
    | some q => if q.den = 1 then some (if n.negative then -(q.num : ℤ) else q.num) else none

/-- The process that a name has. -/
def ownerPid (name : Text) : Option ℤ :=
  (spoolBase name).bind fun file =>
    integerOf ((name.drop (file.name.length + 1)).takeWhile (· ≠ '.'))

def isOrphan (pid : ℕ) (name : Text) : Program Bool :=
  match ownerPid name with
  | some owner =>
    if owner ≠ pid then do
      let alive ← need (SpoolOp.isAlive owner)
      pure (!alive)
    else pure true
  | none => pure true

def filterOrphans (pid : ℕ) : List Text → Program (List Text)
  | [] => pure []
  | name :: names => do
      let orphan ← isOrphan pid name
      let rest ← filterOrphans pid names
      pure (if orphan then name :: rest else rest)

def orphanedDrainFiles (pid : ℕ) : Program (List Text) := do
  let names ← attempt SpoolOp.readdir
  let orphans ← filterOrphans pid ((names.getD []).filter isDrainName)
  pure (orphans.insertionSort fun a b => utf16Lt b a = false)

def renameSpool (pid : ℕ) (file : SpoolFile) : Program (List Text) := do
  let time ← need SpoolOp.now
  let renamed ← attempt (SpoolOp.rename file (drainName file pid time))
  match renamed with
  | none => pure []
  | some () =>
    if file = .active then do
      let _ ← attempt SpoolOp.createExclusive
      pure [drainName file pid time]
    else pure [drainName file pid time]

def renameActiveSpools (pid : ℕ) : Program (List Text) := do
  let active ← renameSpool pid .active
  let legacy ← renameSpool pid .legacy
  pure (active ++ legacy)

def drainTelemetrySpool (pid : ℕ) : Program Unit := do
  let found ← need SpoolOp.resolveRoot
  if !found then pure ()
  else do
    let _ ← attempt SpoolOp.mkdir
    let _ ← attempt SpoolOp.createActive
    let orphans ← orphanedDrainFiles pid
    drainFiles T digest orphans
    let corrections ← attempt SpoolOp.readCorrections
    drainEntries T true (pendingCorrectionEntries T (corrections.getD []))
    let renamed ← renameActiveSpools pid
    drainFiles T digest renamed

end Redskilled.Telemetry
