import Redskilled.Deaths.DeathAttribution

/-!
# The boot reaper

At boot the anchors that are left are read, in the order of their file names. The anchor
of a live process stays. One whose process recorded its own death is removed, and so is
every other, once its death is attributed; the attributions are appended to their lane
behind the loop, after the lane of deaths has been compacted.

Each operation on the files can fail, and the process can end between any two of them.
-/
namespace Redskilled.Deaths
open Foundation

/-- A file among the anchors, and what it holds where that is an anchor. -/
structure AnchorFile where
  name : Text
  anchor : Option ProcessPresence

/-- The files in the order of their names, every anchor under its own name. -/
structure PresenceDir where
  files : List AnchorFile
  sorted : files.Pairwise fun file other => Text.utf16Lt file.name other.name = true
  named : ∀ file ∈ files, ∀ presence ∈ file.anchor, file.name = presenceFileName presence

/-- The lane of deaths by its size and its records, `none` where it does not decode. A
lane that is absent is empty. -/
structure DeathLane where
  bytes : ℕ
  records : Option (List (ProcessDeathRecord ℕ))

/-- The files under the state root, and beside each lane what retention has taken from
it. The attributions are `none` where their lane does not decode. -/
structure Disk where
  presences : PresenceDir
  deaths : DeathLane
  shedDeaths : List (ProcessDeathRecord ℕ)
  attributions : Option (List DeathAttribution)
  shedAttributions : List DeathAttribution

namespace PresenceDir

def anchors (dir : PresenceDir) : List ProcessPresence := dir.files.filterMap AnchorFile.anchor

def remove (name : Text) (dir : PresenceDir) : PresenceDir where
  files := dir.files.filter fun file => file.name ≠ name
  sorted := dir.sorted.sublist List.filter_sublist
  named := fun file hfile => dir.named file (List.mem_filter.mp hfile).1

end PresenceDir

namespace Disk

def deathLog (disk : Disk) : List (ProcessDeathRecord ℕ) :=
  disk.shedDeaths ++ disk.deaths.records.getD []

def attributionLog (disk : Disk) : List DeathAttribution :=
  disk.shedAttributions ++ disk.attributions.getD []

end Disk

structure LaneFormat where
  dateParse : Text → Option ℤ
  deathBytes : List (ProcessDeathRecord ℕ) → ℕ
  attributionBytes : List DeathAttribution → ℕ

structure Boot where
  evidence : HostDeathEvidence
  reapedAt : Text
  clockMs : ℤ

/-- Where the process ends: with some anchors handled, behind the compaction, or behind
the append. -/
inductive Crash where
  | never
  | inLoop (handled : ℕ)
  | beforeAppend
  | beforeReturn
  deriving DecidableEq

/-- The operations that fail. -/
structure Faults where
  readDir : Bool
  readAnchor : Text → Bool
  readDeaths : Bool
  clear : Text → Bool
  compactRead : Bool
  compactReplace : Bool
  appendMkdir : Bool
  readAttributions : Bool
  appendReplace : Bool
  crash : Crash

def Faults.none : Faults where
  readDir := false
  readAnchor := fun _ => false
  readDeaths := false
  clear := fun _ => false
  compactRead := false
  compactReplace := false
  appendMkdir := false
  readAttributions := false
  appendReplace := false
  crash := .never

def Crash.seen (crash : Crash) (presences : List ProcessPresence) : List ProcessPresence :=
  match crash with
  | .inLoop handled => presences.take handled
  | _ => presences

section
variable (format : LaneFormat) (boot : Boot) (faults : Faults)

def isPresenceFile (file : AnchorFile) : Bool := ".toon".toList.isSuffixOf file.name

def readProcessPresences (dir : PresenceDir) : List ProcessPresence :=
  if faults.readDir then []
  else dir.files.filterMap fun file =>
    if isPresenceFile file && !faults.readAnchor file.name then file.anchor else none

/-- The files that would not decode. -/
def skippedPresences (dir : PresenceDir) : List Text :=
  if faults.readDir then []
  else (dir.files.filter fun file =>
    isPresenceFile file && (faults.readAnchor file.name || file.anchor.isNone)).map AnchorFile.name

def readProcessDeathLane (disk : Disk) : Option (List (ProcessDeathRecord ℕ)) :=
  if faults.readDeaths then none else disk.deaths.records

/-- A file that will not go is left. -/
def clearProcessPresence (dir : PresenceDir) (presence : ProcessPresence) : PresenceDir :=
  if faults.clear (presenceFileName presence) then dir else dir.remove (presenceFileName presence)

def isLive (presence : ProcessPresence) : Bool := boot.evidence.livePids.contains presence.pid

def explainsItself (deaths : List (ProcessDeathRecord ℕ)) (presence : ProcessPresence) : Bool :=
  deaths.any fun death => death.pid = presence.pid && death.id = presence.id

structure Reaping where
  presences : PresenceDir
  attributions : List DeathAttribution
  alive : List ProcessPresence
  selfRecorded : List ProcessPresence

def reapStep (deaths : List (ProcessDeathRecord ℕ)) (reaping : Reaping)
    (presence : ProcessPresence) : Reaping :=
  if isLive boot presence then { reaping with alive := reaping.alive ++ [presence] }
  else if explainsItself deaths presence then
    { reaping with
      selfRecorded := reaping.selfRecorded ++ [presence]
      presences := clearProcessPresence faults reaping.presences presence }
  else
    { reaping with
      attributions := reaping.attributions ++
        [attributeDeath presence boot.evidence deaths boot.reapedAt]
      presences := clearProcessPresence faults reaping.presences presence }

def reap (deaths : List (ProcessDeathRecord ℕ)) (presences : List ProcessPresence)
    (dir : PresenceDir) : Reaping :=
  presences.foldl (reapStep boot faults deaths)
    { presences := dir, attributions := [], alive := [], selfRecorded := [] }

def isOversized (lane : DeathLane) : Bool := LanePolicy.processDeaths.maxBytes < lane.bytes

def retainDeaths (nowMs : ℤ) (lane : DeathLane) (records : List (ProcessDeathRecord ℕ)) :
    List (ProcessDeathRecord ℕ) :=
  let policy := LanePolicy.processDeaths
  let dateOf := fun record : ProcessDeathRecord ℕ => format.dateParse record.ts
  let ageRetained := retainAge dateOf policy nowMs records
  if isOversized lane then
    retainWithin dateOf format.deathBytes policy.targetBytes ageRetained
  else ageRetained

def compactProcessDeathLane (nowMs : ℤ) (disk : Disk) : Option Disk :=
  if faults.compactRead then none
  else match disk.deaths.records with
    | none => none
    | some records =>
      let retained := retainDeaths format nowMs disk.deaths records
      if !isOversized disk.deaths && retained.length = records.length then some disk
      else if faults.compactReplace then none
      else some { disk with
        deaths := ⟨format.deathBytes retained, some retained⟩
        shedDeaths := disk.shedDeaths ++ records.filter (!retained.contains ·) }

def compactAtBoot (disk : Disk) : Option Disk :=
  match format.dateParse boot.reapedAt with
  | none => some disk
  | some reapedAtMs => compactProcessDeathLane format faults reapedAtMs disk

def retainAttributions (nowMs : ℤ) (attributions : List DeathAttribution) : List DeathAttribution :=
  let policy := LanePolicy.deathAttributions
  let dateOf := fun attribution : DeathAttribution => format.dateParse attribution.ts
  let ageRetained := retainAge dateOf policy nowMs attributions
  if format.attributionBytes ageRetained ≤ policy.maxBytes then ageRetained
  else retainWithin dateOf format.attributionBytes policy.targetBytes ageRetained

def attributionsRead (disk : Disk) : Option (List DeathAttribution) :=
  if faults.readAttributions then some [] else disk.attributions

def appendAttributions (attributions : List DeathAttribution) (disk : Disk) : Option Disk :=
  if faults.appendMkdir then none
  else match attributionsRead faults disk with
    | none => none
    | some existing =>
      let combined := existing ++ attributions
      let retained := retainAttributions format
        ((format.dateParse boot.reapedAt).getD boot.clockMs) combined
      if faults.appendReplace then none
      else some { disk with
        attributions := some retained
        shedAttributions := disk.shedAttributions ++ combined.filter (!retained.contains ·) }

/-- How far a run came, and what it leaves. `appended` is what it put on the lane. -/
structure ReaperRun where
  disk : Disk
  returned : Bool
  attributions : List DeathAttribution
  alive : List ProcessPresence
  selfRecorded : List ProcessPresence
  skipped : List Text
  appended : List DeathAttribution

def finishReaping (reaping : Reaping) (disk : Disk) : Disk × Bool × List DeathAttribution :=
  match faults.crash with
  | .inLoop _ => (disk, false, [])
  | _ =>
    match compactAtBoot format boot faults disk with
    | none => (disk, false, [])
    | some compacted =>
      if faults.crash = .beforeAppend then (compacted, false, [])
      else
        match if reaping.attributions = [] then none
          else appendAttributions format boot faults reaping.attributions compacted with
        | none => (compacted, faults.crash = .never, [])
        | some written => (written, faults.crash = .never, reaping.attributions)

def runBootDeathReaper (disk : Disk) : ReaperRun :=
  let skipped := skippedPresences faults disk.presences
  match readProcessDeathLane faults disk with
  | none =>
    { disk := disk, returned := false, attributions := [], alive := [], selfRecorded := []
      skipped := skipped, appended := [] }
  | some deaths =>
    let presences := readProcessPresences faults disk.presences
    let reaping := reap boot faults deaths (faults.crash.seen presences) disk.presences
    let finished := finishReaping format boot faults reaping
      { disk with presences := reaping.presences }
    { disk := finished.1
      returned := finished.2.1
      attributions := reaping.attributions
      alive := reaping.alive
      selfRecorded := reaping.selfRecorded
      skipped := skipped
      appended := finished.2.2 }

end
end Redskilled.Deaths
