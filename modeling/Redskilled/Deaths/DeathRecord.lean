import Redskilled.Lane.Compaction

/-!
# Death records

The record a process writes on its own way out, the anchor it leaves while it lives,
and what a lane of such entries keeps.
-/
namespace Redskilled.Deaths
open Foundation

inductive ProcessDeathKind where
  | launcher | worker | daemon
  deriving DecidableEq

instance : Vocabulary ProcessDeathKind where
  all := [.launcher, .worker, .daemon]
  text
    | .launcher => "launcher".toList
    | .worker => "worker".toList
    | .daemon => "daemon".toList
  mem_all := by intro kind; cases kind <;> decide
  nodup_texts := by decide +kernel

inductive ProcessExitPath where
  | exit | signal | uncaughtException | unhandledRejection
  deriving DecidableEq

instance : Vocabulary ProcessExitPath where
  all := [.exit, .signal, .uncaughtException, .unhandledRejection]
  text
    | .exit => "exit".toList
    | .signal => "signal".toList
    | .uncaughtException => "uncaught-exception".toList
    | .unhandledRejection => "unhandled-rejection".toList
  mem_all := by intro path; cases path <;> decide
  nodup_texts := by decide +kernel

/-- The numbers of a record are of any type. -/
structure ProcessResourceSample (ν : Type*) where
  uptimeS : ν
  rssKb : ν
  maxRssKb : ν
  userCpuUs : ν
  systemCpuUs : ν
  minorPageFaults : ν
  majorPageFaults : ν
  voluntaryCtxSwitches : ν
  involuntaryCtxSwitches : ν
  deriving DecidableEq

/-- Where the host placed the process. -/
structure WorkerScopeFacts where
  scope : Option Text
  memoryCeiling : Option Text
  scopeDegradation : Option Text
  deriving DecidableEq

structure ProcessDeathRecord (ν : Type*) extends WorkerScopeFacts, ProcessResourceSample ν where
  version : ν
  ts : Text
  kind : ProcessDeathKind
  id : Text
  pid : ν
  exitPath : ProcessExitPath
  signal : Option Text
  exitCode : Option ν
  lastPhase : Text
  detail : Option Text
  deriving DecidableEq

structure ProcessPresence where
  version : ℕ
  ts : Text
  kind : ProcessDeathKind
  id : Text
  pid : ℕ
  ppid : ℕ
  bootId : Option Text
  cgroup : Option Text
  lastPhase : Text
  deriving DecidableEq

/-- The class `[A-Za-z0-9._-]`. -/
def isFileNameChar (c : Char) : Bool :=
  c.isAlphanum || c == '.' || c == '_' || c == '-'

/-- `id.replace(/[^A-Za-z0-9._-]/g, "_")`, which replaces code units. -/
def fileNameOf (id : Text) : Text :=
  id.flatMap fun c => if isFileNameChar c then [c] else (Text.utf16 c).map fun _ => '_'

def presenceFileName (presence : ProcessPresence) : Text :=
  Vocabulary.text presence.kind ++ "-".toList ++ fileNameOf presence.id ++ "-".toList ++
    Text.number presence.pid ++ ".toon".toList

/-- What a lane may hold: its age, its size, and the size a rewrite aims at. -/
structure LanePolicy where
  maxBytes : ℕ
  maxAgeMs : ℤ

namespace LanePolicy

def processDeaths : LanePolicy := ⟨4 * 1024 * 1024, 14 * 24 * 60 * 60 * 1000⟩

def deathAttributions : LanePolicy := ⟨1024 * 1024, 14 * 24 * 60 * 60 * 1000⟩

/-- `Math.floor(maxBytes * targetRatio)`: every lane leaves half of its size free. -/
def targetBytes (policy : LanePolicy) : ℕ := policy.maxBytes / 2

end LanePolicy

section
variable {α : Type*} (dateOf : α → Option ℤ) (byteLength : List α → ℕ)

/-- The entries whose time is unknown, or not before the cutoff. -/
def retainAge (policy : LanePolicy) (nowMs : ℤ) (records : List α) : List α :=
  records.filter fun record =>
    match dateOf record with
    | none => true
    | some timestamp => nowMs - policy.maxAgeMs ≤ timestamp

def indicesWhere (p : α → Bool) (records : List α) : List ℕ :=
  (records.zipIdx.filter fun entry => p entry.1).map Prod.snd

def selectIndices (selected : List ℕ) (records : List α) : List α :=
  (records.zipIdx.filter fun entry => selected.contains entry.2).map Prod.fst

/-- The entries of unknown time, and the newest of the others that fit with them. -/
def retainWithin (targetBytes : ℕ) (records : List α) : List α :=
  let pinnedIndices := indicesWhere (fun record => (dateOf record).isNone) records
  let optionalIndices := indicesWhere (fun record => (dateOf record).isSome) records
  let candidate := fun middle =>
    selectIndices (pinnedIndices ++ optionalIndices.drop middle) records
  candidate (Lane.bisect (fun middle => byteLength (candidate middle) ≤ targetBytes) 0
    optionalIndices.length)

variable {dateOf} {byteLength}

lemma selectIndices_sublist (selected : List ℕ) (records : List α) :
    (selectIndices selected records).Sublist records := by
  have hzip : (records.zipIdx.map Prod.fst).Sublist records := by
    rw [List.zipIdx_map_fst]
  exact (List.filter_sublist.map Prod.fst).trans hzip

lemma retainAge_sublist (policy : LanePolicy) (nowMs : ℤ) (records : List α) :
    (retainAge dateOf policy nowMs records).Sublist records :=
  List.filter_sublist

lemma retainWithin_sublist (targetBytes : ℕ) (records : List α) :
    (retainWithin dateOf byteLength targetBytes records).Sublist records :=
  selectIndices_sublist _ _

end
end Redskilled.Deaths
