import Redskilled.Deaths.DeathRecord
import Redskilled.Foundation.Digits

/-!
# Who ended a process

An anchor that is left behind is a process that went without saying how. The verdict is
read from what the host still knows: the tail of its journal, its boot id, the live
processes, and the deaths others recorded. A source that names the process beats one
that names its scope, which beats one that names the host.
-/
namespace Redskilled.Deaths
open Foundation Lane

def isWordChar (c : Char) : Bool := c.isAlphanum || c == '_'

/-- What follows each place of one of the `parts` in `t`, the first place first. -/
def following (parts : List Text) (t : Text) : List Text :=
  t.tails.flatMap fun tail => parts.filterMap fun part =>
    if part.isPrefixOf tail then some (tail.drop part.length) else none

def includes (part t : Text) : Bool := !(following [part] t).isEmpty

/-- What follows each place of `part` in `t` that a word does not run into. -/
def followingBoundary (part t : Text) : List Text :=
  (t.inits.zip t.tails).filterMap fun cut =>
    if part.isPrefixOf cut.2 && !cut.1.getLast?.any isWordChar then
      some (cut.2.drop part.length)
    else none

/-- `/\bname=(\d+)\b/`, where `name` is made of letters. -/
def numberedField (name t : Text) : Option ℕ :=
  (followingBoundary (name ++ "=".toList) t).findSome? fun tail =>
    match Text.digitsAt tail with
    | none => none
    | some (value, rest) => if rest.head?.any isWordChar then none else some value

/-- `KERNEL_OOM`: the process that the kernel says it killed. -/
def kernelOom (line : Text) : Option ℕ :=
  (following ["Out of memory".toList, "Memory cgroup out of memory".toList] line).findSome?
    fun tail =>
      (following ["Killed process ".toList] tail).findSome? fun rest =>
        (Text.digitsAt rest).map Prod.fst

/-- `KERNEL_OOM_KV`: the process of a structured line. -/
def kernelOomKv (line : Text) : Option ℕ :=
  (following ["oom-kill:".toList, "oom_kill:".toList] line).findSome? fun tail =>
    (followingBoundary "pid=".toList tail).findSome? fun rest => (Text.digitsAt rest).map Prod.fst

def oomdCgroup (line : Text) : Option Text :=
  (following ["Killed ".toList] line).findSome? fun tail =>
    let scope := tail.takeWhile (!Text.isWhitespace ·)
    if "/".toList.isPrefixOf scope &&
        " due to memory pressure".toList.isPrefixOf (tail.dropWhile (!Text.isWhitespace ·)) then
      some scope
    else none

def isCleanShutdown (line : Text) : Bool :=
  includes "systemd-shutdown".toList line || includes "Powering off".toList line ||
    includes "System is powering down".toList line || includes "Reboot: ".toList line ||
      includes "Unmounting file systems".toList line

inductive ProbeResult where
  | read | absent | unreadable | empty

def ProbeResult.text : ProbeResult → Text
  | .read => "read".toList
  | .absent => "absent".toList
  | .unreadable => "unreadable".toList
  | .empty => "empty".toList

structure EvidenceProbe where
  source : Text
  result : ProbeResult
  detail : Option Text

structure HostDeathEvidence where
  bootId : Option Text
  livePids : List ℕ
  journal : List Text
  probes : List EvidenceProbe

structure DeathAttribution where
  version : ℕ
  ts : Text
  kind : ProcessDeathKind
  id : Text
  pid : ℕ
  lastSeen : Text
  lastPhase : Text
  senderClass : DeathSenderClass
  confidence : AttributionConfidence
  signal : Option Text
  hostBootChanged : Bool
  evidence : List Text
  checked : List Text
  deriving DecidableEq

def signalName : ℕ → Option Text
  | 2 => some "SIGINT".toList
  | 9 => some "SIGKILL".toList
  | 15 => some "SIGTERM".toList
  | _ => none

/-- The anchor was left under another boot than the one the host is in. -/
def bootChanged (presence : ProcessPresence) (evidence : HostDeathEvidence) : Bool :=
  presence.bootId.isSome && evidence.bootId.isSome && presence.bootId != evidence.bootId

def orUnknown (t : Option Text) : Text := t.getD "unknown".toList

def probeLine (probe : EvidenceProbe) : Text :=
  probe.source ++ ": ".toList ++ probe.result.text ++
    match probe.detail with
    | none | some [] => []
    | some detail => " (".toList ++ detail ++ ")".toList

def checkedSources (presence : ProcessPresence) (evidence : HostDeathEvidence) : List Text :=
  evidence.probes.map probeLine ++
    ["boot id: anchored under ".toList ++ orUnknown presence.bootId ++ ", host now ".toList ++
        orUnknown evidence.bootId ++
        if bootChanged presence evidence then " (changed)".toList else " (same)".toList,
      "parent account: ppid ".toList ++ Text.number presence.ppid,
      "cgroup: ".toList ++ orUnknown presence.cgroup]

/-- What the sources name: who ended the process, how far that goes, the signal, and
the lines it rests on. -/
structure Verdict where
  senderClass : DeathSenderClass
  confidence : AttributionConfidence
  signal : Option Text
  lines : List Text

section
variable (presence : ProcessPresence) (evidence : HostDeathEvidence)
  (deaths : List (ProcessDeathRecord ℕ))

def namedConfidence : AttributionConfidence :=
  if bootChanged presence evidence then .medium else .high

def across : List Text :=
  if bootChanged presence evidence then
    ["the host rebooted since the anchor, so this line may name a reused pid".toList]
  else []

def kernelVerdict : Option Verdict :=
  (evidence.journal.find? fun line =>
      kernelOom line = some presence.pid || kernelOomKv line = some presence.pid).map fun line =>
    { senderClass := .oomd
      confidence := namedConfidence presence evidence
      signal := some "SIGKILL".toList
      lines := line :: across presence evidence }

/-- The first line that names the scope of the process, or a scope around it. -/
def scopeVerdict : Option Verdict :=
  match presence.cgroup with
  | none => none
  | some cgroup => evidence.journal.findSome? fun line =>
    match oomdCgroup line with
    | none => none
    | some scope =>
      if scope = cgroup then
        some
          { senderClass := .oomd
            confidence := namedConfidence presence evidence
            signal := some "SIGKILL".toList
            lines := line :: across presence evidence }
      else if (scope ++ "/".toList).isPrefixOf cgroup then
        some
          { senderClass := .oomd
            confidence := .medium
            signal := some "SIGKILL".toList
            lines := [line, "the killed scope ".toList ++ scope ++
                " is an ancestor of this process's ".toList ++ cgroup] ++
              across presence evidence }
      else none

def auditVerdict : Option Verdict :=
  (evidence.journal.find? fun line =>
      numberedField "opid".toList line = some presence.pid &&
        (numberedField "sig".toList line).isSome).map fun line =>
    { senderClass := .userSignal
      confidence := namedConfidence presence evidence
      signal := (numberedField "sig".toList line).bind signalName
      lines := line :: (match numberedField "uid".toList line with
          | none => []
          | some uid => ["sent by uid ".toList ++ Text.number uid]) ++
        across presence evidence }

def parentVerdict : Option Verdict :=
  match deaths.find? fun death => death.pid = presence.ppid with
  | none => none
  | some death =>
    if evidence.livePids.contains presence.ppid then none
    else some
      { senderClass := .parentDeath
        confidence := .medium
        signal := none
        lines := ["parent pid ".toList ++ Text.number presence.ppid ++ " (".toList ++
          Vocabulary.text death.kind ++ " ".toList ++ death.id ++
          ") recorded its own death at ".toList ++ death.ts ++ " via ".toList ++
          Vocabulary.text death.exitPath ++
          match death.signal with
          | none | some [] => []
          | some signal => " ".toList ++ signal] }

def teardownVerdict : Option Verdict :=
  if bootChanged presence evidence then
    let changed := "host boot id changed from ".toList ++ presence.bootId.getD [] ++
      " to ".toList ++ evidence.bootId.getD []
    match evidence.journal.find? isCleanShutdown with
    | some shutdown => some
        { senderClass := .teardown, confidence := .high, signal := none
          lines := [changed, shutdown] }
    | none => some
        { senderClass := .teardown, confidence := .medium, signal := none
          lines := [changed,
            "no shutdown record on any journal read: the host stopped without announcing it (a freeze or a power loss, not an orderly teardown)".toList] }
  else none

def verdict : Verdict :=
  ((((kernelVerdict presence evidence).orElse fun _ =>
      scopeVerdict presence evidence).orElse fun _ =>
      auditVerdict presence evidence).orElse fun _ =>
      parentVerdict presence evidence deaths).orElse (fun _ =>
      teardownVerdict presence evidence) |>.getD
    { senderClass := .unknown, confidence := .none, signal := none, lines := [] }

def attributeDeath (ts : Text) : DeathAttribution :=
  let found := verdict presence evidence deaths
  { version := 1
    ts := ts
    kind := presence.kind
    id := presence.id
    pid := presence.pid
    lastSeen := presence.ts
    lastPhase := presence.lastPhase
    senderClass := found.senderClass
    confidence := found.confidence
    signal := found.signal
    hostBootChanged := bootChanged presence evidence
    evidence := found.lines
    checked := checkedSources presence evidence }

end

example : kernelOom "Out of memory: Killed process 4242 (node)".toList = some 4242 := by
  decide +kernel

example : numberedField "opid".toList "opid=4242 sig=9 uid=1000".toList = some 4242 ∧
    numberedField "pid".toList "opid=4242 sig=9 uid=1000".toList = none := by
  decide +kernel

end Redskilled.Deaths
