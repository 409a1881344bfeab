import Redskilled.Foundation.JsText

/-!
# Launch templates

A registration states how its workers are started: the words of a command, an environment and
a log path, all of them texts in which the facts of one birth may be named between double
braces. A birth fills them in. A name that is none of the facts is refused, and so is the work
item of a birth that has none.

The pattern of a placeholder is two braces, lower-case letters and underscores, and two braces.
Everything else is copied. The number of the slot is given by its text.
-/
namespace Redskilled.Daemon.LaunchTemplate
open Foundation

def REDSKILLED_LAUNCH_FACTS : List Text :=
  ["worker_id", "slot", "workspace_path", "log_path", "work_item"].map String.toList

structure RedskilledLaunchFacts where
  workerId : Text
  /-- `String(slot)`. -/
  slot : Text
  workspacePath : Text
  logPath : Option Text
  workItem : Option Text

structure RedskilledLaunchTemplate where
  argv : List Text
  /-- The entries of the object, none of them twice. -/
  env : List (Text × Text)
  logPath : Option Text

structure RedskilledExpandedLaunch where
  argv : List Text
  env : List (Text × Text)
  logPath : Option Text

inductive LaunchError where
  | fact (name place : Text)
  | noCommand (projectLabel : Text)

/-- The class `[a-z_]`. -/
def isFactChar (c : Char) : Bool := ('a' ≤ c && c ≤ 'z') || c == '_'

def braced (name : Text) : Text := '{' :: '{' :: name ++ ['}', '}']

def LaunchError.message : LaunchError → Text
  | .fact name place =>
    "redskilled cannot expand ".toList ++ Text.jsonString (braced name) ++ " in ".toList ++
      place ++ ": the facts a birth supplies are ".toList ++
      List.intercalate ", ".toList REDSKILLED_LAUNCH_FACTS ++
      (", and a Worker started with the placeholder left in it is one nobody " ++
        "meant to start").toList
  | .noCommand projectLabel =>
    "redskilled cannot start a Worker for project ".toList ++ Text.jsonString projectLabel ++
      ": its launch expanded to an argv with no command".toList

def nameAt : Text → Option Text
  | '{' :: '{' :: t =>
    if t.takeWhile isFactChar ≠ [] ∧ ['}', '}'] <+: t.dropWhile isFactChar then
      some (t.takeWhile isFactChar)
    else none
  | _ => none

/-- `value.replace(PLACEHOLDER, …)`, with the number of characters that belong to a placeholder
that has been replaced. -/
def substitute (value : Text → Except LaunchError Text) : ℕ → Text → Except LaunchError Text
  | _, [] => .ok []
  | skip + 1, _ :: t => substitute value skip t
  | 0, c :: t =>
    match nameAt (c :: t) with
    | none => (substitute value 0 t).map (c :: ·)
    | some name =>
      (value name).bind fun text =>
        (substitute value (name.length + 3) t).map (text ++ ·)

def RedskilledLaunchFacts.text (facts : RedskilledLaunchFacts) (place name : Text) :
    Except LaunchError Text :=
  if name = "worker_id".toList then .ok facts.workerId
  else if name = "slot".toList then .ok facts.slot
  else if name = "workspace_path".toList then .ok facts.workspacePath
  else if name = "log_path".toList then .ok (facts.logPath.getD [])
  else if name = "work_item".toList then
    match facts.workItem with
    | none => .error (.fact name place)
    | some [] => .error (.fact name place)
    | some item => .ok item
  else .error (.fact name place)

section
variable (facts : RedskilledLaunchFacts)

def expandArgv : ℕ → List Text → Except LaunchError (List Text)
  | _, [] => .ok []
  | index, word :: words =>
    (substitute (facts.text ("argv word ".toList ++ Text.number index)) 0 word).bind fun text =>
      (expandArgv (index + 1) words).map (text :: ·)

def protoKey : Text := "__proto__".toList

/-- An entry under `__proto__` sets nothing. -/
def expandEnv : List (Text × Text) → Except LaunchError (List (Text × Text))
  | [] => .ok []
  | (key, value) :: entries =>
    (substitute (facts.text ("env entry ".toList ++ Text.jsonString key)) 0 value).bind fun text =>
      (expandEnv entries).map fun env =>
        if key = protoKey then env else (key, text) :: env

def expandLogPath : Option Text → Except LaunchError (Option Text)
  | none => .ok none
  | some path =>
    (substitute (facts.text "the log path".toList) 0 path).map fun text =>
      if text = [] then none else some text

def expandLaunchTemplate (template : RedskilledLaunchTemplate) :
    Except LaunchError RedskilledExpandedLaunch :=
  (expandArgv facts 0 template.argv).bind fun argv =>
    (expandEnv facts template.env).bind fun env =>
      (expandLogPath facts template.logPath).map fun logPath => ⟨argv, env, logPath⟩

end

def birthText (workerId workspacePath name : Text) : Except LaunchError Text :=
  if name = "worker_id".toList then .ok workerId
  else if name = "workspace_path".toList then .ok workspacePath
  else .error (.fact name "the log path".toList)

def expandWorkerLogPath (logPath : Option Text) (workerId workspacePath : Text) :
    Except LaunchError (Option Text) :=
  match logPath with
  | none => .ok none
  | some path =>
    if Text.trim path = [] then .ok none
    else (substitute (birthText workerId workspacePath) 0 path).map some

structure WorkerSpec where
  workerId : Text
  projectLabel : Text
  workspacePath : Text
  logPath : Option Text
  command : Text
  args : List Text
  env : List (Text × Text)

def workerSpecFromLaunch (template : RedskilledLaunchTemplate) (facts : RedskilledLaunchFacts)
    (projectLabel : Text) : Except LaunchError WorkerSpec :=
  (expandLaunchTemplate facts template).bind fun launch =>
    match launch.argv with
    | [] => .error (.noCommand projectLabel)
    | command :: args =>
      if command = [] then .error (.noCommand projectLabel)
      else
        .ok
          { workerId := facts.workerId
            projectLabel := projectLabel
            workspacePath := facts.workspacePath
            logPath := (launch.logPath.orElse fun _ => facts.logPath).filter (· ≠ [])
            command := command
            args := args
            env := launch.env }

end Redskilled.Daemon.LaunchTemplate
