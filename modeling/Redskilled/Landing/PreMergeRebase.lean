import Redskilled.Foundation.Dialogue
import Redskilled.Foundation.NumericText

/-!
# The rebase before a merge

The worker branch is rebased onto the fetched base in a worktree of its own, and pushed by
force. The commands that git is given, and the resolvers of conflicts, are the questions of
a dialogue; a command answers with its exit code and with what it prints.

Before the rebase the branch's own commits are squashed to one. A branch that is far ahead
of a stale base is refused. A rejected push starts the rebase again, on the base that was
fetched anew.
-/
namespace Redskilled.Landing.PreMergeRebase
open Foundation Foundation.Dialogue Foundation.Text

structure ExecResult where
  code : ℤ
  stdout : Text

inductive GitCommand where
  | fetch (remote base : Text)
  | isAncestor (baseRef : Text)
  | mergeBase (baseRef : Text)
  | revListCount (fork : Text)
  | subjects (fork : Text)
  | resetSoft (target : Text)
  /-- Back to where `HEAD` was before. -/
  | resetSoftBack
  | commit (message : Text)
  | commitDate (commit : Text)
  | rebase (baseRef : Text)
  | unmerged
  | rebaseAbort
  | pushForceWithLease (remote branch : Text)
  deriving DecidableEq

inductive Question where
  | git (command : GitCommand)
  | nowEpochS
  | resolveMechanical
  | resolveAgent
  deriving DecidableEq

abbrev Answer : Question → Type
  | .git _ => ExecResult
  | .nowEpochS => ℤ
  | .resolveMechanical => Bool
  | .resolveAgent => Bool

abbrev Git := Dialogue Question Answer

def exec (command : GitCommand) : Git ExecResult := need (Question.git command)

structure StaleBranchGuard where
  maxAhead : WithTop ℚ
  maxBaseAgeHours : WithTop ℚ

def defaultStaleBranchGuard : StaleBranchGuard := ⟨((40 : ℕ) : ℚ), ((12 : ℕ) : ℚ)⟩

/-- What the guard measures, none where it cannot be measured. -/
structure StaleBranchObservation where
  ahead : Option ℤ
  baseAgeHours : Option ℚ

structure PreMergeRebaseInput where
  remote : Text
  base : Text
  baseRef : Option Text := none
  branch : Text
  maxPushRetries : ℤ := 2
  resolveMechanical : Bool := false
  resolveAgent : Bool := false
  maxAgentResolveAttempts : ℤ := 2
  /-- `⊤` squashes nothing. -/
  squashAheadThreshold : WithTop ℚ := ((1 : ℕ) : ℚ)
  staleBranchGuard : Option StaleBranchGuard := some defaultStaleBranchGuard

def trackingRef (remote base : Text) : Text := remote ++ "/".toList ++ base

namespace PreMergeRebaseInput

def baseRefName (input : PreMergeRebaseInput) : Text :=
  input.baseRef.getD (trackingRef input.remote input.base)

end PreMergeRebaseInput

inductive FailReason where
  | fetchFailed | conflict | pushRejected | staleBranch

structure Failure where
  reason : FailReason
  message : Text
  conflictPaths : Option (List Text) := none

abbrev PreMergeRebaseResult := Except Failure Unit

section
variable (print : WithTop ℚ → Text)

/-- `Math.round`. -/
def mathRound (q : ℚ) : ℤ := ⌊q + 1 / 2⌋

def evaluateStaleBranchGuard (observation : StaleBranchObservation) (guard : StaleBranchGuard) :
    Option Text :=
  match observation.ahead, observation.baseAgeHours with
  | some ahead, some hours =>
    if ((ahead : ℚ) : WithTop ℚ) ≤ guard.maxAhead ∨ (hours : WithTop ℚ) ≤ guard.maxBaseAgeHours then
      none
    else
      some ("the branch is ".toList ++ integer ahead ++ " commits ahead of a base that is ".toList ++
        integer (mathRound hours) ++ "h stale (limits: ".toList ++ print guard.maxAhead ++
        " commits / ".toList ++ print guard.maxBaseAgeHours ++
        "h); rebasing that micro-history onto current trunk would replay ".toList ++
        "the same conflicts commit by commit. Rebuild the slice on a fresh base, or ".toList ++
        "squash the branch to its net diff and re-run the landing.".toList)
  | _, _ => none

def parseUnmergedPaths (stdout : Text) : List Text :=
  (((stdout.splitOn '\n').map trim).filter (· ≠ [])).reverse.dedup.reverse

def conflictPathsNamed : ℕ := 10

def describeRebaseConflict (base : Text) (paths : List Text) : Text :=
  if paths = [] then
    "the worker branch conflicts with ".toList ++ base ++
      " (the conflicting paths could not be read)".toList
  else
    "the worker branch conflicts with ".toList ++ base ++ " in ".toList ++ number paths.length ++
      " file(s): ".toList ++ ", ".toList.intercalate (paths.take conflictPathsNamed) ++
      (if conflictPathsNamed < paths.length then
        ", and ".toList ++ number (paths.length - conflictPathsNamed) ++ " more".toList
      else [])

def squashMessage (branch : Text) (ahead : ℤ) (subjects : ExecResult) : Text :=
  let body :=
    if subjects.code = 0 then
      ['\n'].intercalate ((((trim subjects.stdout).splitOn '\n').take 50).map ("- ".toList ++ ·))
    else []
  "land: squash ".toList ++ integer ahead ++ " attempt commits from ".toList ++ branch ++
    (if body = [] then [] else "\n\n".toList ++ body)

def fetchFailed (baseRef : Text) : Failure where
  reason := .fetchFailed
  message := "the landing could not fetch ".toList ++ baseRef ++
    " before the pre-merge rebase — no rebase was attempted and nothing was merged".toList

def pushRejected (input : PreMergeRebaseInput) : Failure where
  reason := .pushRejected
  message := "the rebased worker branch could not be force-pushed to ".toList ++ input.remote ++
    " after ".toList ++ integer (input.maxPushRetries + 1) ++
    " attempts (--force-with-lease kept losing the race for ".toList ++ input.branch ++
    ") — the rebase itself never conflicted and nothing was merged".toList

def conflicted (baseRef : Text) (unmerged : ExecResult) : Failure :=
  let paths := if unmerged.code = 0 then parseUnmergedPaths unmerged.stdout else []
  ⟨.conflict, describeRebaseConflict baseRef paths, some paths⟩

end

section
variable (print : WithTop ℚ → Text) (input : PreMergeRebaseInput)

def toSquash (count : ExecResult) : Option ℤ :=
  if count.code = 0 then
    (parseInt (trim count.stdout)).filter fun ahead =>
      ¬ ((ahead : ℚ) : WithTop ℚ) ≤ input.squashAheadThreshold
  else none

def squashOnto (fork : Text) (ahead : ℤ) : Git Unit := do
  let subjects ← exec (.subjects fork)
  let reset ← exec (.resetSoft fork)
  if reset.code ≠ 0 then pure ()
  else do
    let commit ← exec (.commit (squashMessage input.branch ahead subjects))
    if commit.code = 0 then pure ()
    else do
      let _ ← exec .resetSoftBack
      pure ()

def squashOwnHistory : Git Unit := do
  let fork ← exec (.mergeBase input.baseRefName)
  if fork.code ≠ 0 ∨ trim fork.stdout = [] then pure ()
  else do
    let count ← exec (.revListCount (trim fork.stdout))
    match toSquash input count with
    | none => pure ()
    | some ahead => squashOnto input (trim fork.stdout) ahead

def measureAge (fork : Text) (ahead : Option ℤ) : Git StaleBranchObservation := do
  let forkDate ← exec (.commitDate fork)
  match (if forkDate.code = 0 then parseInt (trim forkDate.stdout) else none) with
  | none => pure ⟨ahead, none⟩
  | some forkEpochS => do
      let now ← (need Question.nowEpochS : Git ℤ)
      pure ⟨ahead, some (((now - forkEpochS : ℤ) : ℚ) / ((3600 : ℕ) : ℚ))⟩

def measureStaleBranch : Git StaleBranchObservation := do
  let fork ← exec (.mergeBase input.baseRefName)
  if fork.code ≠ 0 ∨ trim fork.stdout = [] then pure ⟨none, none⟩
  else do
    let count ← exec (.revListCount (trim fork.stdout))
    if count.code ≠ 0 then pure ⟨none, none⟩
    else measureAge (trim fork.stdout) (parseInt (trim count.stdout))

def staleRefusal : Git (Option Text) :=
  match input.staleBranchGuard with
  | none => pure none
  | some guard => do
      let observation ← measureStaleBranch input
      pure (evaluateStaleBranchGuard print observation guard)

def resolveAgentAttempts : ℕ → Git Bool
  | 0 => pure false
  | attempts + 1 =>
    if input.resolveAgent then do
      let resolved ← (need Question.resolveAgent : Git Bool)
      if resolved then pure true else resolveAgentAttempts attempts
    else resolveAgentAttempts attempts

def resolveMechanicalAttempt : Git Bool :=
  if input.resolveMechanical then (need Question.resolveMechanical : Git Bool) else pure false

def resolveConflict : Git Bool := do
  let mechanical ← resolveMechanicalAttempt input
  if mechanical then pure true
  else resolveAgentAttempts input (max 0 input.maxAgentResolveAttempts).toNat

def abortRebase : Git Failure := do
  let unmerged ← exec .unmerged
  let _ ← exec .rebaseAbort
  pure (conflicted input.baseRefName unmerged)

def rebaseBranch : Git PreMergeRebaseResult := do
  let rebase ← exec (.rebase input.baseRefName)
  if rebase.code = 0 then pure (.ok ())
  else do
    let resolved ← resolveConflict input
    if resolved then pure (.ok ())
    else do
      let failure ← abortRebase input
      pure (.error failure)

def rebaseOntoBase : Git (Except Failure Bool) := do
  let fetch ← exec (.fetch input.remote input.base)
  if fetch.code ≠ 0 then pure (.error (fetchFailed input.baseRefName))
  else do
    let alreadyIntegrated ← exec (.isAncestor input.baseRefName)
    if alreadyIntegrated.code = 0 then pure (.ok true)
    else do
      squashOwnHistory input
      let stale ← staleRefusal print input
      match stale with
      | some message => pure (.error ⟨.staleBranch, message, none⟩)
      | none => do
          let rebased ← rebaseBranch input
          pure (rebased.map fun _ => false)

def pushAttempts : ℕ → Git PreMergeRebaseResult
  | 0 => pure (.error (pushRejected input))
  | attempts + 1 => do
      let push ← exec (.pushForceWithLease input.remote input.branch)
      if push.code = 0 then pure (.ok ())
      else if attempts = 0 then pushAttempts 0
      else do
        let again ← rebaseOntoBase print input
        match again with
        | .error failure => pure (.error failure)
        | .ok _ => pushAttempts attempts

def preMergeRebase : Git PreMergeRebaseResult := do
  let first ← rebaseOntoBase print input
  match first with
  | .error failure => pure (.error failure)
  | .ok true => pure (.ok ())
  | .ok false => pushAttempts print input (input.maxPushRetries + 1).toNat

end
end Redskilled.Landing.PreMergeRebase
