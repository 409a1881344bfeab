import Mathlib.Data.List.Sort
import Redskilled.Foundation.JsMap
import Redskilled.Foundation.JsText
import Redskilled.Foundation.LastWord
import Redskilled.Foundation.Machine
import Mathlib.Algebra.Order.Ring.Rat

/-!
# The merge driver

The driver owns the pull requests that are armed in its store. A pass reads the store,
takes the armed records one after the other, and asks the forge about each; it updates a
branch that is behind and merges what is green. At its end it writes back the records of
the whole store, with what it made of the armed ones. Arming and releasing read the
store and write it back too.

Nothing holds the store in between. A step is what happens from one await of a call to
its next one; a write takes effect, and ends its call, in one step. Text is upper-cased
by a parameter, the Unicode tables being left out.
-/
namespace Redskilled.Landing.MergeDriver
open Foundation LastWord

inductive Status where
  | armed
  | merged
  | needsMedic
  | needsHuman
  | released
  deriving DecidableEq

inductive Checks where
  | green
  | pending
  | failing
  deriving DecidableEq

inductive BlockerClass where
  | none
  | conflict
  | threads
  | ci
  | gate
  | draft
  | review
  | closed
  | attempts
  | unknown
  deriving DecidableEq

inductive MergeabilitySource where
  | mergeable
  | mergeStateStatus
  deriving DecidableEq

structure Mergeability where
  state : Text
  source : MergeabilitySource
  deriving DecidableEq

structure CiProof where
  state : Checks
  wasGreenRegression : Bool
  previousState : Option Checks
  deriving DecidableEq

structure Blocker where
  kind : BlockerClass
  summary : Text
  nextAction : Text
  deriving DecidableEq

structure Proof where
  mergeability : Mergeability
  unresolved : ℕ
  ci : CiProof
  gate : Text
  isDraft : Bool
  reviewDecision : Text
  blocker : Blocker
  deriving DecidableEq

structure PrRecord where
  pr : ℕ
  status : Status
  armedAtEpoch : ℕ
  attempts : ℕ
  updatedAtEpoch : ℕ
  lastState : Option Text
  proof : Option Proof
  note : Option Text

abbrev Prs := JsMap ℕ PrRecord

inductive PrState where
  | OPEN
  | MERGED
  | CLOSED
  deriving DecidableEq

def PrState.text : PrState → Text
  | .OPEN => "OPEN".toList
  | .MERGED => "MERGED".toList
  | .CLOSED => "CLOSED".toList

def Checks.text : Checks → Text
  | .green => "green".toList
  | .pending => "pending".toList
  | .failing => "failing".toList

structure View where
  state : PrState
  mergeStateStatus : Text
  mergeable : Option Text
  checks : Checks
  unresolvedReviewThreads : Option ℚ
  isDraft : Option Bool
  reviewDecision : Option Text

section
variable (toUpperCase : Text → Text)

def upper (value : Option Text) : Text := toUpperCase (Text.trim (value.getD []))

def orElse (value other : Text) : Text := if value = [] then other else value

def count : Option ℚ → ℕ
  | none => 0
  | some value =>
    if value.den = 1 ∧ 0 < value.num ∧ value.num < 2 ^ 53 then value.num.toNat else 0

def blocker (view : View) (mergeable mergeStateStatus : Text) (unresolved : ℕ)
    (wasGreenRegression : Bool) (reviewDecision : Text) : Blocker :=
  if view.state = .CLOSED then
    { kind := .closed
      summary := "pull request is closed without merge".toList
      nextAction := "Open a replacement PR or release the driver record.".toList }
  else if mergeable = "CONFLICTING".toList ∨ mergeStateStatus = "DIRTY".toList then
    { kind := .conflict
      summary := "GitHub reports merge conflicts".toList
      nextAction := ("Rebase or merge the base branch locally, resolve conflicts, " ++
        "then push the repaired head.").toList }
  else if 0 < unresolved then
    { kind := .threads
      summary := Text.number unresolved ++ " review thread".toList ++
        (if unresolved = 1 then [] else "s".toList) ++ " unresolved".toList
      nextAction := ("Resolve the review threads in GitHub, then let the merge driver " ++
        "read the PR again.").toList }
  else if view.checks = .failing then
    { kind := .ci
      summary := if wasGreenRegression then "CI regressed from green to failing".toList
        else "CI has failing checks".toList
      nextAction := "Inspect the failing check logs, fix the branch, and push a new head.".toList }
  else if view.isDraft = some true then
    { kind := .draft
      summary := "pull request is still a draft".toList
      nextAction := "Mark the pull request ready for review.".toList }
  else if reviewDecision = "REVIEW_REQUIRED".toList ∨
      reviewDecision = "CHANGES_REQUESTED".toList then
    { kind := .review
      summary := "review decision is ".toList ++ reviewDecision
      nextAction := "Obtain the required approval or address the requested changes.".toList }
  else if mergeStateStatus = "BLOCKED".toList then
    { kind := .gate
      summary := "GitHub merge assessment is blocked after visible checks and reviews".toList
      nextAction := "Inspect branch protection and merge queue requirements in GitHub.".toList }
  else if view.checks = .pending ∨ mergeStateStatus = "BEHIND".toList ∨
      mergeStateStatus = "UNKNOWN".toList then
    { kind := .unknown
      summary := "merge assessment is not settled".toList
      nextAction := "Wait for GitHub to finish computing mergeability and checks.".toList }
  else
    { kind := .none
      summary := "GitHub reports the PR mergeable".toList
      nextAction := "Merge with the merge-commit strategy.".toList }

def buildMergeProof (view : View) (previous : Option Proof) : Proof :=
  let mergeable := upper toUpperCase view.mergeable
  let mergeStateStatus := orElse (upper toUpperCase (some view.mergeStateStatus)) "UNKNOWN".toList
  let unresolved := count view.unresolvedReviewThreads
  let reviewDecision := orElse (upper toUpperCase view.reviewDecision) "UNKNOWN".toList
  let previousCi : Option Checks := previous.map fun proof => proof.ci.state
  let wasGreenRegression := decide (previousCi = some .green ∧ view.checks = .failing)
  { mergeability :=
      { state := orElse mergeable mergeStateStatus
        source := if mergeable = [] then .mergeStateStatus else .mergeable }
    unresolved := unresolved
    ci := ⟨view.checks, wasGreenRegression, previousCi⟩
    gate := mergeStateStatus
    isDraft := decide (view.isDraft = some true)
    reviewDecision := reviewDecision
    blocker := blocker view mergeable mergeStateStatus unresolved wasGreenRegression
      reviewDecision }

def lastState (view : View) : Text :=
  view.state.text ++ '/' :: view.mergeStateStatus ++ '/' :: view.checks.text

end

inductive Action where
  | merged
  | alreadyMerged
  | updatedBranch
  | waiting
  | terminalMedic
  | terminalHuman
  | retrying

structure PassEntry where
  pr : ℕ
  action : Action
  note : Option Text

inductive Verdict where
  | stamp (status : Status) (action : Action) (note : Option Text)
  | updateBranch
  | merge

def verdict (view : View) (proof : Proof) : Verdict :=
  if view.state = .MERGED then .stamp .merged .alreadyMerged none
  else if view.state = .CLOSED then
    .stamp .needsHuman .terminalHuman (some proof.blocker.summary)
  else if proof.blocker.kind = .conflict then
    .stamp .needsMedic .terminalMedic (some proof.blocker.summary)
  else if proof.blocker.kind = .threads ∨ proof.blocker.kind = .ci then
    .stamp .needsMedic .terminalMedic (some proof.blocker.summary)
  else if proof.blocker.kind = .draft ∨ proof.blocker.kind = .review ∨
      proof.blocker.kind = .gate then
    .stamp .needsHuman .terminalHuman (some proof.blocker.summary)
  else if view.mergeStateStatus = "BEHIND".toList then .updateBranch
  else if (view.mergeStateStatus = "CLEAN".toList ∨ view.mergeStateStatus = "UNSTABLE".toList) ∧
      view.checks = .green then .merge
  else .stamp .armed .waiting none

def armPr (pr nowEpoch : ℕ) (prs : Prs) : Prs :=
  prs.set pr ⟨pr, .armed, nowEpoch, 0, nowEpoch, none, none, none⟩

/-- `none` where there is no record to release. -/
def releasePr (pr nowEpoch : ℕ) (prs : Prs) : Option Prs :=
  (prs.lookup pr).map fun existing =>
    prs.set pr { existing with status := .released, updatedAtEpoch := nowEpoch }

/-- `Object.values(prs)`: array indices come first, in their order. -/
def values (prs : Prs) : List PrRecord :=
  ((prs.entries.filter fun e => e.1 < 2 ^ 32 - 1).insertionSort (fun a b => a.1 ≤ b.1) ++
    prs.entries.filter fun e => ¬e.1 < 2 ^ 32 - 1).map Sigma.snd

/-- What the pass awaits. The record is the one at hand, patched by what is known. -/
inductive Stage where
  | viewing (record : PrRecord)
  | updating (record : PrRecord)
  | judging (record : PrRecord)
  | merging (record : PrRecord)
  | writing

structure PassOptions where
  nowEpoch : ℕ
  /-- 25 unless it is given. -/
  maxAttempts : ℕ
  gated : Bool

structure Pass where
  options : PassOptions
  /-- The length of the log when the pass read the store. -/
  seen : ℕ
  next : Prs
  todo : List PrRecord
  stage : Stage
  entries : List PassEntry

abbrev Word := Option Status

abbrev Log := List (Entry ℕ Word)

/-- A pass that gives up a record has observed what it stamps. -/
def observation (record : PrRecord) : Log :=
  match record.status with
  | .armed => []
  | status => [.observed record.pr (some status)]

namespace Pass

def stamp (p : Pass) (record : PrRecord) (action : Action) (note : Option Text) : Pass :=
  { p with
    next := p.next.set record.pr { record with updatedAtEpoch := p.options.nowEpoch }
    entries := p.entries ++ [⟨record.pr, action, note⟩] }

def exhausted (p : Pass) (record : PrRecord) : PrRecord :=
  { record with
    status := .needsHuman
    attempts := record.attempts + 1
    note := some ("attempts bound (".toList ++ Text.number p.options.maxAttempts ++
      ") exhausted".toList) }

/-- The head of the loop, over the records that are left. -/
def turn (p : Pass) : List PrRecord → Pass × Log
  | [] => ({ p with todo := [], stage := .writing }, [])
  | record :: todo =>
    if p.options.maxAttempts < record.attempts + 1 then
      let r := (p.stamp (p.exhausted record) .terminalHuman
        (some "attempts bound exhausted".toList)).turn todo
      (r.1, r.2 ++ observation (p.exhausted record))
    else ({ p with todo := todo, stage := .viewing record }, [])

def settle (p : Pass) (record : PrRecord) (action : Action) (note : Option Text) : Pass × Log :=
  let r := (p.stamp record action note).turn p.todo
  (r.1, r.2 ++ observation record)

def await (p : Pass) (stage : Stage) : Pass × Log := ({ p with stage := stage }, [])

def start (options : PassOptions) (seen : ℕ) (prs : Prs) : Pass × Log :=
  turn
    { options := options, seen := seen, next := prs, todo := [], stage := .writing, entries := [] }
    ((values prs).filter fun record => record.status = .armed)

def viewed (toUpperCase : Text → Text) (p : Pass) (record : PrRecord) (view : View) : Pass × Log :=
  let proof := buildMergeProof toUpperCase view record.proof
  let record :=
    { record with
      attempts := record.attempts + 1
      lastState := some (lastState view)
      proof := some proof }
  match verdict view proof with
  | .stamp status action note =>
    p.settle { record with status := status, note := note.orElse fun _ => record.note } action note
  | .updateBranch => p.await (.updating record)
  | .merge => p.await (.judging record)

def viewFailed (p : Pass) (record : PrRecord) (message : Text) : Pass × Log :=
  p.settle
    { record with
      attempts := record.attempts + 1
      note := some ("view failed: ".toList ++ message) }
    .retrying (some "view failed".toList)

def updated (p : Pass) (record : PrRecord) : Option Text → Pass × Log
  | none => p.settle record .updatedBranch none
  | some message =>
    p.settle { record with note := some ("update-branch failed: ".toList ++ message) }
      .retrying (some "update-branch failed".toList)

def refused (p : Pass) (record : PrRecord) (message : Text) : Pass × Log :=
  p.settle { record with status := .needsHuman, note := some message } .terminalHuman (some message)

def merged (p : Pass) (record : PrRecord) : Option Text → Pass × Log
  | none => p.settle { record with status := .merged } .merged none
  | some message =>
    p.settle { record with note := some ("merge failed: ".toList ++ message) }
      .retrying (some "merge failed".toList)

end Pass

inductive Call where
  | arming (pr nowEpoch : ℕ)
  | releasing (pr nowEpoch : ℕ)
  /-- An arm or a release of `pr` writes the store. -/
  | writing (seen pr : ℕ) (prs : Prs)
  | starting (options : PassOptions)
  | passing (pass : Pass)

inductive Decision where
  | allowed
  | refused (message : Text)

structure State where
  store : Prs
  calls : List Call
  initial : Prs
  /-- What arms and releases settled by their end, and what passes observed. -/
  log : Log
  /-- The merges sent, with what was last settled for each pull request by then. -/
  merges : List (ℕ × Option Word)
  returned : List (List PassEntry)

inductive Step where
  | armPr (pr nowEpoch : ℕ)
  | releasePr (pr nowEpoch : ℕ)
  | runPass (options : PassOptions)
  /-- Call `i` is given the store, or none for one that cannot be read. -/
  | read (i : ℕ) (readable : Bool)
  | write (i : ℕ) (written : Bool)
  | viewed (i : ℕ) (view : Except Text View)
  | updated (i : ℕ) (failure : Option Text)
  /-- `none` is the absent gate. -/
  | judged (i : ℕ) (decision : Option Decision)
  | judgeThrew (i : ℕ)
  | merged (i : ℕ) (failure : Option Text)

def statuses (prs : Prs) (pr : ℕ) : Word := (prs.lookup pr).map PrRecord.status

namespace State

def begin (s : State) (call : Call) : State := { s with calls := s.calls ++ [call] }

def goto (s : State) (i : ℕ) (call : Call) : State := { s with calls := s.calls.set i call }

def finish (s : State) (i : ℕ) : State := { s with calls := s.calls.eraseIdx i }

def settle (s : State) (pr : ℕ) (word : Word) : State :=
  { s with log := .settled pr word :: s.log }

def advance (s : State) (i : ℕ) (r : Pass × Log) : State :=
  { s.goto i (.passing r.1) with log := r.2 ++ s.log }

def sendMerge (s : State) (i : ℕ) (p : Pass) (record : PrRecord) : State :=
  { s.advance i (p.await (.merging record)) with
    merges := s.merges ++ [(record.pr, lastSettled s.log record.pr)] }

def read (s : State) (i : ℕ) (prs : Prs) : Option State :=
  match s.calls[i]? with
  | some (.arming pr nowEpoch) =>
    some (s.goto i (.writing s.log.length pr (MergeDriver.armPr pr nowEpoch prs)))
  | some (.releasing pr nowEpoch) =>
    match MergeDriver.releasePr pr nowEpoch prs with
    | some prs => some (s.goto i (.writing s.log.length pr prs))
    | none => some ((s.finish i).settle pr none)
  | some (.starting options) => some (s.advance i (Pass.start options s.log.length prs))
  | _ => none

def write (s : State) (i : ℕ) (written : Bool) : Option State :=
  match s.calls[i]? with
  | some (.writing _ pr prs) =>
    some (if written then { (s.finish i).settle pr (statuses prs pr) with store := prs }
      else s.finish i)
  | some (.passing { stage := .writing, next := prs, entries, .. }) =>
    some (if written then { s.finish i with store := prs, returned := s.returned ++ [entries] }
      else s.finish i)
  | _ => none

end State

section
variable (toUpperCase : Text → Text)

def next (s : State) : Step → Option State
  | .armPr pr nowEpoch => some (s.begin (.arming pr nowEpoch))
  | .releasePr pr nowEpoch => some (s.begin (.releasing pr nowEpoch))
  | .runPass options => some (s.begin (.starting options))
  | .read i readable => s.read i (if readable then s.store else ∅)
  | .write i written => s.write i written
  | .viewed i view =>
    match s.calls[i]? with
    | some (.passing p) =>
      match p.stage with
      | .viewing record =>
        match view with
        | .ok view => some (s.advance i (p.viewed toUpperCase record view))
        | .error message => some (s.advance i (p.viewFailed record message))
      | _ => none
    | _ => none
  | .updated i failure =>
    match s.calls[i]? with
    | some (.passing p) =>
      match p.stage with
      | .updating record => some (s.advance i (p.updated record failure))
      | _ => none
    | _ => none
  | .judged i decision =>
    match s.calls[i]? with
    | some (.passing p) =>
      match p.stage with
      | .judging record =>
        if decision.isSome ≠ p.options.gated then none
        else
          match decision with
          | some (.refused message) => some (s.advance i (p.refused record message))
          | _ => some (s.sendMerge i p record)
      | _ => none
    | _ => none
  | .judgeThrew i =>
    match s.calls[i]? with
    | some (.passing p) =>
      match p.stage with
      | .judging _ => if p.options.gated then some (s.finish i) else none
      | _ => none
    | _ => none
  | .merged i failure =>
    match s.calls[i]? with
    | some (.passing p) =>
      match p.stage with
      | .merging record => some (s.advance i (p.merged record failure))
      | _ => none
    | _ => none

def Start (s : State) : Prop :=
  s.calls = [] ∧ s.initial = s.store ∧ s.log = [] ∧ s.merges = [] ∧ s.returned = []

def driver : Machine State Step where
  start := Start
  next := next toUpperCase

end
end Redskilled.Landing.MergeDriver
