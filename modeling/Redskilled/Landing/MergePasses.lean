import Redskilled.Foundation.JsObject
import Redskilled.Landing.MergeDriver

/-!
# Passes of the merge driver

The passes run one behind the other over the stored records; nothing arms a pull request in
between. A pass reads the records as the store validates them, takes the armed ones in the order
of their listing, and writes the validated records back, unless a call of its own has thrown.

The store is a document of records under text keys. What a record states of its number, its
status and its counts may be anything that the validation lets pass. What the ports answer is
stated by the key of the record they are asked for. Of a stored proof, the checks it saw are
used.
-/
namespace Redskilled.Landing.MergePasses
open Foundation MergeDriver

inductive StoredStatus where
  | known (status : Status)
  | other (text : Text)
  deriving DecidableEq

structure StoredRecord where
  pr : ℤ
  status : StoredStatus
  armedAtEpoch : ℤ
  attempts : ℤ
  updatedAtEpoch : ℤ
  lastState : Option Text
  proof : Option Proof
  note : Option Text
  deriving DecidableEq

abbrev Records := JsMap Text StoredRecord

def isSafeInteger (n : ℤ) : Bool := -2 ^ 53 < n && n < 2 ^ 53

def safeOrZero (n : ℤ) : ℤ := if isSafeInteger n then n else 0

def validRecord (key : Text) (r : StoredRecord) : Option StoredRecord :=
  if key ≠ [] ∧ key.all Char.isDigit = true ∧ isSafeInteger r.pr = true then
    some
      { r with
        armedAtEpoch := safeOrZero r.armedAtEpoch
        attempts := safeOrZero r.attempts
        updatedAtEpoch := safeOrZero r.updatedAtEpoch }
  else none

def validateState : Records → Records := JsObject.keep validRecord

inductive GateAnswer where
  | allowed
  | refused (message : Text)
  | threw
  deriving DecidableEq

structure Answers where
  view : Except Text View
  /-- The message of a failure. -/
  updateBranch : Option Text
  check : GateAnswer
  merge : Option Text

inductive PortCall where
  | viewPr (pr : ℤ)
  | updateBranch (pr : ℤ)
  | check (pr : ℤ)
  | merge (pr : ℤ)

def PortCall.pr : PortCall → ℤ
  | .viewPr pr => pr
  | .updateBranch pr => pr
  | .check pr => pr
  | .merge pr => pr

structure PassEntry where
  pr : ℤ
  action : Action
  note : Option Text

/-- One pass: its options, what its store does, and what its ports answer. -/
structure PassInput where
  nowEpoch : ℤ
  gated : Bool
  /-- The store can be read; one that cannot is taken as empty. -/
  readable : Bool
  written : Bool
  ask : Text → Answers

structure Visit where
  calls : List PortCall
  /-- None where a call has thrown. -/
  result : Option (StoredRecord × PassEntry)

section
variable (toUpperCase : Text → Text) (maxAttempts : ℕ)

def exhausted (p : PassInput) (r : StoredRecord) : Visit :=
  { calls := []
    result := some
      ({ r with
          status := .known .needsHuman
          attempts := r.attempts + 1
          updatedAtEpoch := p.nowEpoch
          note := some ("attempts bound (".toList ++ Text.number maxAttempts ++
            ") exhausted".toList) },
        ⟨r.pr, .terminalHuman, some "attempts bound exhausted".toList⟩) }

def retry (calls : List PortCall) (r : StoredRecord) (call message : Text) : Visit :=
  { calls := calls
    result := some
      ({ r with note := some (call ++ " failed: ".toList ++ message) },
        ⟨r.pr, .retrying, some (call ++ " failed".toList)⟩) }

def merging (answers : Answers) (asked : List PortCall) (r : StoredRecord) : Visit :=
  match answers.merge with
  | none =>
    { calls := asked ++ [.merge r.pr]
      result := some ({ r with status := .known .merged }, ⟨r.pr, .merged, none⟩) }
  | some message => retry (asked ++ [.merge r.pr]) r "merge".toList message

def land (p : PassInput) (answers : Answers) (r : StoredRecord) : Visit :=
  if p.gated then
    match answers.check with
    | .threw => ⟨[.viewPr r.pr, .check r.pr], none⟩
    | .refused message =>
      { calls := [.viewPr r.pr, .check r.pr]
        result := some
          ({ r with status := .known .needsHuman, note := some message },
            ⟨r.pr, .terminalHuman, some message⟩) }
    | .allowed => merging answers [.viewPr r.pr, .check r.pr] r
  else merging answers [.viewPr r.pr] r

/-- `r` as it was viewed. -/
def assessed (p : PassInput) (r : StoredRecord) (view : View) : StoredRecord :=
  { r with
    attempts := r.attempts + 1
    updatedAtEpoch := p.nowEpoch
    lastState := some (lastState view)
    proof := some (buildMergeProof toUpperCase view r.proof) }

def viewed (p : PassInput) (answers : Answers) (r : StoredRecord) (view : View) : Visit :=
  let stamped := assessed toUpperCase p r view
  match verdict view (buildMergeProof toUpperCase view r.proof) with
  | .stamp status action note =>
    { calls := [.viewPr r.pr]
      result := some
        ({ stamped with status := .known status, note := note.orElse fun _ => r.note },
          ⟨r.pr, action, note⟩) }
  | .updateBranch =>
    match answers.updateBranch with
    | none =>
      { calls := [.viewPr r.pr, .updateBranch r.pr]
        result := some (stamped, ⟨r.pr, .updatedBranch, none⟩) }
    | some message =>
      retry [.viewPr r.pr, .updateBranch r.pr] stamped "update-branch".toList message
  | .merge => land p answers stamped

def visit (p : PassInput) (answers : Answers) (r : StoredRecord) : Visit :=
  if maxAttempts < r.attempts + 1 then exhausted maxAttempts p r
  else
    match answers.view with
    | .error message =>
      retry [.viewPr r.pr]
        { r with attempts := r.attempts + 1, updatedAtEpoch := p.nowEpoch } "view".toList message
    | .ok view => viewed toUpperCase p answers r view

structure Pass where
  calls : List PortCall
  next : Records
  entries : List PassEntry
  threw : Bool

def Pass.start (records : Records) : Pass := ⟨[], records, [], false⟩

def Pass.after (pass : Pass) (r : StoredRecord) (v : Visit) : Pass :=
  match v.result with
  | none => { pass with calls := pass.calls ++ v.calls, threw := true }
  | some (record, entry) =>
    { calls := pass.calls ++ v.calls
      next := pass.next.set (Text.integer r.pr) record
      entries := pass.entries ++ [entry]
      threw := false }

def Armed (r : StoredRecord) : Prop := r.status = .known .armed

instance (r : StoredRecord) : Decidable (Armed r) := decEq r.status _

def loop (p : PassInput) : List (Σ _ : Text, StoredRecord) → Pass → Pass
  | [], pass => pass
  | e :: es, pass =>
    if Armed e.2 then
      let pass := pass.after e.2 (visit toUpperCase maxAttempts p (p.ask e.1) e.2)
      if pass.threw then pass else loop p es pass
    else loop p es pass

/-- `store.read()`. -/
def readStore (stored : Records) (p : PassInput) : Records :=
  if p.readable then validateState stored else ∅

def runMergeDriverPass (stored : Records) (p : PassInput) : Pass :=
  loop toUpperCase maxAttempts p (JsObject.entries (readStore stored p))
    (.start (readStore stored p))

def writes (stored : Records) (p : PassInput) : Bool :=
  !(runMergeDriverPass toUpperCase maxAttempts stored p).threw && p.written

def storedAfter (stored : Records) (p : PassInput) : Records :=
  if writes toUpperCase maxAttempts stored p then
    validateState (runMergeDriverPass toUpperCase maxAttempts stored p).next
  else stored

def returned (stored : Records) (p : PassInput) : List PassEntry :=
  if writes toUpperCase maxAttempts stored p then
    (runMergeDriverPass toUpperCase maxAttempts stored p).entries
  else []

structure State where
  initial : Records
  stored : Records
  passed : List (Records × PassInput)
  writes : ℕ

def State.start (stored : Records) : State := ⟨stored, stored, [], 0⟩

def passes : Machine State PassInput where
  start s := ∃ stored, s = .start stored
  next s p := some
    { initial := s.initial
      stored := storedAfter toUpperCase maxAttempts s.stored p
      passed := s.passed ++ [(s.stored, p)]
      writes := s.writes + (writes toUpperCase maxAttempts s.stored p).toNat }

end
end Redskilled.Landing.MergePasses
