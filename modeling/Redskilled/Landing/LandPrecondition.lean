import Redskilled.Landing.CountersignLedger

/-!
# The land precondition

A head may land where a countersign of it stands that passes and is as strong as the
Ticket requires. Where nobody has judged the head, a countersign of the same patch will
do, of whichever head. The gate voids a countersign of another patch before it refuses.
-/
namespace Redskilled.Landing.Countersign
open Foundation Acp.TicketLoop

inductive LandRefusalReason where
  | noCountersign
  | voidedCountersign
  | staleCountersign
  | verifierFailed
  | verifierBlocked
  | insufficientCountersign
  | unresolvableHead

inductive LandSubject where
  | head (headSha : Text)
  | pullRequest (pr : ℕ)

inductive LandCountersignMatch where
  | headSha
  | patchId

inductive Decision where
  | allow (matchedBy : LandCountersignMatch) (countersign : CountersignClass) (identity : Text)
  | refuse (reason : LandRefusalReason) (message : Text)

def Decision.allowed : Decision → Bool
  | .allow _ _ _ => true
  | .refuse _ _ => false

def describeLandSubject : LandSubject → Text
  | .head headSha => "head ".toList ++ headSha.take 12
  | .pullRequest pr => "pull request ".toList ++ Text.number pr

def landRefusalMessage (reason : LandRefusalReason) (subject : LandSubject)
    (detail : Option Text) : Text :=
  let subjectText := describeLandSubject subject
  let tail := match detail with
    | some text => if Text.trim text = [] then [] else " (".toList ++ Text.trim text ++ [')']
    | none => []
  match reason with
  | .noCountersign => "the Countersign ledger holds no row for ".toList ++ subjectText ++ tail ++
      " — ADR 0154 lets nothing merge that no identity other than the implementer judged".toList ++
      "; run the review stage against this head, then land".toList
  | .voidedCountersign => "the Countersign for ".toList ++ subjectText ++ " was voided".toList ++
      tail ++ " — a superseded judgement authorizes nothing; re-review at this head, ".toList ++
      "then land".toList
  | .staleCountersign => subjectText ++
      " is judged only at another head whose change is not equivalent".toList ++ tail ++
      " — the stale row was voided; re-review at this head, then land".toList
  | .verifierFailed => "the verifier refused ".toList ++ subjectText ++ tail ++
      " — a refusal is work for the implementer, not a merge; address the finding and ".toList ++
      "publish a new head".toList
  | .verifierBlocked => "the verifier could not conclude on ".toList ++ subjectText ++ tail ++
      " — repair the reviewer runner (or set `dev.review.mode: advisory` while you do), ".toList ++
      "then re-review".toList
  | .insufficientCountersign => subjectText ++
      " is countersigned below the bar its Ticket declared".toList ++ tail ++
      " — the `verify:<value>` label names the minimum class this land requires; ".toList ++
      "re-review at that class, or have a triage human declare a different one".toList
  | .unresolvableHead => "the landing could not name the head it was about to merge for ".toList ++
      subjectText ++ tail ++
      " — a Countersign cannot be matched to a head nobody resolved, so nothing merges".toList

def refuseLand (reason : LandRefusalReason) (subject : LandSubject) (detail : Option Text) :
    Decision :=
  .refuse reason (landRefusalMessage reason subject detail)

/-- The classes a requirement may name, of those a row may have. -/
def CountersignClass.verify : CountersignClass → Option VerifyCountersignClass
  | .liveVerified => some .liveVerified
  | .testVerified => some .testVerified
  | .typeCheckOnly => some .typeCheckOnly
  | .verifierBlocked | .verifierFailed => none

def CountersignClass.text : CountersignClass → Text
  | .liveVerified => "live-verified".toList
  | .testVerified => "test-verified".toList
  | .typeCheckOnly => "type-check-only".toList
  | .verifierBlocked => "verifier-blocked".toList
  | .verifierFailed => "verifier-failed".toList

def minimumText : VerifyCountersignClass → Text
  | .liveVerified => "live-verified".toList
  | .testVerified => "test-verified".toList
  | .typeCheckOnly => "type-check-only".toList

def landPassingCountersigns : List CountersignClass := [.liveVerified, .testVerified, .typeCheckOnly]

def isPassingCountersign (countersign : CountersignClass) : Bool :=
  landPassingCountersigns.contains countersign

def countersignMeetsRequirement (requirement : VerifyRequirement) (countersign : CountersignClass) :
    Bool :=
  countersign.verify.any fun verified => requirement.accepts.contains verified

def describeVerifyRequirement (requirement : VerifyRequirement) : Text :=
  match requirement.label with
  | none => "no `verify:` label, so the fail-closed default".toList
  | some .live => "`verify:live`".toList
  | some .tests => "`verify:tests`".toList
  | some .gateOnly => "`verify:gate-only`".toList

def verifyRequirementShortfall (requirement : VerifyRequirement) (countersign : CountersignClass) :
    Option Text :=
  if countersignMeetsRequirement requirement countersign then none
  else
    some (describeVerifyRequirement requirement ++ " requires at least ".toList ++
      minimumText requirement.minimum ++ ", the standing Countersign is ".toList ++ countersign.text)

structure LandCountersignJudgement where
  decision : Decision
  supersede : Option CountersignRow

def authorize (subject : LandSubject) (requirement : VerifyRequirement)
    (matchedBy : LandCountersignMatch) (row : CountersignRow) : LandCountersignJudgement :=
  match verifyRequirementShortfall requirement row.countersign with
  | some shortfall => ⟨refuseLand .insufficientCountersign subject (some shortfall), none⟩
  | none => ⟨.allow matchedBy row.countersign row.verifierIdentity, none⟩

def passingOf (standing : JsMap Text CountersignStanding) : List CountersignRow :=
  (standing.values.filterMap (·.standing)).filter fun row => isPassingCountersign row.countersign

def decideLandCountersign (rows : List CountersignRow) (key : CountersignKey)
    (requirement : VerifyRequirement) : LandCountersignJudgement :=
  let subject : LandSubject := .head key.headSha
  let standing := standingCountersigns (rows.filter fun row => decide (row.pr = key.pr))
  match standing.lookup (countersignKeyOf key) with
  | some exact =>
    match exact.standing with
    | some row =>
      if isPassingCountersign row.countersign then authorize subject requirement .headSha row
      else
        ⟨refuseLand (if row.countersign = .verifierFailed then .verifierFailed else .verifierBlocked)
          subject row.reason, none⟩
    | none => ⟨refuseLand .voidedCountersign subject (exact.voidedBy.bind (·.reason)), none⟩
  | none =>
    match (passingOf standing).find? fun row => decide (row.patchId = key.patchId) with
    | some rebased => authorize subject requirement .patchId rebased
    | none =>
      match (passingOf standing).getLast? with
      | some stale =>
        ⟨refuseLand .staleCountersign subject
          (some ("judged at ".toList ++ stale.headSha.take 12)), some stale⟩
      | none => ⟨refuseLand .noCountersign subject none, none⟩

def voidRow (stale : CountersignRow) (key : CountersignKey) (now : Text) : CountersignRow where
  toCountersignKey := stale.toCountersignKey
  signedAt := now
  countersign := stale.countersign
  verifierIdentity := stale.verifierIdentity
  voided := true
  evidence := none
  reason := some ("superseded: the landing head moved to ".toList ++ key.headSha.take 12 ++
    ", which this row never judged".toList)

/-- The ledger behind an append, whose retention has dropped the first rows. -/
def appendRow (rows : List CountersignRow) (dropped : ℕ) (row : CountersignRow) :
    List CountersignRow :=
  rows.drop dropped ++ [row]

/-- What a check of the gate is given: the key of the subject, where it was resolved, and
the requirement, where there is one. -/
structure Check where
  subject : LandSubject
  key : Option CountersignKey
  requirement : Option VerifyRequirement

def check (rows : List CountersignRow) (asked : Check) (now : Text) (dropped : ℕ) :
    Decision × List CountersignRow :=
  match asked.key with
  | none => (refuseLand .unresolvableHead asked.subject none, rows)
  | some key =>
    let judged := decideLandCountersign rows key
      (asked.requirement.getD unlabeledVerifyRequirement)
    match judged.supersede with
    | some stale => (judged.decision, appendRow rows dropped (voidRow stale key now))
    | none => (judged.decision, rows)

def gate (asked : Check) : Machine (List CountersignRow) (Text × ℕ) where
  start _ := True
  next rows := fun step => some (check rows asked step.1 step.2).2

end Redskilled.Landing.Countersign
