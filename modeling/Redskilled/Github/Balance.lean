import Mathlib.Data.Int.ConditionallyCompleteOrder
import Redskilled.Foundation.IsoDate
import Redskilled.Foundation.JsValue

/-!
# The balance of the GitHub token

The balance is asked, not counted: a payload is read pool by pool, and what it does not carry is
unknown. An admission turns on one pool of it, and a report carries the pools on.

Counts are whole numbers, however large. `Date.parse` and the text of a number are parameters;
a product or a quotient is the exact one, rounded.
-/
namespace Redskilled.Github.Balance
open Foundation

inductive GithubRateBudget where
  | rest
  | graphql
  | search
  deriving DecidableEq

namespace GithubRateBudget

def text : GithubRateBudget → Text
  | rest => "rest".toList
  | graphql => "graphql".toList
  | search => "search".toList

lemma text_injective {a b : GithubRateBudget} (h : a.text = b.text) : a = b := by
  have hall : ∀ a ∈ [rest, graphql, search], ∀ b ∈ [rest, graphql, search],
      text a = text b → a = b := by decide +kernel
  exact hall a (by cases a <;> decide) b (by cases b <;> decide) h

end GithubRateBudget

open GithubRateBudget

def githubPools : List GithubRateBudget := [rest, graphql, search]

lemma mem_githubPools (pool : GithubRateBudget) : pool ∈ githubPools := by
  cases pool <;> decide

/-- The endpoint's own name for a pool. -/
def githubPoolResource : GithubRateBudget → Text
  | rest => "core".toList
  | graphql => "graphql".toList
  | search => "search".toList

structure GithubPoolBalance where
  pool : GithubRateBudget
  resource : Text
  limit : ℤ
  remaining : ℤ
  used : ℤ
  resetAt : Text
  fraction : ℚ

inductive GithubBalanceOutcome where
  | asked
  | unanswered
  deriving DecidableEq

structure GithubBalance where
  outcome : GithubBalanceOutcome
  askedAt : Text
  requestCount : ℤ
  pools : GithubRateBudget → Option GithubPoolBalance
  unreportedPools : List GithubRateBudget
  detail : Text

/-- `Math.trunc(value)`. -/
def truncate (q : ℚ) : ℤ := if 0 ≤ q then q.floor else q.ceil

def integer : JsValue → Option ℤ
  | .number q => some (truncate q)
  | _ => none

def double (q : ℚ) : ℚ :=
  if 0 ≤ q then JsNumber.rounded q.toNNRat else -JsNumber.rounded (-q).toNNRat

def asRecord (value : JsValue) : List (Text × JsValue) := value.asObject.getD []

/-- The counts of a pool that the payload reports: its limit and what remains of it. -/
def reportedCounts (value : JsValue) : Option (ℤ × ℤ) :=
  value.asObject.bind fun node =>
    match integer (JsValue.field node "limit".toList), integer (JsValue.field node "remaining".toList) with
    | some limit, some remaining => if limit ≤ 0 then none else some (limit, remaining)
    | _, _ => none

/-- The end of a pool's window, in seconds. -/
def reportedReset (value : JsValue) : Option ℤ := integer (JsValue.field (asRecord value) "reset".toList)

def reportedUsed (value : JsValue) : ℤ :=
  (integer (JsValue.field (asRecord value) "used".toList)).getD 0

/-- `Invalid time value` is what `toISOString` throws. -/
def readPool (pool : GithubRateBudget) (resource : Text) (value : JsValue) :
    Except Text (Option GithubPoolBalance) :=
  match reportedCounts value with
  | none => .ok none
  | some (limit, remaining) =>
    let row (resetAt : Text) : GithubPoolBalance :=
      { pool := pool
        resource := resource
        limit := limit
        remaining := remaining
        used := reportedUsed value
        resetAt := resetAt
        fraction := double (remaining / limit) }
    match reportedReset value with
    | none => .ok (some (row []))
    | some reset =>
      match IsoDate.toISOString (reset * 1000) with
      | none => .error "Invalid time value".toList
      | some resetAt => .ok (some (row resetAt))

def resourceNode (payload : JsValue) (pool : GithubRateBudget) : JsValue :=
  JsValue.field (asRecord (JsValue.field (asRecord payload) "resources".toList))
    (githubPoolResource pool)

def unreported (pools : GithubRateBudget → Option GithubPoolBalance) : List GithubRateBudget :=
  githubPools.filter fun pool => (pools pool).isNone

def answeredDetail (answered : ℕ) : Text :=
  if 0 < answered then
    "the token's own answer for ".toList ++ Text.number answered ++ " of 3 pools".toList
  else "the answer carried no pool this repo budgets, so nothing about the token is known".toList

def parseGithubBalance (payload : JsValue) (askedAt : Text) : Except Text GithubBalance := do
  let core ← readPool rest (githubPoolResource rest) (resourceNode payload rest)
  let graph ← readPool graphql (githubPoolResource graphql) (resourceNode payload graphql)
  let find ← readPool search (githubPoolResource search) (resourceNode payload search)
  let pools : GithubRateBudget → Option GithubPoolBalance
    | .rest => core
    | .graphql => graph
    | .search => find
  let answered := githubPools.length - (unreported pools).length
  pure
    { outcome := if 0 < answered then .asked else .unanswered
      askedAt := askedAt
      requestCount := 1
      pools := pools
      unreportedPools := unreported pools
      detail := answeredDetail answered }

def unaskedGithubBalance (at' detail : Text) : GithubBalance where
  outcome := .unanswered
  askedAt := at'
  requestCount := 0
  pools _ := none
  unreportedPools := githubPools
  detail := detail

def fetchGithubBalance (transport : Except Text JsValue) (now : Text) : GithubBalance :=
  match transport.bind fun payload => parseGithubBalance payload now with
  | .ok balance => balance
  | .error reason =>
    { unaskedGithubBalance now
        ("the balance ask failed before the token answered: ".toList ++ reason) with
      requestCount := 1 }

inductive GithubBalancePosture where
  | opened
  | reserved
  | spent
  | unknown
  deriving DecidableEq

inductive GithubCallCriticality where
  | essential
  | convenience
  deriving DecidableEq

abbrev WholeDouble := WithBot (WithTop ℤ)

instance (a b : WholeDouble) : Decidable (a < b) :=
  inferInstanceAs (Decidable (@LT.lt _ (@WithBot.instLT _ (@WithTop.instLT _ Int.instLTInt)) a b))

def whole (n : ℤ) : WholeDouble := ((n : WithTop ℤ) : WithBot (WithTop ℤ))

/-- `0.15`, as a double has it. -/
def githubReservedFraction : ℚ := 5404319552844595 / 36028797018963968

/-- `Math.ceil(pool.limit * reservedFraction)`. -/
def githubReservedFloor (pool : GithubPoolBalance) (reservedFraction : ℚ) : WholeDouble :=
  let product := pool.limit * reservedFraction
  match JsNumber.nearest (if 0 ≤ product then product.toNNRat else (-product).toNNRat) with
  | ⊤ => if 0 ≤ product then ((⊤ : WithTop ℤ) : WithBot (WithTop ℤ)) else ⊥
  | some size => whole (if 0 ≤ product then (size : ℚ) else -(size : ℚ)).ceil

def githubBalancePosture (balance : GithubBalance) (pool : GithubRateBudget)
    (reservedFraction : ℚ) : GithubBalancePosture :=
  match balance.pools pool with
  | none => .unknown
  | some reported =>
    if reported.remaining ≤ 0 then .spent
    else if whole reported.remaining < githubReservedFloor reported reservedFraction then .reserved
    else .opened

structure GithubAdmission where
  admitted : Bool
  posture : GithubBalancePosture
  pool : GithubRateBudget
  criticality : GithubCallCriticality
  remaining : Option ℤ
  reservedFloor : Option WholeDouble
  resetAt : Option Text
  reason : Text

def GithubCallCriticality.text : GithubCallCriticality → Text
  | essential => "essential".toList
  | convenience => "convenience".toList

section
variable (numberText : WholeDouble → Text)

def leftOf (reported : GithubPoolBalance) : Text :=
  numberText (whole reported.remaining) ++ " of ".toList ++ numberText (whole reported.limit)

def admitGithubCall (balance : Option GithubBalance) (pool : GithubRateBudget)
    (criticality : GithubCallCriticality) (reservedFraction : Option ℚ) : GithubAdmission :=
  match balance, balance.bind (·.pools pool) with
  | some balance, some reported =>
    let fraction := reservedFraction.getD githubReservedFraction
    let floor := githubReservedFloor reported fraction
    let posture := githubBalancePosture balance pool fraction
    let verdict (admitted : Bool) (reason : Text) : GithubAdmission :=
      { admitted := admitted
        posture := posture
        pool := pool
        criticality := criticality
        remaining := some reported.remaining
        reservedFloor := some floor
        resetAt := some reported.resetAt
        reason := reason }
    if posture = .spent then
      verdict false ("the ".toList ++ pool.text ++ " pool is spent, so not even ".toList ++
        criticality.text ++ " work can be issued until the quota resets at ".toList ++
        reported.resetAt)
    else if posture = .reserved ∧ criticality = .convenience then
      verdict false (leftOf numberText reported ++ " left in the ".toList ++ pool.text ++
        " pool is inside the reserved band of ".toList ++ numberText floor ++
        (", which is held for the claim, a landing and a finishing Worker's closing " ++
          "comment; this read can wait, be answered from cache, or not happen at all").toList)
    else if posture = .reserved then
      verdict true (leftOf numberText reported ++ " left in the ".toList ++ pool.text ++
        " pool is inside the reserved band of ".toList ++ numberText floor ++
        ", and essential work is exactly what the band is held for".toList)
    else
      verdict true (leftOf numberText reported ++ " left in the ".toList ++ pool.text ++
        " pool, above the reserved band of ".toList ++ numberText floor)
  | _, _ =>
    { admitted := true
      posture := .unknown
      pool := pool
      criticality := criticality
      remaining := none
      reservedFloor := none
      resetAt := none
      reason := "no authoritative balance names the ".toList ++ pool.text ++
        (" pool, so this call is admitted and the reactive breaker still decides: " ++
          "refusing on an unread balance would turn a reporting failure into an outage").toList }

structure GithubBalanceReport where
  outcome : GithubBalanceOutcome
  askedAt : Option Text
  ageMs : Option ℤ
  thresholdMs : ℤ
  stale : Bool
  posture : GithubBalancePosture
  reservedFraction : ℚ
  nextPollMs : ℤ
  pools : List GithubPoolBalance
  unreportedPools : List GithubRateBudget
  reason : Text

/-- The tightest reported pool. -/
def tightestGithubPool (balance : GithubBalance) : Option GithubPoolBalance :=
  githubPools.foldl
    (fun tightest pool =>
      match balance.pools pool, tightest with
      | none, tightest => tightest
      | some candidate, none => some candidate
      | some candidate, some held =>
        if candidate.fraction < held.fraction then some candidate else some held)
    none

def githubBalanceMinCadenceMs : ℤ := 15000

def stepFor (fraction : ℚ) : ℤ :=
  if fraction ≤ 0 then githubBalanceMinCadenceMs
  else if fraction ≤ githubReservedFraction then 30000
  else if fraction ≤ 1 / 2 then 120000
  else 600000

variable (dateParse : Text → Option ℤ)

def msBetween (start stop : Text) : Option ℤ :=
  match dateParse start, dateParse stop with
  | some a, some b => some (max 0 (b - a))
  | _, _ => none

def githubBalanceCadenceMs (balance : GithubBalance) (now : Text) : ℤ :=
  match tightestGithubPool balance with
  | none => stepFor githubReservedFraction
  | some tightest =>
    let step := stepFor tightest.fraction
    if 0 < tightest.remaining then step
    else
      match msBetween dateParse now tightest.resetAt with
      | none => step
      | some untilReset => max githubBalanceMinCadenceMs (min step untilReset)

def worstPosture (balance : GithubBalance) (reservedFraction : ℚ) : GithubBalancePosture :=
  githubPools.foldl
    (fun worst pool =>
      let posture := githubBalancePosture balance pool reservedFraction
      if worst = .spent ∨ balance.pools pool = none then worst
      else if posture = .spent then .spent
      else if posture = .reserved ∨ worst = .unknown then posture
      else worst)
    .unknown

def describePosture (posture : GithubBalancePosture) (tightest : Option GithubPoolBalance)
    (balance : GithubBalance) (reservedFraction : ℚ) : Text :=
  match tightest with
  | none => balance.detail
  | some tightest =>
    let floor := githubReservedFloor tightest reservedFraction
    match posture with
    | .spent =>
      "the ".toList ++ tightest.pool.text ++ " pool is spent and resets at ".toList ++
        tightest.resetAt ++ ": work is not queued, it is refused".toList
    | .reserved =>
      "the ".toList ++ tightest.pool.text ++ " pool has ".toList ++ leftOf numberText tightest ++
        " left, inside the reserved band of ".toList ++ numberText floor ++
        (": convenience reads are refused and the claim, a landing and a closing " ++
          "comment still pass").toList
    | _ =>
      "the ".toList ++ tightest.pool.text ++ " pool is the tightest at ".toList ++
        leftOf numberText tightest ++ ", above the reserved band of ".toList ++ numberText floor

def staleReason (ageMs : Option ℤ) (threshold : ℤ) : Text :=
  "this balance is stale: asked ".toList ++
    (match ageMs with
      | none => "at an unreadable instant".toList
      | some age => numberText (whole age) ++ "ms ago".toList) ++
    ", past the ".toList ++ numberText (whole threshold) ++
    ("ms window, so the posture below is the last one the token confirmed and not the " ++
      "current one").toList

def buildGithubBalanceReport (balance : Option GithubBalance) (now : Text)
    (stalenessMs : Option ℤ) (reservedFraction : Option ℚ) : GithubBalanceReport :=
  let fraction := reservedFraction.getD githubReservedFraction
  match balance with
  | none =>
    { outcome := .unanswered
      askedAt := none
      ageMs := none
      thresholdMs := stepFor fraction * 2
      stale := false
      posture := .unknown
      reservedFraction := fraction
      nextPollMs := stepFor fraction
      pools := []
      unreportedPools := githubPools
      reason := ("this daemon has asked for no balance, so the token's budget is unknown " ++
        "rather than full").toList }
  | some balance =>
    let nextPollMs := githubBalanceCadenceMs dateParse balance now
    let threshold := stalenessMs.getD (nextPollMs * 2)
    let ageMs := msBetween dateParse balance.askedAt now
    let stale := balance.outcome = .asked ∧ ageMs.all (threshold < ·) = true
    let posture := worstPosture balance fraction
    { outcome := balance.outcome
      askedAt := some balance.askedAt
      ageMs := ageMs
      thresholdMs := threshold
      stale := stale
      posture := posture
      reservedFraction := fraction
      nextPollMs := nextPollMs
      pools := githubPools.filterMap balance.pools
      unreportedPools := balance.unreportedPools
      reason :=
        if stale then staleReason numberText ageMs threshold
        else describePosture numberText posture (tightestGithubPool balance) balance fraction }

end

/-- `pools[row.pool] = row` -/
def setPool (pools : GithubRateBudget → Option GithubPoolBalance) (row : GithubPoolBalance) :
    GithubRateBudget → Option GithubPoolBalance :=
  Function.update pools row.pool (some row)

def balanceFromReport (report : GithubBalanceReport) : GithubBalance where
  outcome := report.outcome
  askedAt := report.askedAt.getD []
  requestCount := if report.outcome = .asked then 1 else 0
  pools := report.pools.foldl setPool fun _ => none
  unreportedPools := report.unreportedPools
  detail := report.reason

end Redskilled.Github.Balance
