import Redskilled.Foundation.JsText
import Redskilled.Foundation.JsNumber
import Mathlib.Data.List.Sort

/-!
# Admission

May the host afford one more Worker, given the Workers it holds? A Worker is
charged what its declared budget commits; a budget that does not reduce to bytes
is named rather than counted. The answer carries the numbers it was judged on.

How a number prints is the parameter `numberText`; no decision depends on it.
-/
namespace Redskilled.Daemon.Admission
open Foundation Option

structure WorkerBudget where
  memoryHigh : Option Text
  memoryMax : Option Text

structure WorkerView where
  workerId : Text
  budget : Option WorkerBudget

/-- The ceiling of the host; `none` on a dimension is unbounded. -/
structure HostCeiling where
  memoryBytes : Option JsNumber
  workerCount : Option Nat
  interactiveReservation : Option Int

def defaultInteractiveReservation : Int := 1

def HostCeiling.reserved (ceiling : HostCeiling) : Nat :=
  (max 0 (ceiling.interactiveReservation.getD defaultInteractiveReservation)).toNat

structure HostConsumption where
  workerCount : Nat
  memoryBytes : JsNumber
  unaccountedWorkers : List Text

inductive VerdictKind where
  | admitted
  | admittedInteractiveReservation
  | refusedOverMemoryCeiling
  | refusedOverWorkerCeiling
  | refusedOverInteractiveReservation
  | refusedUnreachableTrunkRemote
  | refusedUnaccountableBudget

structure AdmissionVerdict where
  admitted : Bool
  verdict : VerdictKind
  reason : Text
  ceiling : HostCeiling
  consumption : HostConsumption
  requestedMemoryBytes : Option JsNumber
  projectedWorkerCount : Nat
  projectedMemoryBytes : JsNumber

structure AdmissionInput where
  ceiling : HostCeiling
  workers : List WorkerView
  budget : Option WorkerBudget
  projectLabel : Option Text
  interactive : Bool

def unitScale (c : Char) : Option ℚ≥0 :=
  if c = 'k' ∨ c = 'K' then some 1024
  else if c = 'm' ∨ c = 'M' then some (1024 ^ 2)
  else if c = 'g' ∨ c = 'G' then some (1024 ^ 3)
  else if c = 't' ∨ c = 'T' then some (1024 ^ 4)
  else none

/-- The group `([KMGT]?)`: its scale and the text after it. -/
def readUnit : Text → ℚ≥0 × Text
  | [] => (1, [])
  | c :: rest => (unitScale c).elim (1, c :: rest) fun scale => (scale, rest)

/-- The group `(?:B)?`. -/
def dropByteLetter : Text → Text
  | [] => []
  | c :: rest => if c = 'b' ∨ c = 'B' then rest else c :: rest

def readFraction : Text → Text × Text
  | [] => ([], [])
  | c :: rest =>
    let digits := rest.takeWhile Char.isDigit
    if c = '.' ∧ digits ≠ [] then (digits, rest.dropWhile Char.isDigit) else ([], c :: rest)

def decimalNumber (whole fraction : Text) : JsNumber :=
  JsNumber.nearest (Nat.ofDigitChars 10 (whole ++ fraction) 0 / 10 ^ fraction.length)

/-- `/^\s*(\d+(?:\.\d+)?)\s*([KMGT]?)(?:B)?\s*$/i` and the bytes it stands for. -/
def parseMemoryBudget (value : Text) : Option JsNumber :=
  let text := value.dropWhile Text.isWhitespace
  let whole := text.takeWhile Char.isDigit
  if whole = [] then none
  else
    let (fraction, afterNumber) := readFraction (text.dropWhile Char.isDigit)
    let (scale, afterUnit) := readUnit (afterNumber.dropWhile Text.isWhitespace)
    if (dropByteLetter afterUnit).all Text.isWhitespace then
      some (JsNumber.mathRound (JsNumber.scale (decimalNumber whole fraction) scale))
    else none

/-- What a declared budget commits. -/
inductive Charge where
  | undeclared
  /-- Declared, but not a quantity of bytes. -/
  | unaccountable
  | bytes (n : JsNumber)
  deriving DecidableEq

def Charge.bytes? : Charge → Option JsNumber
  | .bytes n => some n
  | .undeclared | .unaccountable => none

def Charge.committed (charge : Charge) : JsNumber := charge.bytes?.getD 0

/-- The wall when one is declared, else the pressure mark. -/
def budgetMemoryCharge (budget : Option WorkerBudget) : Charge :=
  match budget.bind fun b => b.memoryMax <|> b.memoryHigh with
  | none => .undeclared
  | some declared => (parseMemoryBudget declared).elim .unaccountable .bytes

/-- The total adds the charges that are bytes, from the left. -/
def measureHostConsumption (workers : List WorkerView) : HostConsumption :=
  { workerCount := workers.length
    memoryBytes :=
      JsNumber.total (workers.filterMap fun worker => (budgetMemoryCharge worker.budget).bytes?)
    unaccountedWorkers :=
      ((workers.filter fun worker => budgetMemoryCharge worker.budget = .unaccountable).map
        (·.workerId)).insertionSort fun a b => Text.utf16Lt b a = false }

lemma isInteger_committed (budget : Option WorkerBudget) :
    JsNumber.IsInteger (budgetMemoryCharge budget).committed := by
  unfold budgetMemoryCharge
  split
  · exact JsNumber.isInteger_zero
  · rename_i declared hdecl
    unfold parseMemoryBudget
    dsimp only
    split_ifs
    · exact JsNumber.isInteger_zero
    · exact JsNumber.isInteger_mathRound _
    · exact JsNumber.isInteger_zero

section
variable (numberText : JsNumber → Text)

/-- ` for project "…"`, or nothing without a label. -/
def who (projectLabel : Option Text) : Text :=
  match projectLabel with
  | none => []
  | some label => if label = [] then [] else " for project ".toList ++ Text.jsonString label

def holding (consumption : HostConsumption) : Text :=
  "the host is already holding ".toList ++ numberText consumption.memoryBytes ++
    " bytes across ".toList ++ Text.number consumption.workerCount ++ " Worker(s)".toList

def evaluateWorkerAdmission (input : AdmissionInput) : AdmissionVerdict :=
  let ceiling := input.ceiling
  let consumption := measureHostConsumption input.workers
  let charge := budgetMemoryCharge input.budget
  let projectedMemory := JsNumber.add consumption.memoryBytes charge.committed
  let projectedWorkers := consumption.workerCount + 1
  let reserved := ceiling.reserved
  let who := who input.projectLabel
  let at_ := holding numberText consumption
  let answer (admitted : Bool) (verdict : VerdictKind) (reason : Text) : AdmissionVerdict :=
    { admitted, verdict, reason, ceiling, consumption
      requestedMemoryBytes := charge.bytes?
      projectedWorkerCount := projectedWorkers
      projectedMemoryBytes := projectedMemory }
  let ceilingText := Text.number (ceiling.workerCount.getD 0)
  let limitText := (ceiling.memoryBytes.map numberText).getD "unbounded".toList
  -- Only a positive slot is ever looked at.
  let reservedSlot := (ceiling.workerCount.map fun c => projectedWorkers - c).getD 0
  if 0 < reservedSlot ∧ input.interactive = false then
    answer false .refusedOverWorkerCeiling
      ("redskilled refused this Worker".toList ++ who ++ ": it would be Worker ".toList ++
        Text.number projectedWorkers ++ " past a host ceiling of ".toList ++ ceilingText ++
        " Worker(s); ".toList ++ Text.number reserved ++
        " extra slot(s) are reserved for interactive dispatches, and ".toList ++ at_)
  else if reserved < reservedSlot then
    answer false .refusedOverInteractiveReservation
      ("redskilled refused this interactive Worker".toList ++ who ++ ": reserved slot ".toList ++
        Text.number reservedSlot ++ "/".toList ++ Text.number reserved ++
        " is outside the bounded interactive reservation above the host ceiling of ".toList ++
        ceilingText ++ " Worker(s), and ".toList ++ at_)
  else if ceiling.memoryBytes.isSome ∧ charge = .unaccountable then
    answer false .refusedUnaccountableBudget
      ("redskilled refused this Worker".toList ++ who ++
        ": its declared memory budget cannot be reduced to bytes, so it cannot be proven to fit under the host ceiling of ".toList ++
        limitText ++ " bytes, and ".toList ++ at_)
  else if ceiling.memoryBytes.any (· < projectedMemory) then
    answer false .refusedOverMemoryCeiling
      ("redskilled refused this Worker".toList ++ who ++ ": it would take the host to ".toList ++
        numberText projectedMemory ++
        " bytes of declared Worker memory, past the host ceiling of ".toList ++ limitText ++
        " bytes, and ".toList ++ at_)
  else if input.interactive ∧ 0 < reservedSlot then
    answer true .admittedInteractiveReservation
      ("redskilled admitted this interactive Worker".toList ++ who ++
        " into reserved interactive slot ".toList ++ Text.number reservedSlot ++ "/".toList ++
        Text.number reserved ++ " above the host ceiling of ".toList ++ ceilingText ++
        " Worker(s): ".toList ++ numberText projectedMemory ++
        " bytes of declared Worker memory against a host ceiling of ".toList ++ limitText ++
        " bytes, and ".toList ++ at_)
  else
    answer true .admitted
      ("redskilled admitted this Worker".toList ++ who ++ ": ".toList ++
        numberText projectedMemory ++
        " bytes of declared Worker memory against a host ceiling of ".toList ++ limitText ++
        " bytes, and ".toList ++ at_)

lemma admitted_iff (input : AdmissionInput) :
    (evaluateWorkerAdmission numberText input).admitted = true ↔
      (∀ c, input.ceiling.workerCount = some c →
        (input.interactive = false → input.workers.length < c) ∧
          input.workers.length < c + input.ceiling.reserved) ∧
      ∀ m, input.ceiling.memoryBytes = some m → budgetMemoryCharge input.budget ≠ .unaccountable ∧
          JsNumber.add (measureHostConsumption input.workers).memoryBytes
            (budgetMemoryCharge input.budget).committed ≤ m := by
  have hlength : (measureHostConsumption input.workers).workerCount = input.workers.length := rfl
  unfold evaluateWorkerAdmission
  dsimp only
  rw [hlength]
  constructor
  · intro h
    split_ifs at h with h₁ h₂ h₃ h₄ h₅
    all_goals
      constructor
      · intro c hc
        simp only [hc, map_some, getD_some] at h₁ h₂
        constructor
        · intro hi
          simp only [hi, and_true, not_lt] at h₁
          omega
        · omega
      · intro m hm
        simp only [hm, isSome_some, true_and] at h₃
        simp only [hm, any_some, decide_eq_true_eq, not_lt] at h₄
        exact ⟨h₃, h₄⟩
  · rintro ⟨hcount, hmem⟩
    split_ifs with h₁ h₂ h₃ h₄ h₅
    · cases hc : input.ceiling.workerCount with
      | none => simp [hc] at h₁
      | some c =>
        simp only [hc, map_some, getD_some] at h₁
        have := (hcount c hc).1 h₁.2
        omega
    · cases hc : input.ceiling.workerCount with
      | none => simp [hc] at h₂
      | some c =>
        simp only [hc, map_some, getD_some] at h₂
        have := (hcount c hc).2
        omega
    · obtain ⟨m, hm⟩ := isSome_iff_exists.mp h₃.1
      exact absurd h₃.2 (hmem m hm).1
    · obtain ⟨m, hm, hlt⟩ := (any_eq_true _ _).mp h₄
      exact absurd (of_decide_eq_true hlt) (not_lt.mpr (hmem m hm).2)
    · rfl
    · rfl

end
end Redskilled.Daemon.Admission
