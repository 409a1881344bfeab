import Redskilled.Foundation.Dialogue
import Redskilled.Foundation.JsText

/-!
# Efforts and their leases

An effort is one file, and so is its lease. Both are written to a temporary file that is
renamed, so what is read is a whole document. A save bumps the generation of the effort, and
refuses where the stored generation is another than the writer's. Managing an effort saves it
as active and then writes a lease; ending it saves it as completed and then removes the lease.

An effort that cannot be read counts as one that is not stored. Text that looks like a secret
is not written: no stamp and no lifecycle looks like one.
-/
namespace Redskilled.Manager
open Foundation Foundation.Text Dialogue

inductive EffortLifecycle where
  | inbox | active | paused | completed | abandoned
  deriving DecidableEq

structure EffortRecord where
  effortId : Text
  name : Text
  intent : Text
  lifecycle : EffortLifecycle
  generation : ℕ
  createdAt : ℤ
  updatedAt : ℤ
  dispatchIssue : Option ℤ
  route : Option Text
  artifactRefs : Option (List Text)
  deriving DecidableEq

structure EffortRow where
  effortId : Text
  name : Text
  intent : Text
  lifecycle : EffortLifecycle
  generation : ℕ
  createdAt : ℤ
  updatedAt : ℤ
  dispatchIssue : Option ℤ
  route : Option Text
  artifactRefs : Option Text
  deriving DecidableEq

structure EffortLease where
  effortId : Text
  host : Text
  generation : ℕ
  acquiredAt : ℤ
  expiresAt : ℤ
  deriving DecidableEq

section
variable (secretShaped : Text → Bool)

/-- Nothing in the record looks like a secret. -/
def isSecretFree (effort : EffortRecord) : Bool :=
  ([effort.effortId, effort.name, effort.intent] ++ effort.route.toList).all
    fun value => !secretShaped value

def encodeEffortRow (effort : EffortRecord) : Option EffortRow :=
  if isSecretFree secretShaped effort then
    some
      { effortId := effort.effortId
        name := effort.name
        intent := effort.intent
        lifecycle := effort.lifecycle
        generation := effort.generation
        createdAt := effort.createdAt
        updatedAt := effort.updatedAt
        dispatchIssue := effort.dispatchIssue
        route := effort.route
        artifactRefs := (effort.artifactRefs.filter (· ≠ [])).map (List.intercalate ['\n']) }
  else none

end

/-- A row without an id, a name or an intent is refused, and one of generation zero. -/
def decodeEffortRow (row : EffortRow) : Option EffortRecord :=
  if row.generation < 1 ∨ row.effortId = [] ∨ row.name = [] ∨ row.intent = [] then none
  else
    some
      { effortId := row.effortId
        name := row.name
        intent := row.intent
        lifecycle := row.lifecycle
        generation := row.generation
        createdAt := row.createdAt
        updatedAt := row.updatedAt
        dispatchIssue := row.dispatchIssue.filter (0 < ·)
        route := row.route
        artifactRefs := (row.artifactRefs.filter (· ≠ [])).map (List.splitOn '\n') }

section
variable {secretShaped : Text → Bool} {effort : EffortRecord} {row : EffortRow}

lemma of_encode (h : encodeEffortRow secretShaped effort = some row) :
    row.generation = effort.generation ∧ row.lifecycle = effort.lifecycle ∧
      row.effortId = effort.effortId ∧ row.name = effort.name ∧ row.intent = effort.intent ∧
        row.route = effort.route ∧ isSecretFree secretShaped effort = true := by
  unfold encodeEffortRow at h
  split_ifs at h with hfree
  cases h
  exact ⟨rfl, rfl, rfl, rfl, rfl, rfl, hfree⟩

lemma of_decode (h : decodeEffortRow row = some effort) :
    row.generation = effort.generation ∧ row.lifecycle = effort.lifecycle ∧
      row.effortId = effort.effortId ∧ row.name = effort.name ∧ row.intent = effort.intent ∧
        row.route = effort.route ∧ row.effortId ≠ [] := by
  unfold decodeEffortRow at h
  split_ifs at h with hbad
  cases h
  exact ⟨rfl, rfl, rfl, rfl, rfl, rfl, fun hid => hbad (.inr (.inl hid))⟩

end

/-- The leading words of the intent. -/
def deriveEffortName (intent : Text) : Text :=
  let words := ((splitWhitespace (trim intent)).filter (· ≠ [])).take 6
  let name := trim ((List.intercalate [' '] words).take 48)
  if name = [] then "untitled effort".toList else name

inductive FileOp where
  | mkdir
  | readEffort
  | writeEffort (row : EffortRow)
  /-- The temporary file takes the place of the effort. -/
  | renameEffort (row : EffortRow)
  | readLease
  | writeLease (lease : EffortLease)
  | renameLease (lease : EffortLease)
  | unlinkLease
  | unlinkTemporary
  deriving DecidableEq

abbrev Answer : FileOp → Type
  | .readEffort => EffortRow
  | .readLease => EffortLease
  | _ => Unit

abbrev Program (α : Type) := Dialogue FileOp Answer α

def writeAtomic (write rename : Program Unit) : Program Unit := do
  need FileOp.mkdir
  let written ← caught (do write; rename)
  match written with
  | some () => pure ()
  | none => do
      let _ ← attempt FileOp.unlinkTemporary
      .fail

def readEffort : Program (Option EffortRecord) := do
  match ← attempt .readEffort with
  | none => pure none
  | some row =>
    match decodeEffortRow row with
    | some effort => pure (some effort)
    | none => .fail

section
variable (secretShaped : Text → Bool)

def writeEffortAtomic (effort : EffortRecord) : Program Unit :=
  match encodeEffortRow secretShaped effort with
  | none => .fail
  | some row => writeAtomic (need (FileOp.writeEffort row)) (need (FileOp.renameEffort row))

structure StartEffortOptions where
  intent : Text
  now : ℤ
  effortId : Text

def startedEffort (options : StartEffortOptions) : EffortRecord where
  effortId := options.effortId
  name := deriveEffortName options.intent
  intent := trim options.intent
  lifecycle := .inbox
  generation := 1
  createdAt := options.now
  updatedAt := options.now
  dispatchIssue := none
  route := none
  artifactRefs := none

def startEffort (options : StartEffortOptions) : Program EffortRecord := do
  writeEffortAtomic secretShaped (startedEffort options)
  pure (startedEffort options)

def bumped (effort : EffortRecord) (now : ℤ) : EffortRecord :=
  { effort with generation := effort.generation + 1, updatedAt := now }

def saveEffort (effort : EffortRecord) (now : ℤ) : Program EffortRecord := do
  match ← readEffort with
  | some stored =>
    if stored.generation ≠ effort.generation then .fail
    else do
      writeEffortAtomic secretShaped (bumped effort now)
      pure (bumped effort now)
  | none => do
      writeEffortAtomic secretShaped (bumped effort now)
      pure (bumped effort now)

end

def isLeaseExpired (lease : EffortLease) (now : ℤ) : Bool := lease.expiresAt ≤ now

def isLeaseDecoded (lease : EffortLease) : Bool :=
  1 ≤ lease.generation && lease.effortId ≠ [] && lease.host ≠ []

def readLease : Program (Option EffortLease) := do
  match ← attempt .readLease with
  | none => pure none
  | some lease => if isLeaseDecoded lease then pure (some lease) else .fail

def writeLeaseAtomic (lease : EffortLease) : Program Unit :=
  writeAtomic (need (FileOp.writeLease lease)) (need (FileOp.renameLease lease))

/-- A lease that cannot be removed is left. -/
def releaseLease : Program Unit := do
  let _ ← attempt FileOp.unlinkLease
  pure ()

def resumable : List EffortLifecycle := [.inbox, .paused]

def terminal : List EffortLifecycle := [.completed, .abandoned]

structure ManageEffortOptions where
  now : ℤ
  ttlMs : ℤ
  host : Text

/-- The lease that is found lets the host manage the effort. -/
def mayManage (effort : EffortRecord) (options : ManageEffortOptions) : Option EffortLease → Bool
  | none => resumable.contains effort.lifecycle
  | some lease =>
    if isLeaseExpired lease options.now then !terminal.contains effort.lifecycle
    else lease.host == options.host && resumable.contains effort.lifecycle

def targetLifecycle (effort : EffortRecord) : EffortLifecycle :=
  if effort.lifecycle = .inbox ∨ effort.lifecycle = .paused then .active else effort.lifecycle

def grantedLease (saved : EffortRecord) (options : ManageEffortOptions) : EffortLease where
  effortId := saved.effortId
  host := options.host
  generation := saved.generation
  acquiredAt := options.now
  expiresAt := options.now + options.ttlMs

section
variable (secretShaped : Text → Bool)

def manageEffort (effort : EffortRecord) (options : ManageEffortOptions) :
    Program (EffortRecord × EffortLease) := do
  let existingLease ← readLease
  if mayManage effort options existingLease then
    let saved ← saveEffort secretShaped { effort with lifecycle := targetLifecycle effort }
      options.now
    writeLeaseAtomic (grantedLease saved options)
    pure (saved, grantedLease saved options)
  else .fail

def endEffort (effort : EffortRecord) (now : ℤ) : Program EffortRecord :=
  if effort.lifecycle ≠ .active then .fail
  else do
    let completed ← saveEffort secretShaped { effort with lifecycle := .completed } now
    releaseLease
    pure completed

end
end Redskilled.Manager
