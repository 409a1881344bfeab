import Mathlib.Algebra.Ring.Int.Defs
import Redskilled.Foundation.Machine
import Redskilled.Foundation.Utf8
import Redskilled.Memory.Supersession

/-!
# Runs of a memory

One store is used by one call after the other, and time passes between them and within
them. A sweep evicts the nodes of the second layer that are too old, and the oldest events
of a session that takes too much room. What was stored, and what the last call did, is kept
along.
-/
namespace Redskilled.Memory
open Foundation

variable {ρ : Type} (M : MemorySetting ρ)

structure EvictL2Options where
  ttlMs : Option ℤ
  byteBudget : Option ℤ
  now : Option ℤ

def defaultL2TtlMs : ℤ := 86400000

def defaultL2ByteBudget : ℤ := 16777216

namespace GraphStore
variable (s : GraphStore ρ)

def nodeBytes (node : StoredNode ρ) : ℤ :=
  (Utf8.encode (node.properties.value.getD [])).length +
    (Utf8.encode (node.properties.content.getD [])).length +
    (Utf8.encode node.properties.title).length + (Utf8.encode node.label).length

/-- A node without a time is no old one. -/
def isOverTtl (ttlMs now : ℤ) (node : StoredNode ρ) : Bool :=
  let createdAt := node.properties.createdAt.getD 0
  0 < createdAt && ttlMs < now - createdAt

def overBudget (byteBudget : ℤ) : ℤ → List (StoredNode ρ) → List (StoredNode ρ)
  | _, [] => []
  | bytes, event :: events =>
    if byteBudget < bytes then event :: overBudget byteBudget (bytes - nodeBytes event) events
    else []

def sessionOf (node : StoredNode ρ) : Text := node.properties.sessionId.getD []

def isEvent (node : StoredNode ρ) : Bool :=
  node.properties.workingKind = some "event".toList && sessionOf node ≠ []

def eventsOf (survivors : List (StoredNode ρ)) (session : Text) : List (StoredNode ρ) :=
  (survivors.filter fun node => isEvent node && sessionOf node = session).insertionSort
    fun a b => a.properties.sequence.getD 0 ≤ b.properties.sequence.getD 0

/-- What a sweep evicts of the live nodes. -/
def victims (options : EvictL2Options) (instant : ℤ) : List (StoredNode ρ) :=
  let now := options.now.getD instant
  let l2Nodes := (s.listNodes instant).filter (·.properties.layer = some .L2)
  let old := l2Nodes.filter (isOverTtl (options.ttlMs.getD defaultL2TtlMs) now)
  let survivors := l2Nodes.filter fun node =>
    !isOverTtl (options.ttlMs.getD defaultL2TtlMs) now node
  let sessions := ((survivors.filter isEvent).map sessionOf).reverse.dedup.reverse
  old ++ sessions.flatMap fun session =>
    let events := eventsOf survivors session
    overBudget (options.byteBudget.getD defaultL2ByteBudget) (events.map nodeBytes).sum events

def evictL2 (options : EvictL2Options) (instant : ℤ) : GraphStore ρ :=
  s.recordEvicted ((s.victims options instant).map (·.rid))

end GraphStore

inductive MemoryMove (ρ : Type) where
  /-- A store that begins at `now` and resolves at `later`. -/
  | upsertNode (node : MemoryNode ρ) (now later : ℤ)
  | resolveConflict (activeRid supersededRid : ℕ) (reason : Option Text) (now : ℤ)
  | executeMemoryMergeBatch (input : GraphStore.MemoryMergeBatchExecuteInput) (now : ℤ)
  | unmergeMemoryMergeBatch (batchId : Text) (now : ℤ)
  | evictL2 (options : EvictL2Options) (now : ℤ)
  | deleteNode (node : StoredNode ρ) (now : ℤ)

/-- What the last call did, where it did not throw. -/
inductive LastCall (ρ : Type) where
  | nothing
  | upserted (node : MemoryNode ρ) (rid : ℕ) (now : ℤ)
  | resolved (activeRid supersededRid : ℕ)
  /-- With the numbers of the nodes that were live before. -/
  | deleted (rid : ℕ) (live : List ℕ)

structure MemoryRun (ρ : Type) where
  store : GraphStore ρ
  clock : ℤ
  upserted : List (MemoryNode ρ × ℕ)
  last : LastCall ρ

namespace MemoryRun
variable (s : MemoryRun ρ)

def begun (clock : ℤ) : MemoryRun ρ where
  store := emptyStore ρ
  clock := clock
  upserted := []
  last := .nothing

/-- A call that throws leaves the store. -/
def wrote (now : ℤ) (last : LastCall ρ) : Option (GraphStore ρ) → MemoryRun ρ
  | some store => { s with store := store, clock := now, last := last }
  | none => { s with clock := now, last := .nothing }

def stored (node : MemoryNode ρ) (now later : ℤ) : MemoryRun ρ where
  store := (s.store.upsertNode M node now later).2
  clock := later
  upserted := s.upserted ++ [(node, (s.store.upsertNode M node now later).1)]
  last := .upserted node (s.store.upsertNode M node now later).1 now

def next : MemoryMove ρ → Option (MemoryRun ρ)
  | .upsertNode node now later =>
    if s.clock ≤ now ∧ now ≤ later then some (s.stored M node now later) else none
  | .resolveConflict activeRid supersededRid reason now =>
    if s.clock ≤ now then
      some (s.wrote now (.resolved activeRid supersededRid)
        (s.store.resolveConflict activeRid supersededRid reason now))
    else none
  | .executeMemoryMergeBatch input now =>
    if s.clock ≤ now then
      some (s.wrote now .nothing (s.store.executeMemoryMergeBatch M input now))
    else none
  | .unmergeMemoryMergeBatch batchId now =>
    if s.clock ≤ now then
      some (s.wrote now .nothing (s.store.unmergeMemoryMergeBatch M batchId))
    else none
  | .evictL2 options now =>
    if s.clock ≤ now then some (s.wrote now .nothing (some (s.store.evictL2 options now)))
    else none
  | .deleteNode node now =>
    if s.clock ≤ now then
      some (s.wrote now (.deleted node.rid (s.store.liveRids now))
        (some (s.store.deleteNode node)))
    else none

end MemoryRun

def memory : Machine (MemoryRun ρ) (MemoryMove ρ) where
  start s := ∃ clock, s = .begun clock
  next := MemoryRun.next M

def plainSetting : MemorySetting Unit where
  optsProject := none
  ephemeralTtlMs := none
  digest := id
  stamped := fun _ _ => ()
  detectConflicts := fun _ _ => []
  detected := by rintro node peers conflict ⟨⟩
  scorePair := fun _ _ => none
  scored := by rintro left right candidate ⟨⟩
  defaultBatchId := fun _ _ => []
  reapsEdges := true

def conceptOf (label content : Text) : MemoryNode Unit where
  label := label
  nodeType := .concept
  properties :=
    { title := label
      content := some content
      value := none
      scope := none
      scopeId := none
      project := none
      tier := none
      layer := none
      createdAt := none
      expiresAt := none
      hash := none
      sessionId := none
      workingKind := none
      sequence := none
      others := () }

end Redskilled.Memory
