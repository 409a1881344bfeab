import Mathlib.Data.List.Nodup
import Redskilled.Foundation.JsText

/-!
# The graph store of a memory

Nodes and edges are rows that the engine numbers and lists in the order in which they were
inserted. A row is deleted by its label and type alone, so what a row is known by lives
beside the rows, under keys: the number of a content hash, the number of an edge, the nodes
that were superseded, evicted or whose edges were removed.

What is found to contradict and how alike two nodes are is left open: any detector that
names nodes it was given and any score of a pair will do. So are the digest of the hash and
the properties that nothing here reads.
-/
namespace Redskilled.Memory
open Foundation

inductive NodeType where
  | file | «import» | symbol | concept | decision | problem | solution | fix | workflow | person
  | whyNote | session | task | goal | answer | worker | issue | prd | validation | transcript
  deriving DecidableEq

def NodeType.name : NodeType → Text
  | .file => "file".toList
  | .«import» => "import".toList
  | .symbol => "symbol".toList
  | .concept => "concept".toList
  | .decision => "decision".toList
  | .problem => "problem".toList
  | .solution => "solution".toList
  | .fix => "fix".toList
  | .workflow => "workflow".toList
  | .person => "person".toList
  | .whyNote => "why_note".toList
  | .session => "session".toList
  | .task => "task".toList
  | .goal => "goal".toList
  | .answer => "answer".toList
  | .worker => "worker".toList
  | .issue => "issue".toList
  | .prd => "prd".toList
  | .validation => "validation".toList
  | .transcript => "transcript".toList

inductive MemoryScope where
  | user | project | repo | branch | worktree | session | agentRun
  deriving DecidableEq

def MemoryScope.name : MemoryScope → Text
  | .user => "user".toList
  | .project => "project".toList
  | .repo => "repo".toList
  | .branch => "branch".toList
  | .worktree => "worktree".toList
  | .session => "session".toList
  | .agentRun => "agent-run".toList

inductive Tier where
  | ephemeral | durable | reasoning
  deriving DecidableEq

inductive MemoryLayer where
  | L1 | L2 | L3
  deriving DecidableEq

/-- The labels that are written here, and the others. -/
inductive EdgeLabel where
  | supersededBy | sameAs | mergedInto | contradicts
  | other (name : Text)
  deriving DecidableEq

def isHiddenByEdgeLabel : EdgeLabel → Bool
  | .supersededBy => true
  | .sameAs => true
  | .mergedInto => true
  | _ => false

/-- The properties of a node. What nothing here reads is in `others`. -/
structure MemoryNodeProps (ρ : Type) where
  title : Text
  content : Option Text
  value : Option Text
  scope : Option MemoryScope
  scopeId : Option Text
  project : Option Text
  tier : Option Tier
  layer : Option MemoryLayer
  createdAt : Option ℤ
  expiresAt : Option ℤ
  hash : Option Text
  sessionId : Option Text
  workingKind : Option Text
  sequence : Option ℤ
  others : ρ

structure MemoryNode (ρ : Type) where
  label : Text
  nodeType : NodeType
  properties : MemoryNodeProps ρ

structure StoredNode (ρ : Type) extends MemoryNode ρ where
  rid : ℕ

structure MemoryEdge where
  label : EdgeLabel
  fromRid : ℕ
  toRid : ℕ
  reason : Option Text
  mergePassBatchId : Option Text

structure StoredEdge extends MemoryEdge where
  rid : ℕ

structure DetectedConflict where
  rid : ℕ
  reason : Text

/-- A pair that a merge pass would merge. The score is any number. -/
structure MemoryMergeCandidate where
  duplicateRid : ℕ
  canonicalRid : ℕ
  score : ℤ

/-- What a store is opened with, and what is left open. -/
structure MemorySetting (ρ : Type) where
  optsProject : Option Text
  ephemeralTtlMs : Option ℤ
  /-- The digest of a text, cut to sixteen digits. -/
  digest : Text → Text
  /-- The other properties of a node that is written. -/
  stamped : MemoryNode ρ → ℤ → ρ
  detectConflicts : StoredNode ρ → List (StoredNode ρ) → List DetectedConflict
  detected : ∀ node peers, ∀ conflict ∈ detectConflicts node peers, conflict.rid ∈ peers.map (·.rid)
  scorePair : StoredNode ρ → StoredNode ρ → Option MemoryMergeCandidate
  scored : ∀ left right candidate, scorePair left right = some candidate →
    (candidate.duplicateRid = right.rid ∧ candidate.canonicalRid = left.rid) ∨
      (candidate.duplicateRid = left.rid ∧ candidate.canonicalRid = right.rid)
  /-- The name of a batch by its time and ranks. -/
  defaultBatchId : ℤ → List ℕ → Text
  /-- Whether the engine deletes an edge that is removed. -/
  reapsEdges : Bool

abbrev EdgeKey := ℕ × ℕ × EdgeLabel

def MemoryEdge.key (edge : MemoryEdge) : EdgeKey := (edge.fromRid, edge.toRid, edge.label)

structure GraphStore (ρ : Type) where
  nodes : List (StoredNode ρ)
  edges : List StoredEdge
  nextRid : ℕ
  nodeHash : Text → Option ℕ
  edgeRid : EdgeKey → Option ℕ
  removedRids : List ℕ
  removedKeys : List EdgeKey
  superseded : ℕ → Option ℕ
  evicted : List ℕ

def emptyStore (ρ : Type) : GraphStore ρ where
  nodes := []
  edges := []
  nextRid := 1
  nodeHash := fun _ => none
  edgeRid := fun _ => none
  removedRids := []
  removedKeys := []
  superseded := fun _ => none
  evicted := []

def defaultEphemeralTtlMs : ℤ := 86400000

def defaultTier : NodeType → Tier
  | .session => .ephemeral
  | .whyNote => .reasoning
  | .worker => .reasoning
  | _ => .durable

def defaultScopeId (scope : MemoryScope) (nodeProject storeProject : Option Text) : Option Text :=
  if scope ≠ .project then none else nodeProject.or storeProject

def conflictNodeTypes : List NodeType :=
  [.decision, .fix, .solution, .problem, .goal, .validation, .whyNote]

def isExpired {ρ : Type} (node : StoredNode ρ) (now : ℤ) : Bool :=
  node.properties.tier = some .ephemeral && node.properties.expiresAt.any (· ≤ now)

variable {ρ : Type} (M : MemorySetting ρ)

def contentHash (parts : List (Option Text)) : Text := M.digest (parts.flatMap (·.getD []))

namespace GraphStore
variable (s : GraphStore ρ)

def listNodes (now : ℤ) : List (StoredNode ρ) :=
  s.nodes.filter fun node => !isExpired node now && node.rid ∉ s.evicted

def isRemovedEdge (edge : StoredEdge) : Bool :=
  edge.rid ∈ s.removedRids || edge.toMemoryEdge.key ∈ s.removedKeys

def listEdges : List StoredEdge := s.edges.filter fun edge => !s.isRemovedEdge edge

def insertEdge (edge : MemoryEdge) : GraphStore ρ :=
  { s with
    edges := s.edges ++ [{ edge with rid := s.nextRid }]
    nextRid := s.nextRid + 1
    edgeRid := fun key => if key = edge.key then some s.nextRid else s.edgeRid key
    removedRids := s.removedRids.filter (· ≠ s.nextRid)
    removedKeys := s.removedKeys.filter (· ≠ edge.key) }

def upsertEdge (edge : MemoryEdge) : GraphStore ρ :=
  match s.edgeRid edge.key with
  | some _ => s
  | none => s.insertEdge edge

/-- A tombstone is laid on the number and the key of the edge. -/
def removeEdge (key : EdgeKey) : GraphStore ρ :=
  match s.edgeRid key with
  | none => s
  | some rid =>
    { s with
      edges := if M.reapsEdges then s.edges.filter (·.toMemoryEdge.key ≠ key) else s.edges
      edgeRid := fun other => if other = key then none else s.edgeRid other
      removedRids := rid :: s.removedRids
      removedKeys := key :: s.removedKeys
      superseded := fun node =>
        if isHiddenByEdgeLabel key.2.2 ∧ node = key.1 ∧ s.superseded key.1 = some key.2.1 then none
        else s.superseded node }

def supersede (oldRid newRid : ℕ) (reason : Option Text) : GraphStore ρ :=
  let t := s.upsertEdge ⟨.supersededBy, oldRid, newRid, reason, none⟩
  { t with superseded := fun node => if node = oldRid then some newRid else t.superseded node }

/-- The successor that the edges give a node: the last one listed. -/
def edgeSuccessor (rid : ℕ) : Option ℕ :=
  (s.listEdges.reverse.find? fun edge =>
    isHiddenByEdgeLabel edge.label && edge.fromRid = rid).map (·.toRid)

def supersededByMany (rids : List ℕ) (rid : ℕ) : Option ℕ :=
  if rid ∈ rids then (s.edgeSuccessor rid).or (s.superseded rid) else none

def recordConflict (rid : ℕ) (conflict : DetectedConflict) : GraphStore ρ :=
  (s.upsertEdge ⟨.contradicts, rid, conflict.rid, some conflict.reason, none⟩).supersede conflict.rid
    rid (some conflict.reason)

def detectAndRecordConflicts (node : StoredNode ρ) (now : ℤ) : GraphStore ρ :=
  if node.nodeType ∉ conflictNodeTypes ∨ node.properties.layer.getD .L3 ≠ .L3 then s
  else
    let peers := (s.listNodes now).filter fun peer =>
      peer.rid ≠ node.rid ∧ peer.nodeType = node.nodeType
    (M.detectConflicts node peers).foldl (·.recordConflict node.rid ·) s

end GraphStore

section
variable (node : MemoryNode ρ)

def MemoryNode.scope : MemoryScope := node.properties.scope.getD .project

def MemoryNode.scopeId : Option Text :=
  node.properties.scopeId.or (defaultScopeId node.scope node.properties.project M.optsProject)

/-- What the hash of a node is made from. -/
def MemoryNode.hashParts : List (Option Text) :=
  [some node.label, some node.nodeType.name, some node.properties.title, node.properties.content,
    some node.scope.name, node.scopeId M]

def MemoryNode.hash : Text := node.properties.hash.getD (contentHash M (node.hashParts M))

def MemoryNode.tier : Tier := node.properties.tier.getD (defaultTier node.nodeType)

/-- The horizon that the node carries once it is written. -/
def MemoryNode.expiry (now : ℤ) : Option ℤ :=
  if node.tier = .ephemeral then
    some (node.properties.expiresAt.getD
      (node.properties.createdAt.getD now + M.ephemeralTtlMs.getD defaultEphemeralTtlMs))
  else none

def MemoryNode.written (now : ℤ) : MemoryNodeProps ρ :=
  { node.properties with
    hash := some (node.hash M)
    project := some (node.properties.project.getD (M.optsProject.getD "default".toList))
    scope := some node.scope
    scopeId := if (node.scopeId M).any (· ≠ []) then node.scopeId M else node.properties.scopeId
    tier := some node.tier
    createdAt := some (node.properties.createdAt.getD now)
    expiresAt := (node.expiry M now).or node.properties.expiresAt
    others := M.stamped node now }

end

namespace GraphStore
variable (s : GraphStore ρ)

def insertNode (node : MemoryNode ρ) (now : ℤ) : GraphStore ρ :=
  { s with
    nodes := s.nodes ++ [{ node with properties := node.written M now, rid := s.nextRid }]
    nextRid := s.nextRid + 1
    nodeHash := fun hash => if hash = node.hash M then some s.nextRid else s.nodeHash hash }

/-- A node of known content is not stored again. The call begins at `now`, and looks for
conflicts at `later`. -/
def upsertNode (node : MemoryNode ρ) (now later : ℤ) : ℕ × GraphStore ρ :=
  match s.nodeHash (node.hash M) with
  | some existing => (existing, s)
  | none =>
    (s.nextRid, (s.insertNode M node now).detectAndRecordConflicts M
      { node with properties := node.written M now, rid := s.nextRid } later)

def deleteNode (node : StoredNode ρ) : GraphStore ρ :=
  { s with
    nodes := s.nodes.filter fun row => ¬ (row.label = node.label ∧ row.nodeType = node.nodeType)
    nodeHash := fun hash => if some hash = node.properties.hash then none else s.nodeHash hash
    superseded := fun rid => if rid = node.rid then none else s.superseded rid }

def recordEvicted (rids : List ℕ) : GraphStore ρ :=
  { s with evicted := s.evicted ++ rids.filter (· ∉ s.evicted) }

end GraphStore
end Redskilled.Memory
