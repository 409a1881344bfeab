import Mathlib.Data.List.Sort
import Redskilled.Foundation.Successors
import Redskilled.Memory.GraphStore

/-!
# Supersession

A conflict is resolved by superseding the one node by the other, a merge pass gives the
duplicate of an approved pair its canonical node as successor, and a batch is unmerged by
removing its edges. What is read follows the successors to a head.
-/
namespace Redskilled.Memory
open Foundation

variable {ρ : Type} (M : MemorySetting ρ)

namespace GraphStore
variable (s : GraphStore ρ)

def liveRids (now : ℤ) : List ℕ := (s.listNodes now).map (·.rid)

/-- The one successor of each live node. -/
def successors (now : ℤ) : ℕ → Option ℕ := s.supersededByMany (s.liveRids now)

/-- The head that recall shows for a node, among the nodes of its index. -/
def resolveSupersessionHead (rid : ℕ) (supersededMap : ℕ → Option ℕ) (index : List ℕ) : ℕ :=
  headOf supersededMap index rid

def activeHead (now : ℤ) (rid : ℕ) : ℕ := headOf (s.successors now) (s.liveRids now) rid

structure ContradictionSummary where
  fromRid : ℕ
  toRid : ℕ
  reason : Option Text
  resolved : Bool
  activeRid : Option ℕ

def pairKey (left right : ℕ) : ℕ × ℕ := if left < right then (left, right) else (right, left)

def contradictionEdges (now : ℤ) : List StoredEdge → List (ℕ × ℕ) → List StoredEdge
  | [], _ => []
  | edge :: edges, seen =>
    if edge.label = .contradicts ∧ edge.fromRid ∈ s.liveRids now ∧ edge.toRid ∈ s.liveRids now ∧
        pairKey edge.fromRid edge.toRid ∉ seen then
      edge :: contradictionEdges now edges (pairKey edge.fromRid edge.toRid :: seen)
    else contradictionEdges now edges seen

def summarize (now : ℤ) (edge : StoredEdge) : ContradictionSummary :=
  let fromHead := s.activeHead now edge.fromRid
  let resolved : Bool := fromHead = s.activeHead now edge.toRid
  { fromRid := edge.fromRid
    toRid := edge.toRid
    reason := edge.reason.filter (· ≠ [])
    resolved := resolved
    activeRid := if resolved then some fromHead else none }

def listContradictions (now : ℤ) (includeResolved : Bool) : List ContradictionSummary :=
  ((s.contradictionEdges now s.listEdges []).map (s.summarize now)).filter fun summary =>
    !summary.resolved || includeResolved

/-- Both nodes are to be live, and not one. -/
def resolveConflict (activeRid supersededRid : ℕ) (reason : Option Text) (now : ℤ) :
    Option (GraphStore ρ) :=
  if activeRid ∈ s.liveRids now ∧ supersededRid ∈ s.liveRids now ∧ activeRid ≠ supersededRid then
    some (s.supersede supersededRid activeRid reason)
  else none

structure MemoryMergePassInput where
  minScore : ℤ
  limit : ℕ

def isOutOfScope (node : StoredNode ρ) : Bool :=
  node.properties.tier = some .ephemeral || node.nodeType = .session

/-- The pairs that are linked already. -/
def isHiddenPair (rids : List ℕ) (left right : ℕ) : Bool :=
  s.supersededByMany rids left = some right || s.supersededByMany rids right = some left ||
    s.listEdges.any fun edge => isHiddenByEdgeLabel edge.label &&
      pairKey edge.fromRid edge.toRid = pairKey left right

def pairsOf : List (StoredNode ρ) → List (StoredNode ρ × StoredNode ρ)
  | [] => []
  | node :: nodes => nodes.map (node, ·) ++ pairsOf nodes

def candidateLe (a b : MemoryMergeCandidate) : Prop :=
  b.score < a.score ∨ (b.score = a.score ∧ (a.duplicateRid < b.duplicateRid ∨
    (a.duplicateRid = b.duplicateRid ∧ a.canonicalRid ≤ b.canonicalRid)))

instance : DecidableRel candidateLe := fun _ _ =>
  inferInstanceAs (Decidable (_ < _ ∨ (_ = _ ∧ (_ < _ ∨ (_ = _ ∧ _ ≤ _)))))

def mergeCandidates (input : MemoryMergePassInput) : List MemoryMergeCandidate :=
  let nodes := s.listNodes 0
  let found := (pairsOf nodes).filterMap fun pair =>
    if isOutOfScope pair.1 || isOutOfScope pair.2 ||
        s.isHiddenPair (nodes.map (·.rid)) pair.1.rid pair.2.rid then none
    else (M.scorePair pair.1 pair.2).filter fun candidate => input.minScore ≤ candidate.score
  (found.insertionSort candidateLe).take input.limit

structure MemoryMergeBatchExecuteInput extends MemoryMergePassInput where
  approver : Text
  candidateRanks : List ℤ
  batchId : Option Text
  reason : Option Text
  now : Option ℤ

/-- The ranks that are asked for, none where one is no rank. -/
def requestedRanks (ranks : List ℤ) : Option (List ℕ) :=
  if ranks.all (1 ≤ ·) then some (ranks.map Int.toNat).eraseDups else none

/-- The candidates that were approved, in the order of the ranks. -/
def approved (input : MemoryMergeBatchExecuteInput) : Option (List MemoryMergeCandidate) :=
  (requestedRanks input.candidateRanks).bind fun ranks =>
    if Text.trim input.approver = [] ∨ ranks = [] then none
    else ranks.mapM fun rank => (s.mergeCandidates M input.toMemoryMergePassInput)[rank - 1]?

def batchIdOf (input : MemoryMergeBatchExecuteInput) (instant : ℤ) : Text :=
  let given := Text.trim (input.batchId.getD [])
  if given ≠ [] then given
  else
    M.defaultBatchId (input.now.getD instant) ((requestedRanks input.candidateRanks).getD [])

def mergeEdge (input : MemoryMergeBatchExecuteInput) (instant : ℤ)
    (candidate : MemoryMergeCandidate) : MemoryEdge where
  label := .sameAs
  fromRid := candidate.duplicateRid
  toRid := candidate.canonicalRid
  reason := some (input.reason.getD "approved memory merge pass".toList)
  mergePassBatchId := some (batchIdOf M input instant)

def executeMemoryMergeBatch (input : MemoryMergeBatchExecuteInput) (instant : ℤ) :
    Option (GraphStore ρ) :=
  (s.approved M input).map fun candidates =>
    candidates.foldl (fun t candidate => t.upsertEdge (mergeEdge M input instant candidate)) s

def isMergeEdgeLabel (label : EdgeLabel) : Bool := label = .sameAs || label = .mergedInto

def unmergeMemoryMergeBatch (batchId : Text) : Option (GraphStore ρ) :=
  let normalized := Text.trim batchId
  if normalized = [] then none
  else
    some <| (s.listEdges.filter fun edge =>
      edge.mergePassBatchId = some normalized && isMergeEdgeLabel edge.label).foldl
        (fun t edge => t.removeEdge M edge.toMemoryEdge.key) s

section
variable {M}

lemma upsertEdge_frame (s : GraphStore ρ) (edge : MemoryEdge) :
    (s.upsertEdge edge).nodes = s.nodes ∧ s.nextRid ≤ (s.upsertEdge edge).nextRid ∧
      (s.upsertEdge edge).superseded = s.superseded ∧
      (s.upsertEdge edge).evicted = s.evicted ∧ (s.upsertEdge edge).nodeHash = s.nodeHash := by
  unfold upsertEdge
  split
  · exact ⟨rfl, le_rfl, rfl, rfl, rfl⟩
  · exact ⟨rfl, Nat.le_succ _, rfl, rfl, rfl⟩

lemma supersede_frame (s : GraphStore ρ) (oldRid newRid : ℕ) (reason : Option Text) :
    (s.supersede oldRid newRid reason).nodes = s.nodes ∧
      s.nextRid ≤ (s.supersede oldRid newRid reason).nextRid ∧
      (s.supersede oldRid newRid reason).evicted = s.evicted ∧
      (s.supersede oldRid newRid reason).nodeHash = s.nodeHash := by
  obtain ⟨hnod, hle, -, hevict, hhash⟩ :=
    upsertEdge_frame s ⟨.supersededBy, oldRid, newRid, reason, none⟩
  exact ⟨hnod, hle, hevict, hhash⟩

lemma recordConflict_frame (s : GraphStore ρ) (rid : ℕ) (conflict : DetectedConflict) :
    (s.recordConflict rid conflict).nodes = s.nodes ∧
      s.nextRid ≤ (s.recordConflict rid conflict).nextRid ∧
      (s.recordConflict rid conflict).evicted = s.evicted ∧
      (s.recordConflict rid conflict).nodeHash = s.nodeHash := by
  obtain ⟨hnod, hle, -, hevict, hhash⟩ :=
    upsertEdge_frame s ⟨.contradicts, rid, conflict.rid, some conflict.reason, none⟩
  obtain ⟨hnod', hle', hevict', hhash'⟩ :=
    supersede_frame (s.upsertEdge ⟨.contradicts, rid, conflict.rid, some conflict.reason, none⟩)
      conflict.rid rid (some conflict.reason)
  exact ⟨hnod'.trans hnod, hle.trans hle', hevict'.trans hevict, hhash'.trans hhash⟩

lemma removeEdge_frame (s : GraphStore ρ) (key : EdgeKey) :
    (s.removeEdge M key).nodes = s.nodes ∧ (s.removeEdge M key).nextRid = s.nextRid ∧
      (s.removeEdge M key).evicted = s.evicted ∧ (s.removeEdge M key).nodeHash = s.nodeHash ∧
      ∀ e ∈ (s.removeEdge M key).edges, e ∈ s.edges := by
  unfold removeEdge
  split
  · exact ⟨rfl, rfl, rfl, rfl, fun e he => he⟩
  · refine ⟨rfl, rfl, rfl, rfl, ?_⟩
    intro e he
    dsimp only at he
    split_ifs at he
    · exact (List.mem_filter.mp he).1
    · exact he

lemma foldl_frame {α : Type} {f : GraphStore ρ → α → GraphStore ρ} (xs : List α) (s : GraphStore ρ)
    (h : ∀ s x, (f s x).nodes = s.nodes ∧ s.nextRid ≤ (f s x).nextRid ∧
      (f s x).evicted = s.evicted ∧ (f s x).nodeHash = s.nodeHash) :
    (xs.foldl f s).nodes = s.nodes ∧ s.nextRid ≤ (xs.foldl f s).nextRid ∧
      (xs.foldl f s).evicted = s.evicted ∧ (xs.foldl f s).nodeHash = s.nodeHash := by
  induction xs generalizing s with
  | nil => exact ⟨rfl, le_rfl, rfl, rfl⟩
  | cons x xs ih =>
    obtain ⟨hnod, hle, hevict, hhash⟩ := h s x
    obtain ⟨hnod', hle', hevict', hhash'⟩ := ih (f s x)
    exact ⟨hnod'.trans hnod, hle.trans hle', hevict'.trans hevict, hhash'.trans hhash⟩

lemma detectAndRecordConflicts_frame (s : GraphStore ρ) (node : StoredNode ρ) (now : ℤ) :
    (s.detectAndRecordConflicts M node now).nodes = s.nodes ∧
      s.nextRid ≤ (s.detectAndRecordConflicts M node now).nextRid ∧
      (s.detectAndRecordConflicts M node now).evicted = s.evicted ∧
      (s.detectAndRecordConflicts M node now).nodeHash = s.nodeHash := by
  unfold detectAndRecordConflicts
  split_ifs
  · exact ⟨rfl, le_rfl, rfl, rfl⟩
  · exact foldl_frame _ s fun s conflict => recordConflict_frame s node.rid conflict

end
end GraphStore
end Redskilled.Memory
