import Redskilled.Memory.MemoryRuns

/-!
# The head of a chain

Where no call makes a node the successor of one that it leads to, no node leads back to
itself: the successors of a live node end at a live one. Where a conflict is resolved that
was resolved that way before, its answer has to stand already, for its edge is not written
again.
-/
namespace Redskilled.Memory
open Foundation List Option

variable {ρ : Type} {M : MemorySetting ρ}

namespace GraphStore

/-- A successor by an edge or by the map. -/
def Follows (s : GraphStore ρ) (a b : ℕ) : Prop :=
  (∃ edge ∈ s.listEdges, isHiddenByEdgeLabel edge.label = true ∧ edge.fromRid = a ∧
    edge.toRid = b) ∨ s.superseded a = some b

structure Numbered (s : GraphStore ρ) : Prop where
  nodes : ∀ node ∈ s.nodes, node.rid < s.nextRid
  edges : ∀ edge ∈ s.edges, edge.rid < s.nextRid
  ends : ∀ a b, s.Follows a b → a < s.nextRid ∧ b < s.nextRid

variable {s : GraphStore ρ} {edge : MemoryEdge} {key : EdgeKey} {a b oldRid newRid : ℕ}

lemma follows_of_edgeSuccessor (h : s.edgeSuccessor a = some b) : s.Follows a b := by
  obtain ⟨found, hfound, rfl⟩ := map_eq_some_iff.mp h
  have hin := mem_reverse.mp (mem_of_find?_eq_some hfound)
  have hprop := find?_some hfound
  rw [Bool.and_eq_true, decide_eq_true_eq] at hprop
  exact .inl ⟨found, hin, hprop.1, hprop.2, rfl⟩

lemma follows_of_successors {now : ℤ} (h : s.successors now a = some b) : s.Follows a b := by
  unfold successors supersededByMany at h
  split_ifs at h
  rcases or_eq_some_iff.mp h with h | ⟨-, h⟩
  · exact follows_of_edgeSuccessor h
  · exact .inr h

lemma mem_listEdges_insertEdge (hlt : ∀ e ∈ s.edges, e.rid < s.nextRid) {e : StoredEdge}
    (h : e ∈ (s.insertEdge edge).listEdges) :
    e ∈ s.listEdges ∨ e.toMemoryEdge.key = edge.key := by
  obtain ⟨hin, hrem⟩ := mem_filter.mp h
  by_cases hkey : e.toMemoryEdge.key = edge.key
  · exact .inr hkey
  · left
    rcases mem_append.mp hin with hin | hin
    · apply mem_filter.mpr
      refine ⟨hin, ?_⟩
      have hrid : e.rid ≠ s.nextRid := Nat.ne_of_lt (hlt e hin)
      simpa [isRemovedEdge, insertEdge, hrid, hkey] using hrem
    · rw [mem_singleton.mp hin] at hkey
      exact absurd rfl hkey

lemma follows_insertEdge (hlt : ∀ e ∈ s.edges, e.rid < s.nextRid)
    (h : (s.insertEdge edge).Follows a b) : s.Follows a b ∨
      (isHiddenByEdgeLabel edge.label = true ∧ a = edge.fromRid ∧ b = edge.toRid) := by
  rcases h with ⟨e, he, hhidd, rfl, rfl⟩ | h
  · rcases mem_listEdges_insertEdge hlt he with hold | hkey
    · exact .inl (.inl ⟨e, hold, hhidd, rfl, rfl⟩)
    · obtain ⟨hfrom, hrest⟩ := Prod.mk.inj hkey
      obtain ⟨hto, hlab⟩ := Prod.mk.inj hrest
      rw [hlab] at hhidd
      exact .inr ⟨hhidd, hfrom, hto⟩
  · exact .inl (.inr h)

lemma follows_upsertEdge (hlt : ∀ e ∈ s.edges, e.rid < s.nextRid)
    (h : (s.upsertEdge edge).Follows a b) : s.Follows a b ∨
      (isHiddenByEdgeLabel edge.label = true ∧ a = edge.fromRid ∧ b = edge.toRid) := by
  unfold upsertEdge at h
  split at h
  · exact .inl h
  · exact follows_insertEdge hlt h

lemma follows_supersede (hlt : ∀ e ∈ s.edges, e.rid < s.nextRid) {reason : Option Text}
    (h : (s.supersede oldRid newRid reason).Follows a b) :
    withEdge s.Follows oldRid newRid a b := by
  have hins : (s.upsertEdge ⟨.supersededBy, oldRid, newRid, reason, none⟩).Follows a b ∨
      (a = oldRid ∧ b = newRid) := by
    rcases h with h | h
    · exact .inl (.inl h)
    · change (if a = oldRid then some newRid else _) = some b at h
      split_ifs at h with hold
      · exact .inr ⟨hold, (some.inj h).symm⟩
      · exact .inl (.inr h)
  rcases hins with h | h
  · exact (follows_upsertEdge hlt h).imp_right fun h => h.2
  · exact .inr h

lemma follows_removeEdge (h : (s.removeEdge M key).Follows a b) : s.Follows a b := by
  unfold removeEdge at h
  split at h
  · exact h
  · rcases h with ⟨e, he, hends⟩ | h
    · left
      refine ⟨e, ?_, hends⟩
      obtain ⟨hin, hrem⟩ := mem_filter.mp he
      have hedg : e ∈ s.edges := by
        dsimp only at hin
        split_ifs at hin
        · exact (mem_filter.mp hin).1
        · exact hin
      apply mem_filter.mpr
      refine ⟨hedg, ?_⟩
      simp only [isRemovedEdge, mem_cons, Bool.not_eq_true', Bool.or_eq_false_iff,
        decide_eq_false_iff_not, not_or] at hrem ⊢
      exact ⟨hrem.1.2, hrem.2.2⟩
    · right
      dsimp only at h
      split_ifs at h
      exact h

lemma edges_upsertEdge (hlt : ∀ e ∈ s.edges, e.rid < s.nextRid) :
    ∀ e ∈ (s.upsertEdge edge).edges, e.rid < (s.upsertEdge edge).nextRid := by
  unfold upsertEdge
  split
  · exact hlt
  · intro e he
    change e.rid < s.nextRid + 1
    rcases mem_append.mp he with he | he
    · exact Nat.lt_succ_of_lt (hlt e he)
    · rw [mem_singleton.mp he]
      exact Nat.lt_succ_self _

lemma Numbered.upsertEdge (h : s.Numbered) (hends : isHiddenByEdgeLabel edge.label = true →
      edge.fromRid < s.nextRid ∧ edge.toRid < s.nextRid) : (s.upsertEdge edge).Numbered := by
  obtain ⟨hnod, hle, -⟩ := upsertEdge_frame s edge
  refine ⟨?_, edges_upsertEdge h.edges, ?_⟩
  · intro node hnode
    rw [hnod] at hnode
    exact (h.nodes node hnode).trans_le hle
  · intro a b hab
    rcases follows_upsertEdge h.edges hab with hold | ⟨hhidd, rfl, rfl⟩
    · exact ⟨(h.ends a b hold).1.trans_le hle, (h.ends a b hold).2.trans_le hle⟩
    · exact ⟨(hends hhidd).1.trans_le hle, (hends hhidd).2.trans_le hle⟩

lemma Numbered.supersede (h : s.Numbered) (hold : oldRid < s.nextRid) (hnew : newRid < s.nextRid)
    (reason : Option Text) : (s.supersede oldRid newRid reason).Numbered := by
  obtain ⟨hnod, hle, -⟩ := supersede_frame s oldRid newRid reason
  refine ⟨?_, ?_, ?_⟩
  · intro node hnode
    rw [hnod] at hnode
    exact (h.nodes node hnode).trans_le hle
  · exact edges_upsertEdge h.edges
  · intro a b hab
    rcases follows_supersede h.edges hab with hab | ⟨rfl, rfl⟩
    · exact ⟨(h.ends a b hab).1.trans_le hle, (h.ends a b hab).2.trans_le hle⟩
    · exact ⟨hold.trans_le hle, hnew.trans_le hle⟩

lemma acyclic_supersede (h : s.Numbered) (hacyclic : Acyclic s.Follows)
    (hback : ¬ Relation.ReflTransGen s.Follows newRid oldRid) (reason : Option Text) :
    Acyclic (s.supersede oldRid newRid reason).Follows :=
  (hacyclic.withEdge hback).mono fun _ _ => follows_supersede h.edges

/-- While the conflicts of a new node are recorded, nothing follows it. -/
structure Fresh (s : GraphStore ρ) (rid : ℕ) : Prop where
  numbered : s.Numbered
  acyclic : Acyclic s.Follows
  stored : rid < s.nextRid
  last : ∀ b, ¬ s.Follows rid b

lemma Fresh.recordConflict {rid : ℕ} (h : s.Fresh rid) {conflict : DetectedConflict}
    (hrid : conflict.rid < s.nextRid) (hne : conflict.rid ≠ rid) :
    (s.recordConflict rid conflict).Fresh rid ∧
      s.nextRid ≤ (s.recordConflict rid conflict).nextRid := by
  let edge : MemoryEdge := ⟨.contradicts, rid, conflict.rid, some conflict.reason, none⟩
  have hnumb : (s.upsertEdge edge).Numbered := h.numbered.upsertEdge fun hno => by cases hno
  have hsame : ∀ a b, (s.upsertEdge edge).Follows a b → s.Follows a b := by
    intro a b hab
    rcases follows_upsertEdge h.numbered.edges hab with hold | ⟨hno, -⟩
    · exact hold
    · cases hno
  have hle : s.nextRid ≤ (s.upsertEdge edge).nextRid := (upsertEdge_frame s edge).2.1
  have hlat := (supersede_frame (s.upsertEdge edge) conflict.rid rid (some conflict.reason)).2.1
  refine ⟨⟨?_, ?_, ?_, ?_⟩, hle.trans hlat⟩
  · exact hnumb.supersede (hrid.trans_le hle) (h.stored.trans_le hle) _
  · apply acyclic_supersede hnumb (h.acyclic.mono hsame)
    intro hback
    rcases hback.cases_head with heq | ⟨b, hb, -⟩
    · exact hne heq.symm
    · exact h.last b (hsame _ _ hb)
  · exact h.stored.trans_le (hle.trans hlat)
  · intro b hb
    rcases follows_supersede hnumb.edges hb with hold | ⟨heq, -⟩
    · exact h.last b (hsame _ _ hold)
    · exact hne heq.symm

lemma Fresh.recordConflicts {rid : ℕ} {conflicts : List DetectedConflict} (h : s.Fresh rid)
    (hall : ∀ conflict ∈ conflicts, conflict.rid < s.nextRid ∧ conflict.rid ≠ rid) :
    (conflicts.foldl (·.recordConflict rid ·) s).Fresh rid := by
  induction conflicts generalizing s with
  | nil => exact h
  | cons conflict conflicts ih =>
    obtain ⟨hrid, hne⟩ := hall conflict mem_cons_self
    obtain ⟨hfresh, hle⟩ := h.recordConflict hrid hne
    apply ih hfresh
    intro other hoth
    obtain ⟨hlt, hoth⟩ := hall other (mem_cons_of_mem _ hoth)
    exact ⟨hlt.trans_le hle, hoth⟩

lemma Fresh.detectAndRecordConflicts {node : StoredNode ρ} (h : s.Fresh node.rid) (now : ℤ) :
    (s.detectAndRecordConflicts M node now).Fresh node.rid := by
  unfold GraphStore.detectAndRecordConflicts
  split_ifs
  · exact h
  · apply h.recordConflicts
    intro conflict hconfl
    obtain ⟨peer, hpeer, hrid⟩ := mem_map.mp (M.detected _ _ conflict hconfl)
    obtain ⟨hlive, hprop⟩ := mem_filter.mp hpeer
    have hprop := of_decide_eq_true hprop
    rw [← hrid]
    exact ⟨h.numbered.nodes peer (mem_filter.mp hlive).1, hprop.1⟩

lemma upsertNode_sound (hs : s.Numbered) (hacyclic : Acyclic s.Follows) (node : MemoryNode ρ)
    (now later : ℤ) : (s.upsertNode M node now later).2.Numbered ∧
      Acyclic (s.upsertNode M node now later).2.Follows := by
  unfold upsertNode
  split
  · exact ⟨hs, hacyclic⟩
  · have hfresh : (s.insertNode M node now).Fresh s.nextRid := by
      have hfoll : ∀ a b, (s.insertNode M node now).Follows a b → s.Follows a b := fun a b h => h
      refine ⟨⟨?_, ?_, ?_⟩, hacyclic.mono hfoll, Nat.lt_succ_self _, ?_⟩
      · intro row hrow
        change row.rid < s.nextRid + 1
        rcases mem_append.mp hrow with hrow | hrow
        · exact Nat.lt_succ_of_lt (hs.nodes row hrow)
        · rw [mem_singleton.mp hrow]
          exact Nat.lt_succ_self _
      · exact fun e he => Nat.lt_succ_of_lt (hs.edges e he)
      · intro a b hab
        have hends := hs.ends a b (hfoll a b hab)
        exact ⟨Nat.lt_succ_of_lt hends.1, Nat.lt_succ_of_lt hends.2⟩
      · intro b hb
        exact absurd (hs.ends _ b (hfoll _ b hb)).1 (Nat.lt_irrefl _)
    have hrec := @Fresh.detectAndRecordConflicts ρ M (s.insertNode M node now)
      { node with properties := node.written M now, rid := s.nextRid } hfresh later
    exact ⟨hrec.numbered, hrec.acyclic⟩

/-- One edge after the other, to a place that does not lead back. -/
def AddsNoCycle (edge : ℕ → ℕ → Prop) : List (ℕ × ℕ) → Prop
  | [] => True
  | (a, b) :: pairs =>
    ¬ Relation.ReflTransGen edge b a ∧ AddsNoCycle (withEdge edge a b) pairs

lemma withEdge_mono {edge edge' : ℕ → ℕ → Prop} (hle : ∀ x y, edge' x y → edge x y) (a b : ℕ) :
    ∀ x y, withEdge edge' a b x y → withEdge edge a b x y := fun x y h => h.imp_left (hle x y)

lemma AddsNoCycle.mono {edge edge' : ℕ → ℕ → Prop} {pairs : List (ℕ × ℕ)}
    (hle : ∀ x y, edge' x y → edge x y) (h : AddsNoCycle edge pairs) : AddsNoCycle edge' pairs := by
  induction pairs generalizing edge edge' with
  | nil => trivial
  | cons pair pairs ih =>
    refine ⟨fun hback => h.1 (Relation.ReflTransGen.mono hle _ _ hback), ?_⟩
    exact ih (withEdge_mono hle pair.1 pair.2) h.2

lemma mem_pairsOf {nodes : List (StoredNode ρ)} {pair : StoredNode ρ × StoredNode ρ}
    (h : pair ∈ pairsOf nodes) : pair.1 ∈ nodes ∧ pair.2 ∈ nodes := by
  induction nodes with
  | nil => cases h
  | cons node nodes ih =>
    rcases mem_append.mp h with h | h
    · obtain ⟨right, hright, rfl⟩ := mem_map.mp h
      exact ⟨mem_cons_self, mem_cons_of_mem _ hright⟩
    · exact ⟨mem_cons_of_mem _ (ih h).1, mem_cons_of_mem _ (ih h).2⟩

lemma mem_mergeCandidates {input : MemoryMergePassInput} {candidate : MemoryMergeCandidate}
    (h : candidate ∈ s.mergeCandidates M input) :
    (∃ node ∈ s.nodes, node.rid = candidate.duplicateRid) ∧
      ∃ node ∈ s.nodes, node.rid = candidate.canonicalRid := by
  have hsort := mem_of_mem_take h
  rw [mem_insertionSort] at hsort
  obtain ⟨pair, hpair, hscore⟩ := mem_filterMap.mp hsort
  obtain ⟨hleft, hright⟩ := mem_pairsOf hpair
  have hleft := (mem_filter.mp hleft).1
  have hright := (mem_filter.mp hright).1
  split_ifs at hscore
  obtain ⟨hfound, -⟩ := filter_eq_some_iff.mp hscore
  rcases M.scored _ _ _ hfound with ⟨hdupl, hcan⟩ | ⟨hdupl, hcan⟩
  · exact ⟨⟨pair.2, hright, hdupl.symm⟩, ⟨pair.1, hleft, hcan.symm⟩⟩
  · exact ⟨⟨pair.1, hleft, hdupl.symm⟩, ⟨pair.2, hright, hcan.symm⟩⟩

lemma mem_of_mapM {α β : Type} {f : α → Option β} {xs : List α} {ys : List β}
    (h : xs.mapM f = some ys) {y : β} (hy : y ∈ ys) : ∃ x, f x = some y := by
  induction xs generalizing ys with
  | nil =>
    cases h
    cases hy
  | cons x xs ih =>
    rw [mapM_cons] at h
    obtain ⟨first, hfirst, hrest⟩ := bind_eq_some_iff.mp h
    obtain ⟨rest, hmap, hdone⟩ := bind_eq_some_iff.mp hrest
    cases hdone
    rcases mem_cons.mp hy with rfl | hy
    · exact ⟨x, hfirst⟩
    · exact ih hmap hy

lemma mem_approved {input : MemoryMergeBatchExecuteInput}
    {candidates : List MemoryMergeCandidate} (h : s.approved M input = some candidates) :
    ∀ candidate ∈ candidates, candidate ∈ s.mergeCandidates M input.toMemoryMergePassInput := by
  obtain ⟨ranks, -, hranks⟩ := bind_eq_some_iff.mp h
  split_ifs at hranks
  intro candidate hcandidate
  obtain ⟨rank, hrank⟩ := mem_of_mapM hranks hcandidate
  exact mem_of_getElem? hrank

def pairOf (candidate : MemoryMergeCandidate) : ℕ × ℕ :=
  (candidate.duplicateRid, candidate.canonicalRid)

lemma merged_sound {input : MemoryMergeBatchExecuteInput} {instant : ℤ}
    {candidates : List MemoryMergeCandidate} (hs : s.Numbered) (hacyclic : Acyclic s.Follows)
    (hrids : ∀ candidate ∈ candidates,
      candidate.duplicateRid < s.nextRid ∧ candidate.canonicalRid < s.nextRid)
    (hadds : AddsNoCycle s.Follows (candidates.map pairOf)) :
    (candidates.foldl (fun t candidate => t.upsertEdge (mergeEdge M input instant candidate)) s).Numbered ∧
      Acyclic (candidates.foldl
        (fun t candidate => t.upsertEdge (mergeEdge M input instant candidate)) s).Follows := by
  induction candidates generalizing s with
  | nil => exact ⟨hs, hacyclic⟩
  | cons candidate candidates ih =>
    have hends := hrids candidate mem_cons_self
    have hfoll : ∀ a b, (s.upsertEdge (mergeEdge M input instant candidate)).Follows a b →
        withEdge s.Follows candidate.duplicateRid candidate.canonicalRid a b := by
      intro a b hab
      exact (follows_upsertEdge hs.edges hab).imp_right fun h => h.2
    have hle := (upsertEdge_frame s (mergeEdge M input instant candidate)).2.1
    apply ih (hs.upsertEdge fun _ => hends)
    · exact (hacyclic.withEdge hadds.1).mono hfoll
    · intro other hoth
      have hlt := hrids other (mem_cons_of_mem _ hoth)
      exact ⟨hlt.1.trans_le hle, hlt.2.trans_le hle⟩
    · exact hadds.2.mono hfoll

lemma removed_sound {edges : List StoredEdge} (hs : s.Numbered) (hacyclic : Acyclic s.Follows) :
    (edges.foldl (fun t edge => t.removeEdge M edge.toMemoryEdge.key) s).Numbered ∧
      Acyclic (edges.foldl (fun t edge => t.removeEdge M edge.toMemoryEdge.key) s).Follows := by
  induction edges generalizing s with
  | nil => exact ⟨hs, hacyclic⟩
  | cons edge edges ih =>
    obtain ⟨hnod, hnext, -, -, hedg⟩ := removeEdge_frame (M := M) s edge.toMemoryEdge.key
    apply ih
    · refine ⟨?_, ?_, ?_⟩
      · rw [hnod, hnext]
        exact hs.nodes
      · rw [hnext]
        exact fun e he => hs.edges e (hedg e he)
      · rw [hnext]
        exact fun a b hab => hs.ends a b (follows_removeEdge hab)
    · exact hacyclic.mono fun _ _ => follows_removeEdge

section
variable {activeRid supersededRid : ℕ} {reason : Option Text} {now : ℤ}

lemma find?_concat {α : Type} (p : α → Bool) (xs : List α) (x : α) (h : p x = true) :
    (xs ++ [x]).reverse.find? p = some x := by
  rw [reverse_append, reverse_singleton, singleton_append]
  exact find?_cons_of_pos h

lemma edgeSuccessor_insertEdge {edge : MemoryEdge} (hhidd : isHiddenByEdgeLabel edge.label = true) :
    (s.insertEdge edge).edgeSuccessor edge.fromRid = some edge.toRid := by
  let row : StoredEdge := { edge with rid := s.nextRid }
  have hrow : (s.insertEdge edge).isRemovedEdge row = false := by
    simp [isRemovedEdge, insertEdge, row]
  have hlist : (s.insertEdge edge).listEdges =
      (s.edges.filter fun e => !(s.insertEdge edge).isRemovedEdge e) ++ [row] := by
    change (s.edges ++ [row]).filter _ = _
    rw [filter_append, filter_cons_of_pos (by rw [hrow]; rfl), filter_nil]
  unfold edgeSuccessor
  rw [hlist, find?_concat]
  · rfl
  · rw [Bool.and_eq_true, decide_eq_true_eq]
    exact ⟨hhidd, rfl⟩

lemma liveRids_supersede : (s.supersede supersededRid activeRid reason).liveRids now =
    s.liveRids now := by
  obtain ⟨hnod, -, hevict, -⟩ := supersede_frame s supersededRid activeRid reason
  unfold liveRids listNodes
  rw [hnod, hevict]

lemma successors_supersede (hlive : supersededRid ∈ s.liveRids now)
    (hagain : (s.edgeRid (supersededRid, activeRid, .supersededBy)).isSome = true →
      s.successors now supersededRid = some activeRid) :
    (s.supersede supersededRid activeRid reason).successors now supersededRid = some activeRid := by
  unfold successors supersededByMany
  rw [liveRids_supersede, if_pos hlive]
  have hmap : (s.supersede supersededRid activeRid reason).superseded supersededRid =
      some activeRid := if_pos rfl
  have hedge : (s.supersede supersededRid activeRid reason).edgeSuccessor supersededRid =
      (s.upsertEdge ⟨.supersededBy, supersededRid, activeRid, reason, none⟩).edgeSuccessor
        supersededRid := rfl
  rw [hmap, hedge]
  cases hkey : s.edgeRid (supersededRid, activeRid, .supersededBy) with
  | none =>
    have hinsert : s.upsertEdge ⟨.supersededBy, supersededRid, activeRid, reason, none⟩ =
        s.insertEdge ⟨.supersededBy, supersededRid, activeRid, reason, none⟩ := by
      unfold upsertEdge
      rw [show MemoryEdge.key ⟨.supersededBy, supersededRid, activeRid, reason, none⟩ =
        (supersededRid, activeRid, .supersededBy) from rfl, hkey]
    rw [hinsert]
    exact or_eq_some_iff.mpr (.inl (edgeSuccessor_insertEdge rfl))
  | some rid =>
    have hsame : s.upsertEdge ⟨.supersededBy, supersededRid, activeRid, reason, none⟩ = s := by
      unfold upsertEdge
      rw [show MemoryEdge.key ⟨.supersededBy, supersededRid, activeRid, reason, none⟩ =
        (supersededRid, activeRid, .supersededBy) from rfl, hkey]
    rw [hsame]
    have hansw := hagain (by rw [hkey]; rfl)
    unfold successors supersededByMany at hansw
    rw [if_pos hlive] at hansw
    cases hfound : s.edgeSuccessor supersededRid with
    | none => rfl
    | some found =>
      rw [hfound] at hansw
      exact hansw

lemma contradictionEdges_spec {edges : List StoredEdge} {seen : List (ℕ × ℕ)} {e : StoredEdge}
    (he : e ∈ edges) (hlab : e.label = .contradicts) (hfrom : e.fromRid ∈ s.liveRids now)
    (hto : e.toRid ∈ s.liveRids now) (hseen : pairKey e.fromRid e.toRid ∉ seen) :
    ∃ found ∈ s.contradictionEdges now edges seen,
      pairKey found.fromRid found.toRid = pairKey e.fromRid e.toRid := by
  induction edges generalizing seen with
  | nil => cases he
  | cons edge edges ih =>
    rw [contradictionEdges]
    by_cases hsame : pairKey edge.fromRid edge.toRid = pairKey e.fromRid e.toRid
    · split_ifs with hrep
      · exact ⟨edge, mem_cons_self, hsame⟩
      · rcases mem_cons.mp he with rfl | he
        · exact absurd ⟨hlab, hfrom, hto, hseen⟩ hrep
        · exact ih he hseen
    · have hrest : e ∈ edges := by
        rcases mem_cons.mp he with rfl | he
        · exact absurd rfl hsame
        · exact he
      split_ifs
      · have hnew : pairKey e.fromRid e.toRid ∉ pairKey edge.fromRid edge.toRid :: seen := by
          intro hin
          rcases mem_cons.mp hin with heq | hin
          · exact hsame heq.symm
          · exact hseen hin
        obtain ⟨found, hfound, hkey⟩ := ih hrest hnew
        exact ⟨found, mem_cons_of_mem _ hfound, hkey⟩
      · exact ih hrest hseen

end

/-- No live node leads back to itself, and recall ends at a node without a successor. -/
def Heads (s : GraphStore ρ) (now : ℤ) : Prop :=
  (Acyclic fun a b => s.successors now a = some b) ∧
    ∀ index, (∀ rid ∈ index, rid ∈ s.liveRids now) → ∀ rid ∈ index,
      resolveSupersessionHead rid (s.successors now) index ∈ index ∧
        ∀ found, s.successors now (resolveSupersessionHead rid (s.successors now) index) =
          some found → found ∉ index

/-- The superseded node has the active one as its successor, and what is between the two is
reported, and as resolved. -/
def Answers (s : GraphStore ρ) (now : ℤ) (activeRid supersededRid : ℕ) : Prop :=
  s.successors now supersededRid = some activeRid ∧ (∀ summary ∈ s.listContradictions now true,
      pairKey summary.fromRid summary.toRid = pairKey supersededRid activeRid →
      summary.resolved = true) ∧
    ∀ edge ∈ s.listEdges, edge.label = .contradicts →
      pairKey edge.fromRid edge.toRid = pairKey supersededRid activeRid →
      ∃ summary ∈ s.listContradictions now true,
        pairKey summary.fromRid summary.toRid = pairKey supersededRid activeRid

lemma heads_of_acyclic (h : Acyclic s.Follows) (now : ℤ) : s.Heads now := by
  have hacyclic : Acyclic fun a b => s.successors now a = some b :=
    h.mono fun _ _ => follows_of_successors
  refine ⟨hacyclic, ?_⟩
  intro index _ rid hrid
  obtain ⟨hin, -, hend⟩ := headOf_spec hacyclic hrid
  exact ⟨hin, fun found hfound hplace => hend found ⟨hfound, hplace⟩⟩

lemma pairKey_cases {x y : ℕ} (h : pairKey x y = pairKey a b) :
    (x = a ∧ y = b) ∨ (x = b ∧ y = a) := by
  unfold pairKey at h
  split_ifs at h <;> obtain ⟨hx, hy⟩ := Prod.mk.inj h <;> omega

lemma answers_of_successor {now : ℤ} {activeRid supersededRid : ℕ}
    (hacyclic : Acyclic s.Follows) (hact : activeRid ∈ s.liveRids now)
    (hsup : supersededRid ∈ s.liveRids now)
    (hnext : s.successors now supersededRid = some activeRid) :
    s.Answers now activeRid supersededRid := by
  have hsucc : Acyclic fun a b => s.successors now a = some b :=
    hacyclic.mono fun _ _ => follows_of_successors
  have hheads : s.activeHead now supersededRid = s.activeHead now activeRid :=
    headOf_next hsucc hact hsup hnext
  have hres : ∀ edge : StoredEdge,
      pairKey edge.fromRid edge.toRid = pairKey supersededRid activeRid →
      s.activeHead now edge.fromRid = s.activeHead now edge.toRid := by
    intro edge hkey
    rcases pairKey_cases hkey with ⟨hfrom, hto⟩ | ⟨hfrom, hto⟩
    · rw [hfrom, hto, hheads]
    · rw [hfrom, hto, hheads]
  refine ⟨hnext, ?_, ?_⟩
  · intro summary hsumm hkey
    obtain ⟨edge, -, rfl⟩ := mem_map.mp (mem_filter.mp hsumm).1
    exact decide_eq_true (hres edge hkey)
  · intro edge hedge hlab hkey
    have hends : edge.fromRid ∈ s.liveRids now ∧ edge.toRid ∈ s.liveRids now := by
      rcases pairKey_cases hkey with ⟨hfrom, hto⟩ | ⟨hfrom, hto⟩
      · rw [hfrom, hto]
        exact ⟨hsup, hact⟩
      · rw [hfrom, hto]
        exact ⟨hact, hsup⟩
    have hnew : pairKey edge.fromRid edge.toRid ∉ ([] : List (ℕ × ℕ)) := not_mem_nil
    obtain ⟨found, hfound, hsame⟩ := contradictionEdges_spec hedge hlab hends.1 hends.2 hnew
    refine ⟨s.summarize now found, ?_, hsame.trans hkey⟩
    apply mem_filter.mpr
    exact ⟨mem_map_of_mem hfound, Bool.or_true _⟩

end GraphStore

namespace MemoryRun

/-- No call makes a node the successor of one that it leads to, and what is resolved again
is answered already. -/
def NoWayBack (s : MemoryRun ρ) : MemoryMove ρ → Prop
  | .resolveConflict activeRid supersededRid _ now =>
    activeRid ∈ s.store.liveRids now → supersededRid ∈ s.store.liveRids now →
    activeRid ≠ supersededRid →
    ¬ Relation.ReflTransGen s.store.Follows activeRid supersededRid ∧
      ((s.store.edgeRid (supersededRid, activeRid, .supersededBy)).isSome = true →
        s.store.successors now supersededRid = some activeRid)
  | .executeMemoryMergeBatch input _ =>
    ∀ candidates, s.store.approved M input = some candidates →
      GraphStore.AddsNoCycle s.store.Follows (candidates.map GraphStore.pairOf)
  | _ => True

/-- What the runs keep. -/
structure Sound (s : MemoryRun ρ) : Prop where
  numbered : s.store.Numbered
  acyclic : Acyclic s.store.Follows
  answered : ∀ activeRid supersededRid, s.last = .resolved activeRid supersededRid →
    s.store.Answers s.clock activeRid supersededRid

variable {s t : MemoryRun ρ}

lemma sound_begun (clock : ℤ) : (begun clock : MemoryRun ρ).Sound := by
  have hnone : ∀ a b, ¬ (emptyStore ρ).Follows a b := by
    rintro a b (⟨edge, hedge, -⟩ | h)
    · cases hedge
    · cases h
  refine ⟨⟨?_, ?_, ?_⟩, ?_, ?_⟩
  · rintro node ⟨⟩
  · rintro edge ⟨⟩
  · exact fun a b h => absurd h (hnone a b)
  · intro a ha
    cases ha with
    | single h => exact hnone _ _ h
    | tail _ h => exact hnone _ _ h
  · rintro activeRid supersededRid ⟨⟩

lemma Sound.wrote (h : s.Sound) (now : ℤ) {store : Option (GraphStore ρ)}
    (hstore : ∀ found, store = some found → found.Numbered ∧ Acyclic found.Follows) {last : LastCall ρ}
    (hlast : ∀ found, store = some found → ∀ activeRid supersededRid,
      last = .resolved activeRid supersededRid → found.Answers now activeRid supersededRid) :
    (s.wrote now last store).Sound := by
  cases store with
  | none =>
    refine ⟨h.numbered, h.acyclic, ?_⟩
    rintro activeRid supersededRid ⟨⟩
  | some found =>
    obtain ⟨hnumb, hacyclic⟩ := hstore found rfl
    exact ⟨hnumb, hacyclic, hlast found rfl⟩

lemma resolveConflict_cases {activeRid supersededRid : ℕ} {reason : Option Text} {now : ℤ}
    {store found : GraphStore ρ}
    (h : store.resolveConflict activeRid supersededRid reason now = some found) :
    activeRid ∈ store.liveRids now ∧ supersededRid ∈ store.liveRids now ∧
      activeRid ≠ supersededRid ∧ found = store.supersede supersededRid activeRid reason := by
  unfold GraphStore.resolveConflict at h
  split_ifs at h with hlive
  exact ⟨hlive.1, hlive.2.1, hlive.2.2, (some.inj h).symm⟩

lemma Sound.step (h : s.Sound) {move : MemoryMove ρ} (hmove : NoWayBack (M := M) s move)
    (hnext : s.next M move = some t) : t.Sound := by
  have hlt : ∀ rid now, rid ∈ s.store.liveRids now → rid < s.store.nextRid := by
    intro rid now hrid
    obtain ⟨node, hnode, rfl⟩ := List.mem_map.mp hrid
    exact h.numbered.nodes node (List.mem_filter.mp hnode).1
  have hoth : ∀ found : GraphStore ρ, ∀ activeRid supersededRid,
      (LastCall.nothing : LastCall ρ) = .resolved activeRid supersededRid →
      found.Answers s.clock activeRid supersededRid := by
    rintro found activeRid supersededRid ⟨⟩
  cases move with
  | upsertNode node now later =>
    obtain ⟨-, rfl⟩ := Option.ite_some_none_eq_some.mp hnext
    obtain ⟨hnumb, hacyclic⟩ :=
      GraphStore.upsertNode_sound (M := M) h.numbered h.acyclic node now later
    refine ⟨hnumb, hacyclic, ?_⟩
    rintro activeRid supersededRid ⟨⟩
  | resolveConflict activeRid supersededRid reason now =>
    obtain ⟨-, rfl⟩ := Option.ite_some_none_eq_some.mp hnext
    apply h.wrote
    · intro found hfound
      obtain ⟨hact, hsup, hne, rfl⟩ := resolveConflict_cases hfound
      obtain ⟨hback, -⟩ := hmove hact hsup hne
      exact ⟨h.numbered.supersede (hlt _ _ hsup) (hlt _ _ hact) reason,
        GraphStore.acyclic_supersede h.numbered h.acyclic hback reason⟩
    · intro found hfound a b hlast
      obtain ⟨hact, hsup, hne, rfl⟩ := resolveConflict_cases hfound
      obtain ⟨hback, hagain⟩ := hmove hact hsup hne
      obtain ⟨rfl, rfl⟩ := LastCall.resolved.inj hlast
      have hacyclic := GraphStore.acyclic_supersede h.numbered h.acyclic hback reason
      apply GraphStore.answers_of_successor hacyclic
      · rwa [GraphStore.liveRids_supersede]
      · rwa [GraphStore.liveRids_supersede]
      · exact GraphStore.successors_supersede hsup hagain
  | executeMemoryMergeBatch input now =>
    obtain ⟨-, rfl⟩ := Option.ite_some_none_eq_some.mp hnext
    apply h.wrote
    · intro found hfound
      obtain ⟨candidates, happr, rfl⟩ := Option.map_eq_some_iff.mp hfound
      apply GraphStore.merged_sound h.numbered h.acyclic _ (hmove candidates happr)
      intro candidate hcandidate
      obtain ⟨⟨duplicate, hdupl, hd⟩, canonical, hcan, hc⟩ :=
        GraphStore.mem_mergeCandidates (GraphStore.mem_approved happr candidate hcandidate)
      rw [← hd, ← hc]
      exact ⟨h.numbered.nodes _ hdupl, h.numbered.nodes _ hcan⟩
    · rintro found - activeRid supersededRid ⟨⟩
  | unmergeMemoryMergeBatch batchId now =>
    obtain ⟨-, rfl⟩ := Option.ite_some_none_eq_some.mp hnext
    apply h.wrote
    · intro found hfound
      unfold GraphStore.unmergeMemoryMergeBatch at hfound
      dsimp only at hfound
      split_ifs at hfound
      rw [← Option.some.inj hfound]
      exact GraphStore.removed_sound h.numbered h.acyclic
    · rintro found - activeRid supersededRid ⟨⟩
  | evictL2 options now =>
    obtain ⟨-, rfl⟩ := Option.ite_some_none_eq_some.mp hnext
    apply h.wrote
    · rintro found ⟨⟩
      exact ⟨⟨h.numbered.nodes, h.numbered.edges, h.numbered.ends⟩, h.acyclic⟩
    · rintro found - activeRid supersededRid ⟨⟩
  | deleteNode node now =>
    obtain ⟨-, rfl⟩ := Option.ite_some_none_eq_some.mp hnext
    have hfoll : ∀ a b, (s.store.deleteNode node).Follows a b → s.store.Follows a b := by
      rintro a b (hedge | hmap)
      · exact .inl hedge
      · right
        change (if a = node.rid then none else _) = some b at hmap
        split_ifs at hmap
        exact hmap
    apply h.wrote
    · rintro found ⟨⟩
      refine ⟨⟨?_, h.numbered.edges, ?_⟩, h.acyclic.mono hfoll⟩
      · exact fun row hrow => h.numbered.nodes row (List.mem_filter.mp hrow).1
      · exact fun a b hab => h.numbered.ends a b (hfoll a b hab)
    · rintro found - activeRid supersededRid ⟨⟩

def twoConcepts : List (MemoryMove Unit) :=
  [.upsertNode (conceptOf ['a'] ['x']) 0 0, .upsertNode (conceptOf ['b'] ['y']) 0 0]

end MemoryRun
end Redskilled.Memory
