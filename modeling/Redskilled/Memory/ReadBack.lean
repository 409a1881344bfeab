import Redskilled.Memory.MemoryRuns

/-!
# Reading a memory back

Whether a node exists is recorded by its row, by the key of its hash, by its horizon and by
the list of the evicted. A store that finds a key returns the number under it, whether that
node is listed or not and whatever it holds, and a delete takes every row of the label and
type.
-/
namespace Redskilled.Memory
open Foundation List Option

variable {ρ : Type} {M : MemorySetting ρ}

lemma filter_key_of_nodup {α β : Type} [DecidableEq β] (key : α → β) {xs : List α} {a : α}
    (hnodup : (xs.map key).Nodup) (ha : a ∈ xs) : xs.filter (key · = key a) = [a] := by
  induction xs with
  | nil => cases ha
  | cons x xs ih =>
    obtain ⟨hx, hnodup⟩ := nodup_cons.mp hnodup
    rcases mem_cons.mp ha with rfl | ha
    · rw [filter_cons_of_pos (by simp)]
      congr 1
      apply filter_eq_nil_iff.mpr
      intro b hb hkey
      rw [decide_eq_true_eq] at hkey
      exact hx (hkey ▸ mem_map_of_mem hb)
    · have hne : key x ≠ key a := fun heq => hx (heq ▸ mem_map_of_mem ha)
      rw [filter_cons_of_neg (by simpa using hne)]
      exact ih hnodup ha

lemma isExpired_mono {node : StoredNode ρ} {now later : ℤ} (hle : now ≤ later)
    (h : isExpired node now = true) : isExpired node later = true := by
  unfold isExpired at h ⊢
  rw [Bool.and_eq_true] at h ⊢
  obtain ⟨htier, hany⟩ := h
  obtain ⟨e, he, hpast⟩ := (any_eq_true _ _).mp hany
  refine ⟨htier, (any_eq_true _ _).mpr ⟨e, he, ?_⟩⟩
  rw [decide_eq_true_eq] at hpast ⊢
  omega

lemma written_lives (node : MemoryNode ρ) (rid : ℕ) {now later : ℤ}
    (h : ∀ e, node.expiry M now = some e → later < e) :
    isExpired { node with properties := node.written M now, rid := rid } later = false := by
  by_cases htier : node.tier = .ephemeral
  · obtain ⟨e, he⟩ : ∃ e, node.expiry M now = some e := by
      unfold MemoryNode.expiry
      rw [if_pos htier]
      exact ⟨_, rfl⟩
    have hlat := h e he
    have hat : (node.written M now).expiresAt = some e := by
      unfold MemoryNode.written
      rw [he]
      rfl
    unfold isExpired
    dsimp only
    rw [hat]
    simpa using fun _ => hlat
  · unfold isExpired
    have hwritt : (node.written M now).tier = some node.tier := rfl
    dsimp only
    rw [hwritt]
    simp [htier]

namespace GraphStore

/-- The rows, the keys of the hashes and the evicted agree. -/
structure Kept (s : GraphStore ρ) : Prop where
  nodup : (s.nodes.map (·.rid)).Nodup
  below : ∀ row ∈ s.nodes, row.rid < s.nextRid
  marked : ∀ hash rid, s.nodeHash hash = some rid → rid < s.nextRid
  evicted : ∀ rid ∈ s.evicted, rid < s.nextRid
  hashed : ∀ hash rid, s.nodeHash hash = some rid → ∀ row ∈ s.nodes, row.rid = rid →
    row.properties.hash = some hash

variable {s t : GraphStore ρ} {now later : ℤ}

lemma mem_listNodes {row : StoredNode ρ} : row ∈ s.listNodes now ↔
    row ∈ s.nodes ∧ isExpired row now = false ∧ row.rid ∉ s.evicted := by
  simp [listNodes]

lemma mem_liveRids {rid : ℕ} : rid ∈ s.liveRids now ↔ ∃ row ∈ s.listNodes now, row.rid = rid :=
  mem_map

lemma listNodes_mono (hle : now ≤ later) {row : StoredNode ρ} (h : row ∈ s.listNodes later) :
    row ∈ s.listNodes now := by
  obtain ⟨hin, hexp, hevict⟩ := mem_listNodes.mp h
  refine mem_listNodes.mpr ⟨hin, ?_, hevict⟩
  by_contra hnot
  rw [isExpired_mono hle (Bool.eq_true_of_not_eq_false hnot)] at hexp
  cases hexp

lemma Kept.listed (h : s.Kept) (now : ℤ) : ((s.listNodes now).map (·.rid)).Nodup :=
  h.nodup.sublist (filter_sublist.map _)

lemma Kept.frame (h : s.Kept) (hnod : t.nodes = s.nodes) (hle : s.nextRid ≤ t.nextRid)
    (hevict : t.evicted = s.evicted) (hhash : t.nodeHash = s.nodeHash) : t.Kept := by
  constructor
  · rw [hnod]
    exact h.nodup
  · intro row hrow
    rw [hnod] at hrow
    exact (h.below row hrow).trans_le hle
  · intro hash rid hmark
    rw [hhash] at hmark
    exact (h.marked hash rid hmark).trans_le hle
  · intro rid hrid
    rw [hevict] at hrid
    exact (h.evicted rid hrid).trans_le hle
  · rw [hhash, hnod]
    exact h.hashed

lemma listNodes_congr (hnod : t.nodes = s.nodes) (hevict : t.evicted = s.evicted) (now : ℤ) :
    t.listNodes now = s.listNodes now := by
  unfold listNodes
  rw [hnod, hevict]

lemma Kept.insertNode (h : s.Kept) (node : MemoryNode ρ) (now : ℤ) :
    (s.insertNode M node now).Kept := by
  constructor
  · change ((s.nodes ++ [_]).map _).Nodup
    rw [map_append]
    apply nodup_append.mpr
    refine ⟨h.nodup, nodup_singleton _, ?_⟩
    intro a ha b hb
    obtain ⟨row, hrow, rfl⟩ := mem_map.mp ha
    have hnew : b = s.nextRid := by simpa using hb
    have hlt := h.below row hrow
    omega
  · intro row hrow
    change row ∈ s.nodes ++ [_] at hrow
    change row.rid < s.nextRid + 1
    rcases mem_append.mp hrow with hrow | hrow
    · exact (h.below row hrow).trans (Nat.lt_succ_self _)
    · rw [mem_singleton.mp hrow]
      exact Nat.lt_succ_self _
  · intro hash rid hmark
    change (if hash = node.hash M then some s.nextRid else s.nodeHash hash) = some rid at hmark
    change rid < s.nextRid + 1
    split_ifs at hmark
    · rw [← some.inj hmark]
      exact Nat.lt_succ_self _
    · exact (h.marked hash rid hmark).trans (Nat.lt_succ_self _)
  · exact fun rid hrid => (h.evicted rid hrid).trans (Nat.lt_succ_self _)
  · intro hash rid hmark row hrow hrid
    change (if hash = node.hash M then some s.nextRid else s.nodeHash hash) = some rid at hmark
    change row ∈ s.nodes ++ [_] at hrow
    rcases mem_append.mp hrow with hrow | hrow
    · have hlt := h.below row hrow
      split_ifs at hmark
      · have hnew := some.inj hmark
        omega
      · exact h.hashed hash rid hmark row hrow hrid
    · obtain rfl := mem_singleton.mp hrow
      change s.nextRid = rid at hrid
      split_ifs at hmark with heq
      · rw [heq]
        rfl
      · have hlt := h.marked hash rid hmark
        omega

lemma upsertNode_cases (s : GraphStore ρ) (node : MemoryNode ρ) (now later : ℤ) :
    (∃ rid, s.nodeHash (node.hash M) = some rid ∧ s.upsertNode M node now later = (rid, s)) ∨
      (s.nodeHash (node.hash M) = none ∧ (s.upsertNode M node now later).1 = s.nextRid ∧
        (s.upsertNode M node now later).2.nodes =
          s.nodes ++ [{ node with properties := node.written M now, rid := s.nextRid }] ∧
        (s.upsertNode M node now later).2.evicted = s.evicted ∧
        (s.upsertNode M node now later).2.nodeHash =
          (fun hash => if hash = node.hash M then some s.nextRid else s.nodeHash hash) ∧
        (s.insertNode M node now).nextRid ≤ (s.upsertNode M node now later).2.nextRid) := by
  unfold upsertNode
  split
  · next rid hrid => exact .inl ⟨rid, hrid, rfl⟩
  · next hnone =>
    obtain ⟨hnod, hle, hevict, hhash⟩ :=
      detectAndRecordConflicts_frame (M := M) (s.insertNode M node now)
        { node with properties := node.written M now, rid := s.nextRid } later
    exact .inr ⟨hnone, rfl, hnod, hevict, hhash, hle⟩

lemma Kept.upsertNode (h : s.Kept) (node : MemoryNode ρ) (now later : ℤ) :
    (s.upsertNode M node now later).2.Kept := by
  rcases upsertNode_cases (M := M) s node now later with
    ⟨rid, -, heq⟩ | ⟨-, -, hnod, hevict, hhash, hle⟩
  · rw [heq]
    exact h
  · exact (h.insertNode node now).frame hnod hle hevict hhash

lemma mem_victims {options : EvictL2Options} {instant : ℤ} {node : StoredNode ρ}
    (h : node ∈ s.victims options instant) : node ∈ s.listNodes instant := by
  have hbudg : ∀ (budget bytes : ℤ) (events : List (StoredNode ρ)),
      ∀ e ∈ overBudget budget bytes events, e ∈ events := by
    intro budget bytes events
    induction events generalizing bytes with
    | nil => exact fun e he => he
    | cons event events ih =>
      intro e he
      unfold overBudget at he
      split_ifs at he
      · rcases mem_cons.mp he with rfl | he
        · exact mem_cons_self
        · exact mem_cons_of_mem _ (ih _ e he)
      · cases he
  rcases mem_append.mp h with h | h
  · exact (mem_filter.mp (mem_filter.mp h).1).1
  · obtain ⟨session, -, hnode⟩ := mem_flatMap.mp h
    have hevent := hbudg _ _ _ _ hnode
    have hsort := (mem_insertionSort _).mp hevent
    exact (mem_filter.mp (mem_filter.mp (mem_filter.mp hsort).1).1).1

lemma mem_evictL2 {options : EvictL2Options} {instant : ℤ} {rid : ℕ}
    (h : rid ∈ (s.evictL2 options instant).evicted) :
    rid ∈ s.evicted ∨ ∃ node ∈ s.listNodes instant, node.rid = rid := by
  rcases mem_append.mp h with h | h
  · exact .inl h
  · obtain ⟨node, hnode, rfl⟩ := mem_map.mp (mem_filter.mp h).1
    exact .inr ⟨node, mem_victims hnode, rfl⟩

lemma Kept.evictL2 (h : s.Kept) (options : EvictL2Options) (instant : ℤ) :
    (s.evictL2 options instant).Kept := by
  refine ⟨h.nodup, h.below, h.marked, ?_, h.hashed⟩
  intro rid hrid
  rcases mem_evictL2 hrid with hrid | ⟨node, hnode, rfl⟩
  · exact h.evicted rid hrid
  · exact h.below node (mem_listNodes.mp hnode).1

lemma mem_listNodes_deleteNode {x row : StoredNode ρ} : row ∈ (s.deleteNode x).listNodes now ↔
      row ∈ s.listNodes now ∧ ¬ (row.label = x.label ∧ row.nodeType = x.nodeType) := by
  rw [mem_listNodes, mem_listNodes]
  have hrow : row ∈ (s.deleteNode x).nodes ↔
      row ∈ s.nodes ∧ ¬ (row.label = x.label ∧ row.nodeType = x.nodeType) := by
    unfold deleteNode
    rw [mem_filter, decide_eq_true_eq]
  have hevict : (s.deleteNode x).evicted = s.evicted := rfl
  rw [hrow, hevict]
  tauto

lemma Kept.deleteNode (h : s.Kept) (x : StoredNode ρ) : (s.deleteNode x).Kept := by
  have hmark : ∀ hash rid, (s.deleteNode x).nodeHash hash = some rid →
      s.nodeHash hash = some rid := by
    intro hash rid hrid
    change (if some hash = x.properties.hash then none else s.nodeHash hash) = some rid at hrid
    split_ifs at hrid
    exact hrid
  have hrows : ∀ row ∈ (s.deleteNode x).nodes, row ∈ s.nodes :=
    fun row hrow => (mem_filter.mp hrow).1
  constructor
  · exact h.nodup.sublist (filter_sublist.map _)
  · exact fun row hrow => h.below row (hrows row hrow)
  · exact fun hash rid hrid => h.marked hash rid (hmark hash rid hrid)
  · exact h.evicted
  · exact fun hash rid hrid row hrow => h.hashed hash rid (hmark hash rid hrid) row (hrows row hrow)

/-- The number stands for exactly one listed node, of that label, type and content. -/
def Holds (s : GraphStore ρ) (node : MemoryNode ρ) (rid : ℕ) (now : ℤ) : Prop :=
  ∃ row, (s.listNodes now).filter (·.rid = rid) = [row] ∧ row.label = node.label ∧
    row.nodeType = node.nodeType ∧ row.properties.content = node.properties.content

lemma Kept.holds (h : s.Kept) {node : MemoryNode ρ} {row : StoredNode ρ}
    (hrow : row ∈ s.listNodes now) (hlab : row.label = node.label)
    (htype : row.nodeType = node.nodeType)
    (hcont : row.properties.content = node.properties.content) : s.Holds node row.rid now :=
  ⟨row, filter_key_of_nodup (·.rid) (h.listed now) hrow, hlab, htype, hcont⟩

end GraphStore

namespace MemoryRun

/-- What the last call was to do, it did. -/
structure ReadsBack (M : MemorySetting ρ) (s : MemoryRun ρ) : Prop where
  /-- Before its horizon a node that was stored is listed once, as it was given. -/
  stored : ∀ node rid now, s.last = .upserted node rid now →
    (∀ e, node.expiry M now = some e → s.clock < e) → s.store.Holds node rid s.clock
  /-- A node that was stored before and is still listed when the call begins keeps its number. -/
  deduped : ∀ node rid now, s.last = .upserted node rid now →
    ∀ earlier ∈ s.upserted, earlier.1.hashParts M = node.hashParts M →
      earlier.2 ∈ s.store.liveRids now → rid = earlier.2
  /-- A node that was deleted is gone, and no other. -/
  deleted : ∀ rid live, s.last = .deleted rid live →
    ∀ other, other ∈ s.store.liveRids s.clock ↔ other ∈ live ∧ other ≠ rid

/-- No hash is pinned. -/
def Unpinned (_ : MemoryRun ρ) : MemoryMove ρ → Prop
  | .upsertNode node _ _ => node.properties.hash = none
  | _ => True

/-- Where the hash of a node that does not begin expired is known already, it is known by a
listed node of the same label, type and content. What is deleted is the only listed node of
its label and type, and no other has its hash. -/
def Apart (M : MemorySetting ρ) (s : MemoryRun ρ) : MemoryMove ρ → Prop
  | .upsertNode node now later => (∀ e, node.expiry M now = some e → later < e) →
      ∀ rid, s.store.nodeHash (node.hash M) = some rid →
        ∃ row ∈ s.store.listNodes later, row.rid = rid ∧ row.label = node.label ∧
          row.nodeType = node.nodeType ∧ row.properties.content = node.properties.content
  | .deleteNode x now => ∀ row ∈ s.store.listNodes now,
      ((row.label = x.label ∧ row.nodeType = x.nodeType) ↔ row.rid = x.rid) ∧
        (row.properties.hash = x.properties.hash → row.rid = x.rid)
  | _ => True

structure InStep (M : MemorySetting ρ) (s : MemoryRun ρ) : Prop where
  kept : s.store.Kept
  below : ∀ p ∈ s.upserted, p.2 < s.store.nextRid
  unpinned : ∀ p ∈ s.upserted, p.1.properties.hash = none
  /-- A listed node is found by the hash it was stored with. -/
  marked : ∀ p ∈ s.upserted, ∀ row ∈ s.store.listNodes s.clock, row.rid = p.2 →
    s.store.nodeHash (p.1.hash M) = some p.2
  reads : s.ReadsBack M

variable {s t : MemoryRun ρ}

lemma inStep_begun (clock : ℤ) : (begun clock : MemoryRun ρ).InStep M := by
  refine ⟨⟨nodup_nil, ?_, ?_, ?_, ?_⟩, ?_, ?_, ?_, ?_, ?_, ?_⟩
  · rintro row ⟨⟩
  · rintro hash rid ⟨⟩
  · rintro rid ⟨⟩
  · rintro hash rid ⟨⟩
  · rintro p ⟨⟩
  · rintro p ⟨⟩
  · rintro p ⟨⟩
  · rintro node rid now ⟨⟩
  · rintro node rid now ⟨⟩
  · rintro rid live ⟨⟩

lemma readsBack_of_quiet (hups : ∀ node rid now, s.last ≠ .upserted node rid now)
    (hdel : ∀ rid live, s.last ≠ .deleted rid live) : s.ReadsBack M := by
  constructor
  · exact fun node rid now hlast => absurd hlast (hups node rid now)
  · exact fun node rid now hlast => absurd hlast (hups node rid now)
  · exact fun rid live hlast => absurd hlast (hdel rid live)

lemma InStep.later (h : s.InStep M) (hkept : t.store.Kept)
    (hle : s.store.nextRid ≤ t.store.nextRid) (hups : t.upserted = s.upserted)
    (hlist : ∀ row ∈ t.store.listNodes t.clock, row ∈ s.store.listNodes s.clock ∧
      ∀ hash, s.store.nodeHash hash = some row.rid → t.store.nodeHash hash = some row.rid)
    (hreads : t.ReadsBack M) : t.InStep M := by
  constructor
  · exact hkept
  · intro p hp
    rw [hups] at hp
    exact (h.below p hp).trans_le hle
  · rw [hups]
    exact h.unpinned
  · intro p hp row hrow hrid
    rw [hups] at hp
    obtain ⟨hbef, hhash⟩ := hlist row hrow
    rw [← hrid]
    apply hhash
    rw [hrid]
    exact h.marked p hp row hbef hrid
  · exact hreads

lemma InStep.wrote (h : s.InStep M) {now : ℤ} (hclock : s.clock ≤ now)
    {found : Option (GraphStore ρ)} {last : LastCall ρ}
    (hfound : ∀ store, found = some store → store.nodes = s.store.nodes ∧
      s.store.nextRid ≤ store.nextRid ∧ store.evicted = s.store.evicted ∧
        store.nodeHash = s.store.nodeHash)
    (hups : ∀ node rid now, last ≠ .upserted node rid now)
    (hdel : ∀ rid live, last ≠ .deleted rid live) : (s.wrote now last found).InStep M := by
  cases found with
  | none =>
    apply InStep.later (t := s.wrote now last none) h h.kept le_rfl rfl
    · exact fun row hrow => ⟨GraphStore.listNodes_mono hclock hrow, fun hash hmark => hmark⟩
    · exact readsBack_of_quiet (by rintro node rid now ⟨⟩) (by rintro rid live ⟨⟩)
  | some store =>
    obtain ⟨hnod, hle, hevict, hhash⟩ := hfound store rfl
    apply InStep.later (t := s.wrote now last (some store)) h
      (h.kept.frame hnod hle hevict hhash) hle rfl
    · intro row hrow
      change row ∈ store.listNodes now at hrow
      rw [GraphStore.listNodes_congr hnod hevict] at hrow
      refine ⟨GraphStore.listNodes_mono hclock hrow, ?_⟩
      intro hash hmark
      change store.nodeHash hash = _
      rw [hhash]
      exact hmark
    · exact readsBack_of_quiet hups hdel

lemma InStep.stored (h : s.InStep M) {node : MemoryNode ρ} {now later : ℤ}
    (hclock : s.clock ≤ now) (hlat : now ≤ later) (hpinn : node.properties.hash = none)
    (happ : s.Apart M (.upsertNode node now later)) : (s.stored M node now later).InStep M := by
  have hkept := h.kept.upsertNode (M := M) node now later
  have hsame : ∀ p ∈ s.upserted, p.1.hashParts M = node.hashParts M → p.1.hash M = node.hash M := by
    intro p hp hparts
    unfold MemoryNode.hash
    rw [h.unpinned p hp, hpinn, hparts]
  rcases GraphStore.upsertNode_cases (M := M) s.store node now later with
    ⟨rid, hmark, heq⟩ | ⟨hnone, hrid, hnod, hevict, hhash, hle⟩
  · have hstor : s.stored M node now later =
        ⟨s.store, later, s.upserted ++ [(node, rid)], .upserted node rid now⟩ := by
      unfold MemoryRun.stored
      rw [heq]
    rw [hstor]
    refine ⟨h.kept, ?_, ?_, ?_, ⟨?_, ?_, ?_⟩⟩
    · intro p hp
      rcases mem_append.mp hp with hp | hp
      · exact h.below p hp
      · rw [mem_singleton.mp hp]
        exact h.kept.marked _ _ hmark
    · intro p hp
      rcases mem_append.mp hp with hp | hp
      · exact h.unpinned p hp
      · rw [mem_singleton.mp hp]
        exact hpinn
    · intro p hp row hrow hprid
      rcases mem_append.mp hp with hp | hp
      · exact h.marked p hp row (GraphStore.listNodes_mono (hclock.trans hlat) hrow) hprid
      · rw [mem_singleton.mp hp]
        exact hmark
    · intro node' rid' now' hlast hexpiry
      obtain ⟨rfl, rfl, rfl⟩ := LastCall.upserted.inj hlast
      obtain ⟨row, hrow, hid, hlab, htype, hcont⟩ := happ hexpiry rid hmark
      rw [← hid]
      exact h.kept.holds hrow hlab htype hcont
    · intro node' rid' now' hlast earlier hin hparts hlive
      obtain ⟨rfl, rfl, rfl⟩ := LastCall.upserted.inj hlast
      rcases mem_append.mp hin with hin | hin
      · obtain ⟨row, hrow, hid⟩ := GraphStore.mem_liveRids.mp hlive
        have hfound := h.marked earlier hin row (GraphStore.listNodes_mono hclock hrow) hid
        rw [hsame earlier hin hparts, hmark] at hfound
        exact some.inj hfound
      · rw [mem_singleton.mp hin]
    · rintro rid' live ⟨⟩
  · -- the hash is new: the row is the last one, under the next number
    have hnext : s.store.nextRid < (s.store.upsertNode M node now later).2.nextRid :=
      Nat.lt_of_lt_of_le (Nat.lt_succ_self _) hle
    have hlist : ∀ {at_ : ℤ} {row : StoredNode ρ},
        row ∈ (s.store.upsertNode M node now later).2.listNodes at_ →
          row.rid < s.store.nextRid → row ∈ s.store.listNodes at_ := by
      intro at_ row hrow hlt
      obtain ⟨hin, hexp, hnot⟩ := GraphStore.mem_listNodes.mp hrow
      rw [hnod] at hin
      rw [hevict] at hnot
      rcases mem_append.mp hin with hin | hin
      · exact GraphStore.mem_listNodes.mpr ⟨hin, hexp, hnot⟩
      · rw [mem_singleton.mp hin] at hlt
        exact absurd hlt (Nat.lt_irrefl _)
    refine ⟨hkept, ?_, ?_, ?_, ⟨?_, ?_, ?_⟩⟩
    · intro p hp
      rcases mem_append.mp hp with hp | hp
      · exact (h.below p hp).trans hnext
      · rw [mem_singleton.mp hp]
        change (s.store.upsertNode M node now later).1 < _
        rw [hrid]
        exact hnext
    · intro p hp
      rcases mem_append.mp hp with hp | hp
      · exact h.unpinned p hp
      · rw [mem_singleton.mp hp]
        exact hpinn
    · intro p hp row hrow hprid
      change (s.store.upsertNode M node now later).2.nodeHash _ = _
      rw [hhash]
      rcases mem_append.mp hp with hp | hp
      · have hlt := h.below p hp
        have hold := hlist hrow (by rw [hprid]; exact hlt)
        have hmark := h.marked p hp row (GraphStore.listNodes_mono (hclock.trans hlat) hold) hprid
        have hne : p.1.hash M ≠ node.hash M := by
          intro heq
          rw [heq, hnone] at hmark
          cases hmark
        dsimp only
        rw [if_neg hne]
        exact hmark
      · rw [mem_singleton.mp hp]
        dsimp only
        rw [if_pos rfl, hrid]
    · intro node' rid' now' hlast hexpiry
      obtain ⟨rfl, rfl, rfl⟩ := LastCall.upserted.inj hlast
      rw [hrid]
      have hrow : { node with properties := node.written M now, rid := s.store.nextRid } ∈
          (s.store.upsertNode M node now later).2.listNodes later := by
        apply GraphStore.mem_listNodes.mpr
        rw [hnod, hevict]
        refine ⟨by simp, written_lives node _ hexpiry, ?_⟩
        exact fun hin => Nat.lt_irrefl _ (h.kept.evicted _ hin)
      exact hkept.holds hrow rfl rfl rfl
    · intro node' rid' now' hlast earlier hin hparts hlive
      obtain ⟨rfl, rfl, rfl⟩ := LastCall.upserted.inj hlast
      rcases mem_append.mp hin with hin | hin
      · obtain ⟨row, hrow, hid⟩ := GraphStore.mem_liveRids.mp hlive
        have hold := hlist hrow (by rw [hid]; exact h.below earlier hin)
        have hfound := h.marked earlier hin row (GraphStore.listNodes_mono hclock hold) hid
        rw [hsame earlier hin hparts, hnone] at hfound
        cases hfound
      · rw [mem_singleton.mp hin]
    · rintro rid' live ⟨⟩

lemma InStep.deleted (h : s.InStep M) {x : StoredNode ρ} {now : ℤ} (hclock : s.clock ≤ now)
    (happ : s.Apart M (.deleteNode x now)) :
    (s.wrote now (.deleted x.rid (s.store.liveRids now))
      (some (s.store.deleteNode x))).InStep M := by
  apply InStep.later (t := s.wrote now _ (some (s.store.deleteNode x))) h
    (h.kept.deleteNode x) le_rfl rfl
  · intro row hrow
    obtain ⟨hlist, hoth⟩ := GraphStore.mem_listNodes_deleteNode.mp hrow
    obtain ⟨hone, honly⟩ := happ row hlist
    refine ⟨GraphStore.listNodes_mono hclock hlist, ?_⟩
    intro hash hmark
    have hrowh := h.kept.hashed hash row.rid hmark row (GraphStore.mem_listNodes.mp hlist).1 rfl
    change (if some hash = x.properties.hash then none else s.store.nodeHash hash) = _
    rw [if_neg]
    · exact hmark
    · intro heq
      exact hoth (hone.mpr (honly (hrowh.trans heq)))
  · constructor
    · rintro node rid at_ ⟨⟩
    · rintro node rid at_ ⟨⟩
    · intro rid live hlast other
      obtain ⟨rfl, rfl⟩ := LastCall.deleted.inj hlast
      constructor
      · intro hlive
        obtain ⟨row, hrow, rfl⟩ := GraphStore.mem_liveRids.mp hlive
        obtain ⟨hlist, hoth⟩ := GraphStore.mem_listNodes_deleteNode.mp hrow
        refine ⟨GraphStore.mem_liveRids.mpr ⟨row, hlist, rfl⟩, ?_⟩
        exact fun heq => hoth ((happ row hlist).1.mpr heq)
      · rintro ⟨hlive, hne⟩
        obtain ⟨row, hlist, rfl⟩ := GraphStore.mem_liveRids.mp hlive
        apply GraphStore.mem_liveRids.mpr
        refine ⟨row, GraphStore.mem_listNodes_deleteNode.mpr ⟨hlist, ?_⟩, rfl⟩
        exact fun hmatch => hne ((happ row hlist).1.mp hmatch)

lemma InStep.step (h : s.InStep M) {move : MemoryMove ρ} (hpinn : Unpinned s move)
    (happ : s.Apart M move) (hnext : MemoryRun.next M s move = some t) : t.InStep M := by
  cases move with
  | upsertNode node now later =>
    obtain ⟨⟨hclock, hlat⟩, rfl⟩ := ite_some_none_eq_some.mp hnext
    exact h.stored hclock hlat hpinn happ
  | resolveConflict activeRid supersededRid reason now =>
    obtain ⟨hclock, rfl⟩ := ite_some_none_eq_some.mp hnext
    apply h.wrote hclock
    · intro store hstore
      unfold GraphStore.resolveConflict at hstore
      split_ifs at hstore
      rw [← some.inj hstore]
      exact GraphStore.supersede_frame s.store supersededRid activeRid reason
    · rintro node rid at_ ⟨⟩
    · rintro rid live ⟨⟩
  | executeMemoryMergeBatch input now =>
    obtain ⟨hclock, rfl⟩ := ite_some_none_eq_some.mp hnext
    apply h.wrote hclock
    · intro store hstore
      obtain ⟨candidates, -, rfl⟩ := map_eq_some_iff.mp hstore
      apply GraphStore.foldl_frame
      intro store candidate
      obtain ⟨hnod, hle, -, hevict, hhash⟩ :=
        GraphStore.upsertEdge_frame store (GraphStore.mergeEdge M input now candidate)
      exact ⟨hnod, hle, hevict, hhash⟩
    · rintro node rid at_ ⟨⟩
    · rintro rid live ⟨⟩
  | unmergeMemoryMergeBatch batchId now =>
    obtain ⟨hclock, rfl⟩ := ite_some_none_eq_some.mp hnext
    apply h.wrote hclock
    · intro store hstore
      unfold GraphStore.unmergeMemoryMergeBatch at hstore
      dsimp only at hstore
      split_ifs at hstore
      rw [← some.inj hstore]
      apply GraphStore.foldl_frame
      intro store edge
      obtain ⟨hnod, hnext, hevict, hhash, -⟩ :=
        GraphStore.removeEdge_frame (M := M) store edge.toMemoryEdge.key
      exact ⟨hnod, hnext.ge, hevict, hhash⟩
    · rintro node rid at_ ⟨⟩
    · rintro rid live ⟨⟩
  | evictL2 options now =>
    obtain ⟨hclock, rfl⟩ := ite_some_none_eq_some.mp hnext
    apply InStep.later (t := s.wrote now .nothing (some (s.store.evictL2 options now))) h
      (h.kept.evictL2 options now) le_rfl rfl
    · intro row hrow
      obtain ⟨hin, hexp, hevict⟩ := GraphStore.mem_listNodes.mp hrow
      refine ⟨GraphStore.listNodes_mono hclock ?_, fun hash hmark => hmark⟩
      apply GraphStore.mem_listNodes.mpr
      exact ⟨hin, hexp, fun hbef => hevict (mem_append_left _ hbef)⟩
    · exact readsBack_of_quiet (by rintro node rid at_ ⟨⟩) (by rintro rid live ⟨⟩)
  | deleteNode x now =>
    obtain ⟨hclock, rfl⟩ := ite_some_none_eq_some.mp hnext
    exact h.deleted hclock happ

/-- Where every known hash leads to a listed node of that content, and every node that is
deleted is the only one of its label and type, what is stored is read back, the same content
keeps its number, and a delete takes the one node. -/
theorem reads_back (h : (memory M).Reach (fun s move => Unpinned s move ∧ s.Apart M move) s) :
    s.ReadsBack M := by
  have hstep : s.InStep M := by
    obtain ⟨s₀, moves, ⟨clock, rfl⟩, hrun⟩ := h
    exact hrun.inv (InStep M) (fun _ _ _ hs hok hnext => hs.step hok.1 hok.2 hnext)
      (inStep_begun clock)
  exact hstep.reads

def firstRow (node : MemoryNode Unit) : StoredNode Unit :=
  { node with properties := node.written plainSetting 0, rid := 1 }

def twoStored (label : Text) : List (MemoryMove Unit) :=
  [.upsertNode (conceptOf ['a'] ['x']) 0 0, .upsertNode (conceptOf label ['y']) 0 0]

def deleteFirst : MemoryMove Unit := .deleteNode (firstRow (conceptOf ['a'] ['x'])) 1

theorem deletes_the_first : ∃ s, (memory plainSetting).Reach
    (fun s move => Unpinned s move ∧ s.Apart plainSetting move) s ∧ s.clock = 1 ∧
      s.last = .deleted 1 [1, 2] ∧ (2 ∈ s.store.liveRids 1 ↔ 2 ∈ [1, 2] ∧ 2 ≠ 1) := by
  obtain ⟨s, hs⟩ : ∃ s, (memory plainSetting).exec (begun 0)
      (twoStored ['b']) = some s := ⟨_, rfl⟩
  have hrun : (memory plainSetting).Reach
      (fun s move => Unpinned s move ∧ s.Apart plainSetting move) s := by
    refine ⟨begun 0, twoStored ['b'], ⟨0, rfl⟩, ?_⟩
    cases hs
    refine .cons ⟨rfl, ?_⟩ rfl (.cons ⟨rfl, ?_⟩ rfl (.nil _))
    · rintro - rid ⟨⟩
    · rintro - rid ⟨⟩
  obtain ⟨t, ht⟩ : ∃ t, (memory plainSetting).next s deleteFirst = some t := by
    cases hs
    exact ⟨_, rfl⟩
  have hok : Unpinned s deleteFirst ∧ s.Apart plainSetting deleteFirst := by
    refine ⟨trivial, ?_⟩
    cases hs
    intro row hrow
    have hin := (GraphStore.mem_listNodes.mp hrow).1
    rcases mem_cons.mp hin with rfl | hin
    · exact ⟨iff_of_true ⟨rfl, rfl⟩ rfl, fun _ => rfl⟩
    · obtain rfl := mem_singleton.mp hin
      constructor
      · apply iff_of_false
        · rintro ⟨hlab, -⟩
          cases hlab
        · rintro ⟨⟩
      · intro hhash
        cases hhash
  have hclock : t.clock = 1 := by
    cases hs
    cases ht
    rfl
  have hlast : t.last = .deleted 1 [1, 2] := by
    cases hs
    cases ht
    rfl
  have hreach := hrun.step hok ht
  have hdel := (reads_back hreach).deleted 1 [1, 2] hlast 2
  rw [hclock] at hdel
  exact ⟨t, hreach, hclock, hlast, hdel⟩

/-- Two concepts have one label, and the second goes with the first. -/
theorem deletes_the_second_too : ¬ ∀ s, (memory plainSetting).Reach Unpinned s →
    s.ReadsBack plainSetting := by
  intro h
  obtain ⟨s, hs⟩ : ∃ s, (memory plainSetting).exec (begun 0)
      (twoStored ['a'] ++ [deleteFirst]) = some s := ⟨_, rfl⟩
  have hreach : (memory plainSetting).Reach Unpinned s := by
    refine ⟨begun 0, twoStored ['a'] ++ [deleteFirst], ⟨0, rfl⟩, ?_⟩
    cases hs
    exact .cons rfl rfl (.cons rfl rfl (.cons trivial rfl (.nil _)))
  have hlast : s.last = .deleted 1 [1, 2] ∧ s.store.liveRids s.clock = [] := by
    cases hs
    exact ⟨rfl, rfl⟩
  have hsec := ((h s hreach).deleted 1 [1, 2] hlast.1 2).mpr ⟨by simp, by simp⟩
  rw [hlast.2] at hsec
  cases hsec

end MemoryRun
end Redskilled.Memory
