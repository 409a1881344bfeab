import Redskilled.Acp.TicketLoop

/-!
# The ledger of countersigns

Who judged which head is a row of the ledger, and a row is never changed. A later row of
the same key takes the place of the earlier ones, and a row that voids leaves the key with
nothing. What stands is so the last row of each key, and the keys stand in the order of
their first rows.
-/
namespace Redskilled.Landing.Countersign
open Foundation Acp.TicketLoop

inductive CountersignClass where
  | liveVerified
  | testVerified
  | typeCheckOnly
  | verifierBlocked
  | verifierFailed
  deriving DecidableEq

/-- `/^[0-9a-f]{7,64}$/` -/
def isHeadSha (t : Text) : Bool :=
  7 ≤ t.length && t.length ≤ 64 && t.all fun c => c.isDigit || ('a' ≤ c && c ≤ 'f')

structure CountersignKey where
  pr : ℕ
  headSha : Text
  patchId : Text
  head : isHeadSha headSha = true
  deriving DecidableEq

structure CountersignRow extends CountersignKey where
  signedAt : Text
  countersign : CountersignClass
  verifierIdentity : Text
  voided : Bool
  evidence : Option Text
  reason : Option Text
  deriving DecidableEq

/-- One text a key. -/
def countersignKeyOf (key : CountersignKey) : Text :=
  Text.number key.pr ++ '@' :: (key.headSha ++ '#' :: key.patchId)

structure CountersignStanding where
  key : Text
  standing : Option CountersignRow
  voidedBy : Option CountersignRow
  history : List CountersignRow

def standingAfter (byKey : JsMap Text CountersignStanding) (row : CountersignRow) :
    CountersignStanding where
  key := countersignKeyOf row.toCountersignKey
  standing := if row.voided then none else some row
  voidedBy := if row.voided then some row else none
  history :=
    ((byKey.lookup (countersignKeyOf row.toCountersignKey)).map (·.history)).getD [] ++ [row]

def standingCountersigns (rows : List CountersignRow) : JsMap Text CountersignStanding :=
  rows.foldl (fun byKey row =>
    byKey.set (countersignKeyOf row.toCountersignKey) (standingAfter byKey row)) ∅

def lastOf (rows : List CountersignRow) (key : CountersignKey) : Option CountersignRow :=
  (rows.filter fun row => decide (row.toCountersignKey = key)).getLast?

lemma notMem_headSha {t : Text} (h : isHeadSha t = true) : '#' ∉ t := by
  intro hmem
  simp only [isHeadSha, Bool.and_eq_true] at h
  exact absurd (List.all_eq_true.mp h.2 '#' hmem) (by decide)

lemma notMem_number (n : ℕ) : '@' ∉ Text.number n := by
  intro hmem
  exact absurd (Text.isDigit_of_mem_number hmem) (by decide)

lemma countersignKeyOf_injective {key key' : CountersignKey}
    (h : countersignKeyOf key = countersignKeyOf key') : key = key' := by
  obtain ⟨hpr, hrest⟩ := Text.cut_unique (notMem_number key.pr) (notMem_number key'.pr) h
  obtain ⟨hhead, hpatch⟩ := Text.cut_unique (notMem_headSha key.head) (notMem_headSha key'.head) hrest
  have hnumb := Text.number_injective hpr
  cases key
  cases key'
  simp only [CountersignKey.mk.injEq]
  exact ⟨hnumb, hhead, hpatch⟩

section
variable {rows : List CountersignRow} {row : CountersignRow} {key : CountersignKey}

lemma standingCountersigns_concat :
    standingCountersigns (rows ++ [row]) = (standingCountersigns rows).set
      (countersignKeyOf row.toCountersignKey) (standingAfter (standingCountersigns rows) row) := by
  simp [standingCountersigns]

lemma lastOf_concat :
    lastOf (rows ++ [row]) key = if row.toCountersignKey = key then some row else lastOf rows key := by
  unfold lastOf
  rw [List.filter_append]
  split_ifs with h
  · simp [h]
  · simp [h]

lemma lastOf_eq_none : lastOf rows key = none ↔ ∀ row ∈ rows, row.toCountersignKey ≠ key := by
  simp [lastOf]

lemma key_of_lastOf (h : lastOf rows key = some row) : row.toCountersignKey = key := by
  have hmem := List.mem_of_getLast? h
  simpa using (List.mem_filter.mp hmem).2

lemma lookup_standing : ((standingCountersigns rows).lookup (countersignKeyOf key)).map
        (fun entry => (entry.standing, entry.voidedBy)) =
      (lastOf rows key).map fun row =>
        (if row.voided then none else some row, if row.voided then some row else none) := by
  induction rows using List.reverseRecOn with
  | nil => rfl
  | append_singleton rows row ih =>
    rw [standingCountersigns_concat, JsMap.lookup_set, lastOf_concat]
    by_cases h : row.toCountersignKey = key
    · rw [if_pos h, if_pos (congrArg countersignKeyOf h.symm)]
      rfl
    · have hne : countersignKeyOf key ≠ countersignKeyOf row.toCountersignKey :=
        fun heq => h (countersignKeyOf_injective heq).symm
      rw [if_neg h, if_neg hne]
      exact ih

lemma findSome?_keys {β : Type*} (f : Text → Option β) :
    (standingCountersigns rows).keys.findSome? f =
      rows.findSome? fun row => f (countersignKeyOf row.toCountersignKey) := by
  induction rows using List.reverseRecOn with
  | nil => rfl
  | append_singleton rows row ih =>
    rw [standingCountersigns_concat, List.findSome?_append, ← ih]
    by_cases hmem : countersignKeyOf row.toCountersignKey ∈ standingCountersigns rows
    · rw [JsMap.keys_set_of_mem _ hmem]
      cases hfound : (standingCountersigns rows).keys.findSome? f with
      | some b => rfl
      | none =>
        have hnone := List.findSome?_eq_none_iff.mp hfound _ (AList.mem_keys.mp hmem)
        simp [hnone]
    · rw [JsMap.keys_set_of_notMem _ hmem, List.findSome?_append]
      simp

lemma findSome?_values {β : Type*} (f : CountersignStanding → Option β) :
    (standingCountersigns rows).values.findSome? f = rows.findSome? fun row =>
        ((standingCountersigns rows).lookup (countersignKeyOf row.toCountersignKey)).bind f := by
  rw [← findSome?_keys fun key => ((standingCountersigns rows).lookup key).bind f]
  exact JsMap.findSome?_values _ f

end
end Redskilled.Landing.Countersign
