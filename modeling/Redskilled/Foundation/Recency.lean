import Redskilled.Foundation.JsMap

/-!
# A store bounded by recency

An insertion-ordered map whose order is the order of the last use: reading a key moves
it to the end, and so does writing it. A write past the bound drops what was not used
for longest. What is found under a key is what was written there last, if it is found
at all.
-/
namespace Redskilled.Foundation

structure Recency (κ ν : Type*) where
  bound : ℕ
  entries : JsMap κ ν

namespace Recency
variable {κ ν : Type*} [DecidableEq κ]

def create (capacity : ℕ) : Recency κ ν := ⟨max 1 capacity, ∅⟩

def lookup (store : Recency κ ν) (key : κ) : Option ν := store.entries.lookup key

/-- The key moves to the end. -/
def touch (store : Recency κ ν) (key : κ) : Recency κ ν :=
  match store.lookup key with
  | some held => { store with entries := JsMap.set (store.entries.erase key) key held }
  | none => store

/-- Entries are dropped from the front until the bound is met. -/
def evict (bound : ℕ) (m : JsMap κ ν) : JsMap κ ν where
  entries := m.entries.drop (m.entries.length - bound)
  nodupKeys := m.nodupKeys.sublist (List.drop_sublist _ _)

def put (store : Recency κ ν) (key : κ) (value : ν) : Recency κ ν :=
  { store with entries := evict store.bound (JsMap.set (store.entries.erase key) key value) }

lemma lookup_evict {bound : ℕ} {m : JsMap κ ν} {key : κ} {value : ν}
    (h : (evict bound m).lookup key = some value) : m.lookup key = some value := by
  have hmem := AList.mem_lookup_iff.mp h
  exact AList.mem_lookup_iff.mpr (List.mem_of_mem_drop hmem)

@[simp] lemma lookup_create (capacity : ℕ) (key : κ) :
    (create capacity : Recency κ ν).lookup key = none := rfl

@[simp] lemma lookup_touch (store : Recency κ ν) (key other : κ) :
    (store.touch key).lookup other = store.lookup other := by
  unfold touch
  split
  · next held hheld =>
      change (JsMap.set (store.entries.erase key) key held).lookup other = _
      rw [JsMap.lookup_set, JsMap.lookup_erase_eq]
      split_ifs with h
      · rw [h, hheld]
      · rfl
  · rfl

lemma lookup_put {store : Recency κ ν} {key other : κ} {value found : ν}
    (h : (store.put key value).lookup other = some found) :
    other = key ∧ found = value ∨ other ≠ key ∧ store.lookup other = some found := by
  have hset := lookup_evict h
  rw [JsMap.lookup_set, JsMap.lookup_erase_eq] at hset
  split_ifs at hset with heq
  · exact Or.inl ⟨heq, (Option.some.inj hset).symm⟩
  · exact Or.inr ⟨heq, hset⟩

end Recency
end Redskilled.Foundation
