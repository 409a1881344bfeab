import Mathlib.Data.List.AList

/-!
# Insertion-ordered maps

The `Map` of JavaScript: an association list without duplicate keys, kept in
insertion order. Setting a key that is present replaces its value in place,
setting a new one appends it. Lookup and removal are those of `AList`.
-/
namespace Redskilled.Foundation
open List

abbrev JsMap (κ ν : Type*) := AList fun _ : κ => ν

namespace JsMap
variable {κ ν : Type*} [DecidableEq κ]

/-- `map.set(k, v)`. -/
def set (m : JsMap κ ν) (k : κ) (v : ν) : JsMap κ ν :=
  if h : k ∈ m then m.replace k v
  else
    { entries := m.entries ++ [⟨k, v⟩]
      nodupKeys := by
        have hk : k ∉ m.entries.keys := h
        rw [List.NodupKeys, List.keys_append, List.nodup_append]
        refine ⟨m.nodupKeys, by simp, ?_⟩
        intro a ha b hb
        simp only [List.keys_cons, List.keys_nil, List.mem_singleton] at hb
        exact hb ▸ fun hab => hk (hab ▸ ha) }

/-- `[...map.values()]`. -/
def values (m : JsMap κ ν) : List ν := m.entries.map Sigma.snd

/-- Every value is changed in its place. -/
def mapValues (f : ν → ν) (m : JsMap κ ν) : JsMap κ ν where
  entries := m.entries.map fun e => ⟨e.1, f e.2⟩
  nodupKeys := by
    have hkeys : (m.entries.map fun e : Σ _ : κ, ν => (⟨e.1, f e.2⟩ : Σ _ : κ, ν)).keys =
        m.entries.keys := by
      simp [List.keys]
    rw [List.NodupKeys, hkeys]
    exact m.nodupKeys

/-- `new Map(records.map((record) => [key(record), record]))`. -/
def ofRecords (key : ν → κ) (records : List ν) : JsMap κ ν :=
  records.foldl (fun m record => m.set (key record) record) ∅

lemma dlookup_cons_entry (k a : κ) (v : ν) (l : List (Σ _ : κ, ν)) :
    List.dlookup a (⟨k, v⟩ :: l) = if a = k then some v else l.dlookup a := by
  split_ifs with h
  · subst h; simp
  · exact dlookup_cons_ne l (⟨k, v⟩ : Σ _ : κ, ν) h

lemma dlookup_kreplace (k : κ) (v : ν) (a : κ) (l : List (Σ _ : κ, ν)) :
    (l.kreplace k v).dlookup a = if a = k then (l.dlookup k).map fun _ => v else l.dlookup a := by
  induction l with
  | nil => simp [kreplace, lookmap, lookmap.go]
  | cons e l ih =>
    obtain ⟨b, w⟩ := e
    by_cases hb : k = b
    · subst hb
      have hrep : kreplace k v (⟨k, w⟩ :: l) = ⟨k, v⟩ :: l :=
        lookmap_cons_some _ _ (by simp)
      simp only [hrep, dlookup_cons_entry]
      split_ifs <;> simp
    · have hrep : kreplace k v (⟨b, w⟩ :: l) = ⟨b, w⟩ :: kreplace k v l :=
        lookmap_cons_none _ _ (by simp [hb])
      simp only [hrep, dlookup_cons_entry, ih, hb, if_false]
      split_ifs with h₁ h₂
      · exact absurd (h₂.symm.trans h₁) hb
      · rfl
      · rfl
      · rfl

lemma lookup_set (m : JsMap κ ν) (k : κ) (v : ν) (a : κ) :
    (m.set k v).lookup a = if a = k then some v else m.lookup a := by
  unfold set
  split_ifs with hm ha ha
  · subst ha
    obtain ⟨w, hw⟩ := Option.isSome_iff_exists.mp (AList.lookup_isSome.mpr hm)
    have hw' : m.entries.dlookup a = some w := hw
    simp [AList.lookup, AList.replace, dlookup_kreplace, hw']
  · simp [AList.lookup, AList.replace, dlookup_kreplace, ha]
  · subst ha
    have hnone : m.entries.dlookup a = none := AList.lookup_eq_none.mpr hm
    simp [AList.lookup, dlookup_append, hnone]
  · simp [AList.lookup, dlookup_append, ha]

@[simp] lemma lookup_set_self (m : JsMap κ ν) (k : κ) (v : ν) :
    (m.set k v).lookup k = some v := by simp [lookup_set]

variable {k : κ} {key : ν → κ} {m : JsMap κ ν} {records : List ν} {v : ν}

lemma lookup_set_ne (m : JsMap κ ν) {a : κ} (v : ν) (h : a ≠ k) :
    (m.set k v).lookup a = m.lookup a := by simp [lookup_set, h]

lemma mem_iff_lookup : k ∈ m ↔ ∃ v, m.lookup k = some v := by
  rw [← AList.lookup_isSome, Option.isSome_iff_exists]

lemma mem_set {a : κ} : a ∈ m.set k v ↔ a = k ∨ a ∈ m := by
  rw [mem_iff_lookup, mem_iff_lookup, lookup_set]
  split_ifs with h
  · simp [h]
  · simp [h]

lemma lookup_erase_eq (m : JsMap κ ν) (k a : κ) :
    (m.erase k).lookup a = if a = k then none else m.lookup a := by
  split_ifs with h
  · subst h; exact AList.lookup_erase a m
  · exact AList.lookup_erase_ne h

lemma mem_values : v ∈ m.values ↔ ∃ k, m.lookup k = some v := by
  simp only [values, mem_map, Sigma.exists, exists_eq_right]
  exact exists_congr fun k => (AList.mem_lookup_iff (s := m)).symm

lemma kreplace_split {l : List (Σ _ : κ, ν)} (v : ν) (h : k ∈ l.keys) :
    ∃ l₁ w l₂, l = l₁ ++ ⟨k, w⟩ :: l₂ ∧ l.kreplace k v = l₁ ++ ⟨k, v⟩ :: l₂ := by
  induction l with
  | nil => cases h
  | cons e l ih =>
    obtain ⟨b, w⟩ := e
    by_cases hb : k = b
    · subst hb
      exact ⟨[], w, l, rfl, lookmap_cons_some _ _ (by simp)⟩
    · have hmem : k ∈ l.keys := by simpa [hb] using h
      obtain ⟨l₁, w', l₂, hl, hrep⟩ := ih hmem
      have hskip : kreplace k v (⟨b, w⟩ :: l) = ⟨b, w⟩ :: kreplace k v l :=
        lookmap_cons_none _ _ (by simp [hb])
      refine ⟨⟨b, w⟩ :: l₁, w', l₂, by rw [hl]; rfl, ?_⟩
      rw [hskip, hrep]
      rfl

lemma values_set (m : JsMap κ ν) (k : κ) (v : ν) : (m.set k v).values = m.values ++ [v] ∨
      ∃ l₁ w l₂, m.values = l₁ ++ w :: l₂ ∧ (m.set k v).values = l₁ ++ v :: l₂ := by
  by_cases h : k ∈ m
  · obtain ⟨l₁, w, l₂, hm, hrep⟩ := kreplace_split v (show k ∈ m.entries.keys from h)
    refine .inr ⟨l₁.map Sigma.snd, w, l₂.map Sigma.snd, by simp [values, hm], ?_⟩
    simp [values, set, h, AList.replace, hrep]
  · exact .inl (by simp [values, set, h])

lemma entries_set_of_none (v : ν) (h : m.lookup k = none) :
    (m.set k v).entries = m.entries ++ [⟨k, v⟩] := by
  have hk : k ∉ m := AList.lookup_eq_none.mp h
  simp [set, hk]

lemma values_set_of_none (v : ν) (h : m.lookup k = none) :
    (m.set k v).values = m.values ++ [v] := by
  have hk : k ∉ m := AList.lookup_eq_none.mp h
  simp [values, set, hk]

lemma values_set_of_some {w : ν} (v : ν) (h : m.lookup k = some w) :
    ∃ l₁ l₂, m.values = l₁ ++ w :: l₂ ∧ (m.set k v).values = l₁ ++ v :: l₂ := by
  have hk : k ∈ m := AList.lookup_isSome.mp (by rw [h]; rfl)
  obtain ⟨l₁, w', l₂, hm, hrep⟩ := kreplace_split v (show k ∈ m.entries.keys from hk)
  have hmem : (⟨k, w'⟩ : Σ _ : κ, ν) ∈ m.entries := by
    rw [hm]
    exact mem_append_right _ mem_cons_self
  have hsame : w' = w := by
    have hfound := AList.mem_lookup_iff.mpr hmem
    rw [h] at hfound
    exact (Option.some.inj hfound).symm
  subst hsame
  refine ⟨l₁.map Sigma.snd, l₂.map Sigma.snd, by simp [values, hm], ?_⟩
  simp [values, set, hk, AList.replace, hrep]

lemma values_erase_sublist (m : JsMap κ ν) (k : κ) : (values (m.erase k)).Sublist m.values :=
  (kerase_sublist k m.entries).map _

lemma countP_values_set_le (m : JsMap κ ν) (k : κ) (v : ν) (p : ν → Bool) :
    (m.set k v).values.countP p ≤ m.values.countP p + (if p v then 1 else 0) := by
  rcases values_set m k v with happ | ⟨l₁, w, l₂, hm, hset⟩
  · rw [happ, countP_append, countP_singleton]
  · rw [hm, hset]
    simp only [countP_append, countP_cons]
    omega

lemma countP_values_erase_le (m : JsMap κ ν) (k : κ) (p : ν → Bool) :
    (values (m.erase k)).countP p ≤ m.values.countP p :=
  (values_erase_sublist m k).countP_le

omit [DecidableEq κ] in
@[simp] lemma values_mapValues (f : ν → ν) (m : JsMap κ ν) :
    (m.mapValues f).values = m.values.map f := by
  simp [values, mapValues]

lemma lookup_mapValues (f : ν → ν) (m : JsMap κ ν) (k : κ) :
    (m.mapValues f).lookup k = (m.lookup k).map f := by
  change dlookup k (m.entries.map fun e : Σ _ : κ, ν => (⟨e.1, f e.2⟩ : Σ _ : κ, ν)) =
    (m.entries.dlookup k).map f
  induction m.entries with
  | nil => rfl
  | cons e l ih =>
    obtain ⟨b, w⟩ := e
    rw [map_cons, dlookup_cons_entry, dlookup_cons_entry, ih]
    split_ifs <;> rfl

@[simp] lemma mem_mapValues {f : ν → ν} : k ∈ m.mapValues f ↔ k ∈ m := by
  simp [mem_iff_lookup, lookup_mapValues]

lemma mem_values_set {w : ν} (h : w ∈ (m.set k v).values) : w = v ∨ w ∈ m.values := by
  obtain ⟨a, ha⟩ := mem_values.mp h
  rw [lookup_set] at ha
  split_ifs at ha with hak
  · exact .inl (Option.some.inj ha).symm
  · exact .inr (mem_values.mpr ⟨a, ha⟩)

lemma mem_values_foldl_set
    (h : v ∈ (records.foldl (fun m record => m.set (key record) record) m).values) :
    v ∈ records ∨ v ∈ m.values := by
  induction records generalizing m with
  | nil => exact .inr h
  | cons record records ih =>
    rcases ih h with hmem | hmem
    · exact .inl (mem_cons_of_mem _ hmem)
    · rcases mem_values_set hmem with rfl | hmem
      · exact .inl mem_cons_self
      · exact .inr hmem

lemma mem_of_mem_values_ofRecords
    (h : v ∈ (ofRecords key records).values) : v ∈ records := by
  rcases mem_values_foldl_set h with hmem | hmem
  · exact hmem
  · cases hmem

lemma mem_foldl_set : k ∈ records.foldl (fun m record => m.set (key record) record) m ↔
      k ∈ records.map key ∨ k ∈ m := by
  induction records generalizing m with
  | nil => simp
  | cons record records ih =>
    rw [foldl_cons, ih, mem_set, map_cons, mem_cons]
    tauto

lemma mem_ofRecords : k ∈ ofRecords key records ↔ k ∈ records.map key := by
  rw [ofRecords, mem_foldl_set]
  simp

lemma keys_set_of_notMem (v : ν) (h : k ∉ m) : (m.set k v).keys = m.keys ++ [k] := by
  simp [set, h, AList.keys]

lemma keys_set_of_mem (v : ν) (h : k ∈ m) : (m.set k v).keys = m.keys := by
  simp [set, h]

lemma findSome?_values {β : Type*} (m : JsMap κ ν) (f : ν → Option β) :
    m.values.findSome? f = m.keys.findSome? fun key => (m.lookup key).bind f := by
  have hentr : ∀ entries : List (Σ _ : κ, ν), entries ⊆ m.entries →
      (entries.map Sigma.snd).findSome? f =
        (entries.map Sigma.fst).findSome? fun key => (m.lookup key).bind f := by
    intro entries hsub
    induction entries with
    | nil => rfl
    | cons entry entries ih =>
      have hlook : m.lookup entry.1 = some entry.2 :=
        AList.mem_lookup_iff.mpr (hsub mem_cons_self)
      rw [map_cons, map_cons, findSome?_cons, findSome?_cons, hlook,
        ih fun other hoth => hsub (mem_cons_of_mem _ hoth)]
      rfl
  exact hentr m.entries (List.Subset.refl _)

end JsMap
end Redskilled.Foundation
