import Mathlib.Data.List.Sort
import Redskilled.Foundation.JsMap
import Redskilled.Foundation.NumericText

/-!
# Objects with text keys

A plain object is an insertion-ordered map, but it is listed with its array indices first, in
their order. A key is an array index where it is the decimal text of a number below `2 ^ 32 - 1`.
-/
namespace Redskilled.Foundation.JsObject
open Foundation List

variable {ν : Type*}

def arrayIndex (key : Text) : Option ℕ :=
  (Text.readDigits key).filter fun n => Text.number n = key ∧ n < 2 ^ 32 - 1

/-- `Object.entries(m)`. -/
def entries (m : JsMap Text ν) : List (Σ _ : Text, ν) :=
  (m.entries.filter fun e => (arrayIndex e.1).isSome).insertionSort
      (fun a b => (arrayIndex a.1).getD 0 ≤ (arrayIndex b.1).getD 0) ++
    m.entries.filter fun e => !(arrayIndex e.1).isSome

/-- An object made entry by entry, without those that are refused. -/
def keep (f : Text → ν → Option ν) (m : JsMap Text ν) : JsMap Text ν :=
  (entries m).foldl
    (fun kept e =>
      match f e.1 e.2 with
      | some v => kept.set e.1 v
      | none => kept)
    ∅

lemma entries_perm (m : JsMap Text ν) : (entries m).Perm m.entries :=
  ((perm_insertionSort _ _).append_right _).trans
    (filter_append_perm (fun e : Σ _ : Text, ν => (arrayIndex e.1).isSome) m.entries)

lemma mem_entries {m : JsMap Text ν} {e : Σ _ : Text, ν} :
    e ∈ entries m ↔ m.lookup e.1 = some e.2 := by
  rw [(entries_perm m).mem_iff]
  exact (mem_dlookup_iff m.nodupKeys).symm

lemma nodupKeys_entries (m : JsMap Text ν) : (entries m).NodupKeys :=
  (List.perm_nodupKeys (entries_perm m)).mpr m.nodupKeys

lemma nodupKeys_cons {e : Σ _ : Text, ν} {l : List (Σ _ : Text, ν)} :
    (e :: l).NodupKeys ↔ (∀ e' ∈ l, e'.1 ≠ e.1) ∧ l.NodupKeys := by
  rw [List.nodupKeys_cons, List.mem_keys]
  constructor
  · rintro ⟨hnot, hl⟩
    exact ⟨fun e' he' heq => hnot ⟨e'.2, heq ▸ he'⟩, hl⟩
  · rintro ⟨hne, hl⟩
    exact ⟨fun ⟨v, hv⟩ => hne ⟨e.1, v⟩ hv rfl, hl⟩

lemma lookup_foldl_keep (f : Text → ν → Option ν) (key : Text) {l : List (Σ _ : Text, ν)}
    (hl : l.NodupKeys) (kept : JsMap Text ν) (hkept : ∀ e ∈ l, kept.lookup e.1 = none) :
    (l.foldl
      (fun kept e =>
        match f e.1 e.2 with
        | some v => kept.set e.1 v
        | none => kept)
      kept).lookup key =
      (kept.lookup key).or ((l.dlookup key).bind (f key)) := by
  induction l generalizing kept with
  | nil => simp
  | cons e l ih =>
    obtain ⟨hne, hl⟩ := nodupKeys_cons.mp hl
    have hnone := hkept e mem_cons_self
    rw [foldl_cons]
    cases hf : f e.1 e.2 with
    | none =>
      simp only
      rw [ih hl kept fun e' he' => hkept e' (mem_cons_of_mem _ he'), JsMap.dlookup_cons_entry]
      split_ifs with hkey
      · subst hkey
        have hrest : l.dlookup e.1 = none :=
          dlookup_eq_none.mpr fun hmem => by
            obtain ⟨v, hv⟩ := mem_keys.mp hmem
            exact hne ⟨e.1, v⟩ hv rfl
        simp [hrest, hf]
      · rfl
    | some v =>
      simp only
      have hset : ∀ e' ∈ l, (kept.set e.1 v).lookup e'.1 = none := fun e' he' => by
        rw [JsMap.lookup_set_ne kept v (hne e' he')]
        exact hkept e' (mem_cons_of_mem _ he')
      rw [ih hl _ hset, JsMap.lookup_set, JsMap.dlookup_cons_entry]
      split_ifs with hkey
      · subst hkey
        simp [hnone, hf]
      · rfl

lemma lookup_keep (f : Text → ν → Option ν) (m : JsMap Text ν) (key : Text) :
    (keep f m).lookup key = (m.lookup key).bind (f key) := by
  have hlook : (entries m).dlookup key = m.lookup key :=
    perm_dlookup key (nodupKeys_entries m) (entries_perm m)
  unfold keep
  rw [lookup_foldl_keep f key (nodupKeys_entries m) ∅ fun _ _ => AList.lookup_empty _, hlook,
    AList.lookup_empty, Option.none_or]

end Redskilled.Foundation.JsObject
