import Mathlib.Data.List.Basic
import Mathlib.Data.List.Induction

/-!
# The tail of a stream

Of a stream the last `limit` elements are kept, less those at the front that go on with what
was begun before them. A stream that comes in pieces is cut behind each of them.
-/
namespace Redskilled.Foundation.TailWindow
open List
variable {α : Type*} (goesOn : α → Bool) (limit : ℕ)

def cut (l : List α) : List α :=
  if l.length ≤ limit then l else (l.drop (l.length - limit)).dropWhile goesOn

def held (pieces : List (List α)) : List α :=
  pieces.foldl (fun kept piece => cut goesOn limit (kept ++ piece)) []

def Inside (l : List α) (i : ℕ) : Prop := ∃ x, l[i]? = some x ∧ goesOn x = true

def Deep (l : List α) (i : ℕ) : Prop :=
  limit ≤ i ∧ ∀ j ≤ i, i ≤ j + limit → Inside goesOn l j

def Ends (pieces : List (List α)) (i : ℕ) : Prop :=
  ∃ before after, pieces = before ++ after ∧ before.flatten.length = i

/-- A piece ends deep inside, none ended so shortly before, and little more follows. -/
def Torn (l : List α) (pieces : List (List α)) : Prop :=
  ∃ i, Ends pieces i ∧ Deep goesOn limit l i ∧ l.length ≤ i + limit ∧
    ∀ j, Ends pieces j → Deep goesOn limit l j → j < i → j + limit < i

variable {goesOn limit} {l piece : List α} {pieces : List (List α)} {i s : ℕ}

lemma Inside.lt (h : Inside goesOn l i) : i < l.length := by
  rcases h with ⟨x, hx, -⟩
  exact (List.getElem?_eq_some_iff.mp hx).1

lemma inside_append {before : List α} :
    Inside goesOn (before ++ l) (before.length + i) ↔ Inside goesOn l i := by
  simp [Inside, getElem?_append_right]

lemma inside_of_lt {after : List α} (h : i < l.length) :
    Inside goesOn (l ++ after) i ↔ Inside goesOn l i := by
  rw [Inside, getElem?_append_left h, Inside]

lemma dropWhile_spec (l : List α) :
    ∃ n ≤ l.length, l.dropWhile goesOn = l.drop n ∧ (∀ j < n, Inside goesOn l j) ∧
      ¬ Inside goesOn l n := by
  induction l with
  | nil => exact ⟨0, Nat.le_refl _, rfl, by omega, by simp [Inside]⟩
  | cons x l ih =>
    cases hx : goesOn x with
    | false => exact ⟨0, Nat.zero_le _, by simp [hx], by omega, by simp [Inside, hx]⟩
    | true =>
      rcases ih with ⟨n, hn, hdrop, hbel, hat⟩
      refine ⟨n + 1, by simpa using hn, by simpa [hx] using hdrop, ?_, by simpa [Inside] using hat⟩
      intro j hj
      cases j with
      | zero => exact ⟨x, rfl, hx⟩
      | succ j => simpa [Inside] using hbel j (by omega)

lemma cut_spec (h : limit < l.length) :
    ∃ n ≤ l.length, l.length ≤ n + limit ∧ cut goesOn limit l = l.drop n ∧
      (∀ j < n, l.length ≤ j + limit → Inside goesOn l j) ∧ ¬ Inside goesOn l n := by
  rcases dropWhile_spec (l.drop (l.length - limit)) with
    ⟨n, hn, hdrop, hbel, hat⟩
  have hshift : ∀ j, Inside goesOn (l.drop (l.length - limit)) j ↔
      Inside goesOn l (l.length - limit + j) := by
    intro j
    simp [Inside]
  rw [length_drop] at hn
  refine ⟨l.length - limit + n, by omega, by omega, ?_, ?_, fun hin => hat ((hshift n).mpr hin)⟩
  · rw [cut, if_neg (by omega), hdrop, drop_drop]
  · intro j hj hlow
    have hin := (hshift _).mp (hbel (j - (l.length - limit)) (by omega))
    rwa [Nat.add_sub_cancel' (by omega)] at hin

variable (goesOn limit) in
lemma length_cut_le (l : List α) : (cut goesOn limit l).length ≤ min limit l.length := by
  unfold cut
  split_ifs with h
  · omega
  · have hle := (dropWhile_suffix goesOn (l := l.drop (l.length - limit))).length_le
    rw [length_drop] at hle
    omega

lemma held_append (pieces : List (List α)) (piece : List α) :
    held goesOn limit (pieces ++ [piece]) = cut goesOn limit (held goesOn limit pieces ++ piece) := by
  simp [held]

variable (goesOn limit) in
lemma length_held_le (pieces : List (List α)) :
    (held goesOn limit pieces).length ≤ min limit pieces.flatten.length := by
  induction pieces using reverseRecOn with
  | nil => exact Nat.zero_le _
  | append_singleton pieces piece ih =>
    have hle := length_cut_le goesOn limit (held goesOn limit pieces ++ piece)
    rw [held_append]
    simp only [length_append, flatten_append, flatten_cons, flatten_nil, append_nil] at hle ⊢
    omega

lemma held_eq_flatten (h : pieces.flatten.length ≤ limit) :
    held goesOn limit pieces = pieces.flatten := by
  induction pieces using reverseRecOn with
  | nil => rfl
  | append_singleton pieces piece ih =>
    simp only [flatten_append, length_append, flatten_cons, flatten_nil, append_nil] at h ⊢
    rw [held_append, ih (by omega), cut, if_pos (by simpa using h)]

lemma ends_append :
    Ends (pieces ++ [piece]) i ↔ Ends pieces i ∨ i = (pieces ++ [piece]).flatten.length := by
  constructor
  · rintro ⟨before, after, hspl, rfl⟩
    cases after using reverseRecOn with
    | nil => simp [hspl]
    | append_singleton after last =>
      rw [← append_assoc] at hspl
      exact .inl ⟨before, after, (append_inj' hspl rfl).1, rfl⟩
  · rintro (⟨before, after, rfl, rfl⟩ | rfl)
    · exact ⟨before, after ++ [piece], append_assoc .., rfl⟩
    · exact ⟨_, [], (append_nil _).symm, rfl⟩

structure Stands (goesOn : α → Bool) (limit : ℕ) (l : List α) (pieces : List (List α)) (s : ℕ) :
    Prop where
  kept : held goesOn limit pieces = pieces.flatten.drop s
  le : s ≤ pieces.flatten.length
  short : pieces.flatten.length ≤ s + limit
  below : ∀ j < s, pieces.flatten.length ≤ j + limit → Inside goesOn l j
  start : Inside goesOn l s → Ends pieces s ∧ Deep goesOn limit l s ∧
    ∀ j, Ends pieces j → Deep goesOn limit l j → j < s → j + limit < s
  deep : ∀ i, Ends pieces i → Deep goesOn limit l i →
    ∃ j ≤ s, Deep goesOn limit l j ∧ j ≤ i ∧ i ≤ j + limit
  tear : ∀ i, Ends pieces i → Deep goesOn limit l i →
    (∀ j, Ends pieces j → Deep goesOn limit l j → j < i → j + limit < i) →
    pieces.flatten.length ≤ i + limit → s = i

lemma Deep.start (hdeep : Deep goesOn limit l i) (hle : s ≤ i) (hshort : i ≤ s + limit)
    (hstart : Inside goesOn l s → Deep goesOn limit l s) :
    ∃ j ≤ s, Deep goesOn limit l j ∧ j ≤ i ∧ i ≤ j + limit :=
  ⟨s, Nat.le_refl s, hstart (hdeep.2 s hle hshort), hle, hshort⟩

lemma Stands.waits (h : Stands goesOn limit l pieces s)
    (hfits : (pieces ++ [piece]).flatten.length ≤ s + limit) :
    Stands goesOn limit l (pieces ++ [piece]) s := by
  have hlength : pieces.flatten.length ≤ (pieces ++ [piece]).flatten.length := by simp
  have hle : s ≤ (pieces ++ [piece]).flatten.length := Nat.le_trans h.le hlength
  constructor
  · have hshort : ((pieces.flatten).drop s ++ piece).length ≤ limit := by
      have hle := h.le
      simp only [flatten_append, length_append, flatten_cons, flatten_nil,
        append_nil, length_drop] at hfits ⊢
      omega
    rw [held_append, h.kept, cut, if_pos hshort, flatten_append, drop_append_of_le_length h.le]
    simp
  · exact hle
  · exact hfits
  · intro j hj hlow
    exact h.below j hj (by omega)
  · intro hin
    rcases h.start hin with ⟨hends, hdeep, hfirst⟩
    refine ⟨ends_append.mpr (.inl hends), hdeep, ?_⟩
    intro j hj hdeepj hlt
    rcases ends_append.mp hj with hj | rfl
    · exact hfirst j hj hdeepj hlt
    · omega
  · intro i hi hdeep
    rcases ends_append.mp hi with hi | rfl
    · exact h.deep i hi hdeep
    · exact hdeep.start hle hfits fun hin => (h.start hin).2.1
  · intro i hi hdeep hfirst hshort
    rcases ends_append.mp hi with hi | rfl
    · exact h.tear i hi hdeep (fun j hj => hfirst j (ends_append.mpr (.inl hj))) (by omega)
    · rcases h.start (hdeep.2 s hle hfits) with ⟨hends, hdeeps, -⟩
      by_contra hne
      have hearly := hfirst s (ends_append.mpr (.inl hends)) hdeeps (by omega)
      omega

lemma Stands.trims (h : Stands goesOn limit l pieces s) {after : List α}
    (hl : l = (pieces ++ [piece]).flatten ++ after)
    (hruns : ∀ i, ∃ j ≤ 2 * limit + 1, ¬ Inside goesOn l (i + j))
    (hlong : s + limit < (pieces ++ [piece]).flatten.length) :
    ∃ t, Stands goesOn limit l (pieces ++ [piece]) t := by
  have hle := h.le
  have hlonger : pieces.flatten.length ≤ (pieces ++ [piece]).flatten.length := by simp
  have hspl : (pieces ++ [piece]).flatten =
      pieces.flatten.take s ++ (pieces.flatten.drop s ++ piece) := by
    simp [← append_assoc]
  have htake : (pieces.flatten.take s).length = s := length_take_of_le hle
  generalize hb : pieces.flatten.drop s ++ piece = b at hspl
  have hlength : (pieces ++ [piece]).flatten.length = s + b.length := by
    rw [hspl, length_append, htake]
  have hin : ∀ j < b.length, Inside goesOn l (s + j) ↔ Inside goesOn b j := by
    intro j hj
    have hlt : s + j < (pieces ++ [piece]).flatten.length := by omega
    rw [hl, inside_of_lt hlt, hspl]
    generalize pieces.flatten.take s = x at htake ⊢
    subst htake
    exact inside_append
  have hlong' : limit < b.length := by omega
  rcases cut_spec hlong' with
    ⟨n, hn, hshort, hcut, hbel, hat⟩
  have hfull : Inside goesOn l (s + n) → n = b.length := by
    intro hins
    by_contra hne
    exact hat ((hin n (by omega)).mp hins)
  have hbel' : ∀ j < s + n, s + b.length ≤ j + limit → Inside goesOn l j := by
    intro j hj hlow
    have hj' := (hin (j - s) (by omega)).mpr (hbel (j - s) (by omega) (by omega))
    rwa [Nat.add_sub_cancel' (by omega)] at hj'
  have hdeep : Inside goesOn l (s + n) → Deep goesOn limit l (s + n) := by
    intro hins
    have hend := hfull hins
    refine ⟨by omega, ?_⟩
    intro j hj hlow
    rcases Nat.lt_or_eq_of_le hj with hlt | rfl
    · exact hbel' j hlt (by omega)
    · exact hins
  refine ⟨s + n, ?_, by omega, by omega, ?_, ?_, ?_, ?_⟩
  · rw [held_append, h.kept, hb, hcut, hspl, ← drop_drop, drop_left' htake]
  · intro j hj hlow
    exact hbel' j hj (by omega)
  · intro hins
    have hend := hfull hins
    refine ⟨ends_append.mpr (.inr (by omega)), hdeep hins, ?_⟩
    intro j hj hdeepj hlt
    rcases ends_append.mp hj with hj | rfl
    · -- Otherwise one run would reach from before the place held so far to the new one.
      by_contra hnear
      rcases h.deep j hj hdeepj with ⟨k, hk, hdeepk, hkj, hjk⟩
      have hk' := hdeepk.1
      rcases hruns (k - limit) with ⟨m, hm, hout⟩
      apply hout
      rcases Nat.lt_or_ge (k - limit + m) (k + 1) with hlow | hhigh
      · exact hdeepk.2 _ (by omega) (by omega)
      · rcases Nat.lt_or_ge (k - limit + m) (j + 1) with hmid | htop
        · exact hdeepj.2 _ (by omega) (by omega)
        · exact (hdeep hins).2 _ (by omega) (by omega)
    · omega
  · intro i hi hdeepi
    rcases ends_append.mp hi with hi | rfl
    · rcases h.deep i hi hdeepi with ⟨j, hj, hrest⟩
      exact ⟨j, by omega, hrest⟩
    · exact hdeepi.start (by omega) (by omega) hdeep
  · intro i hi hdeepi hfirst hnear
    rcases ends_append.mp hi with hi | rfl
    · have hold := h.tear i hi hdeepi (fun j hj => hfirst j (ends_append.mpr (.inl hj)))
        (by omega)
      omega
    · have hend := hfull (hdeepi.2 _ (by omega) (by omega))
      omega

lemma exists_stands (hfirst : ¬ Inside goesOn l 0)
    (hruns : ∀ i, ∃ j ≤ 2 * limit + 1, ¬ Inside goesOn l (i + j)) (after : List α)
    (hl : l = pieces.flatten ++ after) : ∃ s, Stands goesOn limit l pieces s := by
  induction pieces using reverseRecOn generalizing after with
  | nil =>
    have hnone : ∀ i, Ends ([] : List (List α)) i → ¬ Deep goesOn limit l i := by
      rintro i ⟨before, more, hnil, rfl⟩ hdeep
      cases (append_eq_nil_iff.mp hnil.symm).1
      exact hfirst (hdeep.2 0 (Nat.zero_le _) (Nat.zero_le _))
    exact ⟨0, rfl, Nat.le_refl _, Nat.zero_le _, by omega, fun h => absurd h hfirst,
      fun i hi hdeep => absurd hdeep (hnone i hi), fun i hi hdeep => absurd hdeep (hnone i hi)⟩
  | append_singleton pieces piece ih =>
    rcases ih (piece ++ after) (by simpa using hl) with ⟨s, hs⟩
    rcases Nat.lt_or_ge (s + limit) (pieces ++ [piece]).flatten.length with hlong | hfits
    · exact hs.trims hl hruns hlong
    · exact ⟨s, hs.waits hfits⟩

lemma Stands.inside_iff (h : Stands goesOn limit pieces.flatten pieces s) :
    Inside goesOn pieces.flatten s ↔ Torn goesOn limit pieces.flatten pieces := by
  constructor
  · intro hin
    rcases h.start hin with ⟨hends, hdeep, hfirst⟩
    exact ⟨s, hends, hdeep, h.short, hfirst⟩
  · rintro ⟨i, hends, hdeep, hlong, hfirst⟩
    rw [h.tear i hends hdeep hfirst hlong]
    exact hdeep.2 i (Nat.le_refl i) (Nat.le_add_right i limit)

lemma exists_cut (limit : ℕ) (hfirst : ¬ Inside goesOn l 0) :
    ∃ n ≤ l.length, l.length ≤ n + limit ∧ cut goesOn limit l = l.drop n ∧
      (∀ j < n, l.length ≤ j + limit → Inside goesOn l j) ∧ ¬ Inside goesOn l n := by
  rcases Nat.lt_or_ge limit l.length with hlong | hfits
  · exact cut_spec hlong
  · exact ⟨0, Nat.zero_le _, by omega, by simp [cut, hfits], by omega, hfirst⟩

/-- The pieces leave what the whole leaves exactly where the stream is not torn. -/
lemma held_eq_cut_iff (hfirst : ¬ Inside goesOn pieces.flatten 0)
    (hruns : limit ≠ 0 → ∀ i, ∃ j ≤ 2 * limit + 1, ¬ Inside goesOn pieces.flatten (i + j)) :
    held goesOn limit pieces = cut goesOn limit pieces.flatten ↔
      ¬ Torn goesOn limit pieces.flatten pieces := by
  rcases Nat.eq_zero_or_pos limit with rfl | hpos
  · have hheld := length_held_le goesOn 0 pieces
    have hcut := length_cut_le goesOn 0 pieces.flatten
    rw [Nat.zero_min, Nat.le_zero, length_eq_zero_iff] at hheld hcut
    rw [hheld, hcut]
    refine ⟨fun _ => ?_, fun _ => rfl⟩
    rintro ⟨i, -, hdeep, hlong, -⟩
    have hlt := (hdeep.2 i (Nat.le_refl i) (Nat.le_refl i)).lt
    omega
  · rcases exists_stands hfirst (hruns (by omega)) [] (append_nil _).symm with ⟨s, hs⟩
    rcases exists_cut limit hfirst with ⟨n, hn, hshort, hcut, hbel, hat⟩
    rw [← hs.inside_iff, hs.kept, hcut]
    constructor
    · intro heq hin
      have hlength := congrArg length heq
      have hlt := hin.lt
      simp only [length_drop] at hlength
      have hsame : s = n := by omega
      exact hat (hsame ▸ hin)
    · intro hout
      have hle := hs.short
      rcases Nat.lt_trichotomy s n with hlt | rfl | hgt
      · exact absurd (hbel s hlt hle) hout
      · rfl
      · exact absurd (hs.below n hgt hshort) hat

end Redskilled.Foundation.TailWindow
