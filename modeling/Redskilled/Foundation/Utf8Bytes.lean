import Redskilled.Foundation.TailWindow
import Redskilled.Foundation.Utf8

/-!
# The bytes of a text

A character is a lead byte and up to three more, which are told from lead bytes by their two
highest bits. A place that no such byte follows parts the text between two characters.
-/
namespace Redskilled.Foundation.Utf8
open TailWindow List

/-- A byte within a character. -/
def isContinuation (byte : ℕ) : Bool := byte &&& 0xc0 == 0x80

variable {text : Text} {i : ℕ}

lemma isContinuation_iff {b : ℕ} (h : b < 256) : isContinuation b = true ↔ 0x80 ≤ b ∧ b < 0xc0 := by
  have hall : ∀ b < 256, isContinuation b = true ↔ 0x80 ≤ b ∧ b < 0xc0 := by decide +kernel
  exact hall b h

lemma encodeChar_spec (c : Char) :
    ∃ lead more, encodeChar c = lead :: more ∧ isContinuation lead = false ∧
      more.length ≤ 3 ∧ ∀ b ∈ more, isContinuation b = true := by
  have hrange := toNat_lt c
  unfold encodeChar
  generalize c.toNat = n at hrange
  have hlead : ∀ b < 256, (b < 0x80 ∨ 0xc0 ≤ b) → isContinuation b = false := by
    intro b hb hout
    rw [Bool.eq_false_iff, Ne, isContinuation_iff hb]
    omega
  have hmore : ∀ k, isContinuation (0x80 + k % 64) = true := by
    intro k
    rw [isContinuation_iff (by omega)]
    omega
  simp only
  split_ifs
  · exact ⟨n, [], rfl, hlead n (by omega) (by omega), by simp, by simp⟩
  · exact ⟨_, _, rfl, hlead _ (by omega) (by omega), by simp, by simp [hmore]⟩
  · exact ⟨_, _, rfl, hlead _ (by omega) (by omega), by simp, by simp [hmore]⟩
  · exact ⟨_, _, rfl, hlead _ (by omega) (by omega), by simp, by simp [hmore]⟩

lemma outside_zero (text : Text) : ¬ Inside isContinuation (encode text) 0 := by
  cases text with
  | nil => simp [Inside, encode]
  | cons c text =>
    rcases encodeChar_spec c with ⟨lead, more, hchar, hlead, -⟩
    simp [Inside, encode, hchar, hlead]

lemma exists_split (hi : i ≤ (encode text).length)
    (hout : ¬ Inside isContinuation (encode text) i) :
    ∃ before after, text = before ++ after ∧ (encode before).length = i := by
  induction text generalizing i with
  | nil => exact ⟨[], [], rfl, (Nat.le_zero.mp hi).symm⟩
  | cons c text ih =>
    rcases encodeChar_spec c with ⟨lead, more, hchar, -, -, hmore⟩
    have hcons : encode (c :: text) = (lead :: more) ++ encode text := by
      rw [← hchar]
      rfl
    rw [hcons] at hi hout
    rcases Nat.lt_or_ge i (lead :: more).length with hlt | hge
    · cases i with
      | zero => exact ⟨[], c :: text, rfl, rfl⟩
      | succ i =>
        have hmem : i < more.length := by simpa using hlt
        rw [inside_of_lt hlt] at hout
        exact absurd ⟨more[i], by simp [hmem], hmore _ (getElem_mem hmem)⟩ hout
    · have hsum := Nat.add_sub_cancel' hge
      rw [← hsum, inside_append] at hout
      rw [length_append] at hi
      rcases ih (by omega) hout with ⟨before, after, rfl, hlength⟩
      refine ⟨c :: before, after, rfl, ?_⟩
      rw [encode, flatMap_cons, ← encode, hchar, length_append, hlength, hsum]

lemma exists_outside (text : Text) (i : ℕ) :
    ∃ j ≤ 3, ¬ Inside isContinuation (encode text) (i + j) := by
  induction text generalizing i with
  | nil => exact ⟨0, by omega, by simp [Inside, encode]⟩
  | cons c text ih =>
    rcases encodeChar_spec c with ⟨lead, more, hchar, hlead, hshort, -⟩
    have hcons : encode (c :: text) = (lead :: more) ++ encode text := by
      rw [← hchar]
      rfl
    have hlength : (lead :: more).length = more.length + 1 := rfl
    rcases Nat.lt_or_ge i (more.length + 1) with hlt | hge
    · cases i with
      | zero => exact ⟨0, by omega, outside_zero (c :: text)⟩
      | succ i =>
        refine ⟨more.length + 1 - (i + 1), by omega, ?_⟩
        rw [Nat.add_sub_cancel' (by omega), hcons, ← hlength]
        exact fun h => outside_zero text (inside_append.mp h)
    · rcases ih (i - (more.length + 1)) with ⟨j, hj, hout⟩
      refine ⟨j, hj, ?_⟩
      have hsum : i + j = (lead :: more).length + (i - (more.length + 1) + j) := by omega
      rw [hcons, hsum, inside_append]
      exact hout

end Redskilled.Foundation.Utf8
