import Redskilled.Foundation.JsText

/-!
# UTF-8

The encoding of a text, and a decoder that takes one byte at a time and puts the
replacement character for what is no encoding. A decoder that is kept from one piece of
the bytes to the next gives the text back wherever the bytes are cut.
-/
namespace Redskilled.Foundation.Utf8

def encodeChar (c : Char) : List ℕ :=
  let n := c.toNat
  if n < 0x80 then [n]
  else if n < 0x800 then [0xc0 + n / 64, 0x80 + n % 64]
  else if n < 0x10000 then [0xe0 + n / 4096, 0x80 + n / 64 % 64, 0x80 + n % 64]
  else [0xf0 + n / 262144, 0x80 + n / 4096 % 64, 0x80 + n / 64 % 64, 0x80 + n % 64]

def encode (t : Text) : List ℕ := t.flatMap encodeChar

/-- A character of which `needed` bytes are missing, the next one in a range. -/
structure Decoder where
  needed : ℕ
  low : ℕ
  high : ℕ
  code : ℕ

def clean : Decoder := ⟨0, 0x80, 0xbf, 0⟩

def replacement : Char := Char.ofNat 0xfffd

/-- `t.slice(0, n)`. Half a pair of code units is read as a replacement character. -/
def takeUnits : ℕ → Text → Text
  | 0, _ => []
  | _ + 1, [] => []
  | n + 1, c :: t =>
    if (Text.utf16 c).length ≤ n + 1 then c :: takeUnits (n + 1 - (Text.utf16 c).length) t
    else [replacement]

def first (b : ℕ) : Decoder × Text :=
  if b < 0x80 then (clean, [Char.ofNat b])
  else if 0xc2 ≤ b ∧ b ≤ 0xdf then (⟨1, 0x80, 0xbf, b - 0xc0⟩, [])
  else if 0xe0 ≤ b ∧ b ≤ 0xef then
    (⟨2, if b = 0xe0 then 0xa0 else 0x80, if b = 0xed then 0x9f else 0xbf, b - 0xe0⟩, [])
  else if 0xf0 ≤ b ∧ b ≤ 0xf4 then
    (⟨3, if b = 0xf0 then 0x90 else 0x80, if b = 0xf4 then 0x8f else 0xbf, b - 0xf0⟩, [])
  else (clean, [replacement])

def step (d : Decoder) (b : ℕ) : Decoder × Text :=
  if d.needed = 0 then first b
  else if d.low ≤ b ∧ b ≤ d.high then
    let code := d.code * 64 + (b - 0x80)
    if d.needed = 1 then (clean, [Char.ofNat code])
    else (⟨d.needed - 1, 0x80, 0xbf, code⟩, [])
  else ((first b).1, replacement :: (first b).2)

/-- The text that is complete behind the bytes, and the decoder for what follows. -/
def write (d : Decoder) : List ℕ → Decoder × Text
  | [] => (d, [])
  | b :: bytes =>
    let r := step d b
    let more := write r.1 bytes
    (more.1, r.2 ++ more.2)

/-- The text of bytes that nothing follows. -/
def decode (bytes : List ℕ) : Text :=
  let r := write clean bytes
  if r.1.needed = 0 then r.2 else r.2 ++ [replacement]

lemma write_append (d : Decoder) (a b : List ℕ) : write d (a ++ b) =
      ((write (write d a).1 b).1, (write d a).2 ++ (write (write d a).1 b).2) := by
  induction a generalizing d with
  | nil => rfl
  | cons x a ih => simp [write, ih]

lemma toNat_lt (c : Char) : c.toNat < 0xd800 ∨ 0xdfff < c.toNat ∧ c.toNat < 0x110000 := by
  rcases c.valid with h | h
  · exact Or.inl h
  · exact Or.inr h

lemma first_ascii {n : ℕ} (h : n < 0x80) : first n = (clean, [Char.ofNat n]) := by
  rw [first, if_pos h]

lemma first_two {n : ℕ} (hlow : 0x80 ≤ n) (h : n < 0x800) :
    first (0xc0 + n / 64) = (⟨1, 0x80, 0xbf, n / 64⟩, []) := by
  rw [first, if_neg (by omega), if_pos (by omega)]
  simp

lemma first_three {n : ℕ} (h : n < 0x10000) : first (0xe0 + n / 4096) =
      (⟨2, if n < 0x1000 then 0xa0 else 0x80, if n / 4096 = 13 then 0x9f else 0xbf, n / 4096⟩,
        []) := by
  have hzero : 0xe0 + n / 4096 = 0xe0 ↔ n < 0x1000 := by omega
  have hsurr : 0xe0 + n / 4096 = 0xed ↔ n / 4096 = 13 := by omega
  rw [first, if_neg (by omega), if_neg (by omega), if_pos (by omega)]
  simp only [hzero, hsurr, Nat.add_sub_cancel_left]

lemma first_four {n : ℕ} (h : n < 0x110000) : first (0xf0 + n / 262144) =
      (⟨3, if n < 0x40000 then 0x90 else 0x80, if n / 262144 = 4 then 0x8f else 0xbf,
        n / 262144⟩, []) := by
  have hzero : 0xf0 + n / 262144 = 0xf0 ↔ n < 0x40000 := by omega
  have hlast : 0xf0 + n / 262144 = 0xf4 ↔ n / 262144 = 4 := by omega
  rw [first, if_neg (by omega), if_neg (by omega), if_neg (by omega), if_pos (by omega)]
  simp only [hzero, hlast, Nat.add_sub_cancel_left]

lemma step_last {low high code b : ℕ} (hlow : low ≤ b) (hhigh : b ≤ high) :
    step ⟨1, low, high, code⟩ b = (clean, [Char.ofNat (code * 64 + (b - 0x80))]) := by
  simp [step, hlow, hhigh]

lemma step_more {needed low high code b : ℕ} (hlow : low ≤ b) (hhigh : b ≤ high) :
    step ⟨needed + 2, low, high, code⟩ b =
      (⟨needed + 1, 0x80, 0xbf, code * 64 + (b - 0x80)⟩, []) := by
  simp [step, hlow, hhigh]

lemma step_clean (b : ℕ) : step clean b = first b := by simp [step, clean]

lemma write_encodeChar (c : Char) : write clean (encodeChar c) = (clean, [c]) := by
  have hrange := toNat_lt c
  have hback := Char.ofNat_toNat c
  unfold encodeChar
  generalize c.toNat = n at hrange hback
  simp only
  split_ifs with h₁ h₂ h₃
  · simp only [write, step_clean, first_ascii h₁, hback, List.append_nil]
  · have hcode : n / 64 * 64 + (0x80 + n % 64 - 0x80) = n := by omega
    simp only [write, step_clean, first_two (by omega) h₂]
    rw [step_last (by omega) (by omega), hcode, hback]
    rfl
  · have hcode : (n / 4096 * 64 + (0x80 + n / 64 % 64 - 0x80)) * 64 + (0x80 + n % 64 - 0x80) = n := by
      omega
    simp only [write, step_clean, first_three h₃]
    rw [step_more (by split_ifs <;> omega) (by split_ifs <;> omega)]
    simp only
    rw [step_last (by omega) (by omega), hcode, hback]
    rfl
  · have hcode : ((n / 262144 * 64 + (0x80 + n / 4096 % 64 - 0x80)) * 64 +
        (0x80 + n / 64 % 64 - 0x80)) * 64 + (0x80 + n % 64 - 0x80) = n := by
      omega
    simp only [write, step_clean, first_four (show n < 0x110000 by omega)]
    rw [step_more (by split_ifs <;> omega) (by split_ifs <;> omega)]
    simp only
    rw [step_more (by omega) (by omega)]
    simp only
    rw [step_last (by omega) (by omega), hcode, hback]
    rfl

lemma write_encode (t : Text) : write clean (encode t) = (clean, t) := by
  induction t with
  | nil => rfl
  | cons c t ih =>
    rw [encode, List.flatMap_cons, write_append, write_encodeChar]
    simp only
    rw [← encode, ih]
    rfl

lemma decode_encode (t : Text) : decode (encode t) = t := by
  rw [decode, write_encode]
  rfl

lemma encode_injective : Function.Injective encode := by
  intro t u h
  rw [← decode_encode t, h, decode_encode]

lemma encode_append (t u : Text) : encode (t ++ u) = encode t ++ encode u :=
  List.flatMap_append

lemma encode_flatten (ts : List Text) : encode ts.flatten = (ts.map encode).flatten := by
  induction ts with
  | nil => rfl
  | cons t ts ih => rw [List.flatten_cons, encode_append, ih, List.map_cons, List.flatten_cons]

lemma write_prefix {t : Text} {bytes more : List ℕ} (h : bytes ++ more = encode t) :
    (write clean bytes).2 <+: t := by
  have hall := write_encode t
  rw [← h, write_append] at hall
  exact ⟨_, congrArg Prod.snd hall⟩

lemma length_utf16_le (t : Text) : (t.flatMap Text.utf16).length ≤ (encode t).length := by
  induction t with
  | nil => exact Nat.le_refl _
  | cons c t ih =>
    have hchar : (Text.utf16 c).length ≤ (encodeChar c).length := by
      simp only [Text.utf16, encodeChar]
      split_ifs <;> simp
      all_goals omega
    simp only [encode, List.flatMap_cons, List.length_append] at ih ⊢
    omega

end Redskilled.Foundation.Utf8
