import Mathlib.Data.Int.Log
import Mathlib.Data.NNRat.Floor
import Mathlib.Tactic.Positivity
import Mathlib.Tactic.Order

/-!
# JavaScript numbers

The non-negative numbers of the language are the double-precision ones and
infinity. An operation is the exact one followed by a rounding to the nearest
double, where a tie goes to the even significand and what is past the largest
double becomes infinity.
-/
namespace Redskilled.Foundation

/-- A non-negative number, `⊤` being infinity. -/
abbrev JsNumber := WithTop ℚ≥0

namespace JsNumber

/-- The integer nearest to `q`, the even one of two. -/
def roundEven (q : ℚ≥0) : ℕ :=
  if q < ⌊q⌋₊ + 1 / 2 then ⌊q⌋₊
  else if ⌊q⌋₊ + 1 / 2 < q then ⌊q⌋₊ + 1
  else if ⌊q⌋₊ % 2 = 0 then ⌊q⌋₊
  else ⌊q⌋₊ + 1

/-- The binary exponent of `q`, no smaller than that of a normal double. -/
def exponent (q : ℚ≥0) : ℤ := max (Int.log 2 q) (-1022)

/-- The distance of the doubles around `q`. -/
def ulp (q : ℚ≥0) : ℚ≥0 := 2 ^ (exponent q - 52)

/-- The double nearest to `q`, were there no largest one. -/
def rounded (q : ℚ≥0) : ℚ≥0 := roundEven (q / ulp q) * ulp q

def nearest (q : ℚ≥0) : JsNumber :=
  if rounded q < 2 ^ 1024 then rounded q else ⊤

/-- `a + b`. -/
def add : JsNumber → JsNumber → JsNumber
  | (a : ℚ≥0), (b : ℚ≥0) => nearest (a + b)
  | _, _ => ⊤

/-- `a * b` for a finite `b` other than zero. -/
def scale (a : JsNumber) (b : ℚ≥0) : JsNumber :=
  match a with
  | (a : ℚ≥0) => nearest (a * b)
  | ⊤ => ⊤

/-- `Math.round(a)`. -/
def mathRound : JsNumber → JsNumber
  | (a : ℚ≥0) => ((⌊a + 1 / 2⌋₊ : ℚ≥0) : JsNumber)
  | ⊤ => ⊤

/-- `a - b`, or zero where that is negative, for numbers that are not both
infinite. -/
def sub : JsNumber → JsNumber → JsNumber
  | (a : ℚ≥0), (b : ℚ≥0) => nearest (a - b)
  | _, ⊤ => 0
  | ⊤, _ => ⊤

/-- `a / c` for a whole `c`, where not both are zero. -/
def divNat (a : JsNumber) (c : ℕ) : JsNumber :=
  match a with
  | (a : ℚ≥0) => if c = 0 then ⊤ else nearest (a / c)
  | ⊤ => ⊤

/-- `Math.floor(a)`. -/
def mathFloor : JsNumber → JsNumber
  | (a : ℚ≥0) => ((⌊a⌋₊ : ℚ≥0) : JsNumber)
  | ⊤ => ⊤

/-- `a₁ + a₂ + …`, from the left. -/
def total (l : List JsNumber) : JsNumber := l.foldl add 0

lemma roundEven_natCast (n : ℕ) : roundEven n = n := by
  have hlt : (n : ℚ≥0) < n + 1 / 2 := lt_add_of_pos_right _ (by positivity)
  rw [roundEven, Nat.floor_natCast, if_pos hlt]

lemma floor_le_roundEven (q : ℚ≥0) : ⌊q⌋₊ ≤ roundEven q := by
  unfold roundEven
  split_ifs <;> omega

lemma roundEven_le_floor (q : ℚ≥0) : roundEven q ≤ ⌊q⌋₊ + 1 := by
  unfold roundEven
  split_ifs <;> omega

variable {a b q : ℚ≥0} {m n : ℕ}

lemma roundEven_mono (h : a ≤ b) : roundEven a ≤ roundEven b := by
  rcases (Nat.floor_mono h).lt_or_eq with hlt | heq
  · calc roundEven a ≤ ⌊a⌋₊ + 1 := roundEven_le_floor a
      _ ≤ ⌊b⌋₊ := hlt
      _ ≤ roundEven b := floor_le_roundEven b
  · unfold roundEven
    rw [heq]
    split_ifs <;> first | omega | order

lemma ulp_pos (q : ℚ≥0) : 0 < ulp q := zpow_pos (by norm_num) _

lemma exponent_lt (h : q < 2 ^ 53) : exponent q < 53 := by
  by_cases hq : q = 0
  · rw [hq, exponent, Int.log_zero_right]
    norm_num
  · have hlog : Int.log 2 q < 53 := by
      apply (Int.lt_zpow_iff_log_lt (by norm_num) (pos_of_ne_zero hq)).mp
      exact_mod_cast h
    unfold exponent
    omega

lemma two_pow_le_div_ulp (hq : 0 < q) (h : exponent q = Int.log 2 q) : 2 ^ 52 ≤ q / ulp q := by
  rw [le_div_iff₀ (ulp_pos q), ulp, h]
  calc (2 ^ 52 : ℚ≥0) * 2 ^ (Int.log 2 q - 52) = 2 ^ Int.log 2 q := by
        rw [← zpow_natCast, ← zpow_add₀ (by norm_num)]
        congr 1
        ring
    _ ≤ q := Int.zpow_log_le_self (by norm_num) hq

lemma div_ulp_lt : q / ulp q < 2 ^ 53 := by
  rw [div_lt_iff₀ (ulp_pos q), ulp]
  calc q < 2 ^ (Int.log 2 q + 1) := Int.lt_zpow_succ_log_self (by norm_num) q
    _ ≤ 2 ^ (exponent q + 1) := zpow_le_zpow_right₀ (by norm_num) (by unfold exponent; omega)
    _ = 2 ^ 53 * 2 ^ (exponent q - 52) := by
        rw [← zpow_natCast, ← zpow_add₀ (by norm_num)]
        congr 1
        ring

lemma roundEven_le (h : q ≤ n) : roundEven q ≤ n :=
  (roundEven_mono h).trans_eq (roundEven_natCast n)

lemma le_roundEven (h : (n : ℚ≥0) ≤ q) : n ≤ roundEven q :=
  (roundEven_natCast n).symm.trans_le (roundEven_mono h)

lemma two_pow_mul_ulp (q : ℚ≥0) (k : ℕ) : 2 ^ k * ulp q = (2 : ℚ≥0) ^ (exponent q + k - 52) := by
  rw [ulp, ← zpow_natCast, ← zpow_add₀ (by norm_num)]
  congr 1
  ring

lemma rounded_mono (h : a ≤ b) : rounded a ≤ rounded b := by
  by_cases ha : a = 0
  · rw [ha, rounded, zero_div]
    simp [roundEven]
  have hlog : Int.log 2 a ≤ Int.log 2 b := Int.log_mono_right (pos_of_ne_zero ha) h
  have hexp : exponent a ≤ exponent b := max_le_max_right _ hlog
  rcases hexp.lt_or_eq with hlt | heq
  · have hnorm : exponent b = Int.log 2 b := by
      unfold exponent at hlt ⊢
      omega
    have hup : roundEven (a / ulp a) ≤ 2 ^ 53 := roundEven_le (by exact_mod_cast div_ulp_lt.le)
    have hlow : 2 ^ 52 ≤ roundEven (b / ulp b) :=
      le_roundEven (by exact_mod_cast two_pow_le_div_ulp ((pos_of_ne_zero ha).trans_le h) hnorm)
    calc rounded a ≤ 2 ^ 53 * ulp a := by
          apply mul_le_mul_of_nonneg_right _ (ulp_pos a).le
          exact_mod_cast hup
      _ ≤ 2 ^ 52 * ulp b := by
          rw [two_pow_mul_ulp, two_pow_mul_ulp]
          apply zpow_le_zpow_right₀ (by norm_num)
          omega
      _ ≤ rounded b := by
          apply mul_le_mul_of_nonneg_right _ (ulp_pos b).le
          exact_mod_cast hlow
  · have hulp : ulp a = ulp b := by rw [ulp, ulp, heq]
    rw [rounded, rounded, hulp]
    apply mul_le_mul_of_nonneg_right _ (ulp_pos b).le
    have hdiv : a / ulp b ≤ b / ulp b := div_le_div_of_nonneg_right h (ulp_pos b).le
    exact_mod_cast roundEven_mono hdiv

lemma nearest_mono (h : a ≤ b) : nearest a ≤ nearest b := by
  have hr : rounded a ≤ rounded b := rounded_mono h
  unfold nearest
  split_ifs with ha hb hb
  · exact WithTop.coe_le_coe.mpr hr
  · exact le_top
  · exact absurd (hr.trans_lt hb) ha
  · exact le_rfl

lemma nearest_natCast (h : n < 2 ^ 53) : nearest n = ((n : ℚ≥0) : JsNumber) := by
  have hexp : exponent n < 53 := exponent_lt (by exact_mod_cast h)
  obtain ⟨k, hk⟩ := Int.le.dest (show exponent n ≤ 52 by omega)
  have hulp : ulp n = (2 ^ k)⁻¹ := by
    rw [ulp, ← zpow_natCast, ← zpow_neg]
    congr 1
    omega
  have hr : rounded n = n := by
    have hdiv : (n : ℚ≥0) / ulp n = ((n * 2 ^ k : ℕ) : ℚ≥0) := by
      rw [hulp, div_inv_eq_mul]
      push_cast
      rfl
    rw [rounded, hdiv, roundEven_natCast, hulp]
    push_cast
    field_simp
  have hlt : (n : ℚ≥0) < 2 ^ 1024 := by
    calc (n : ℚ≥0) < 2 ^ 53 := by exact_mod_cast h
      _ ≤ 2 ^ 1024 := pow_le_pow_right₀ (by norm_num) (by norm_num)
  rw [nearest, hr, if_pos hlt]

lemma rounded_significand {k : ℤ} (hm : m < 2 ^ 53) (hk : -1074 ≤ k) :
    rounded (m * 2 ^ k) = m * 2 ^ k := by
  by_cases hzero : m = 0
  · subst hzero
    simp [rounded, roundEven]
  have hscale : (0 : ℚ≥0) < 2 ^ k := zpow_pos (by norm_num) k
  have hpos : (0 : ℚ≥0) < m * 2 ^ k :=
    mul_pos (Nat.cast_pos.mpr (Nat.pos_of_ne_zero hzero)) hscale
  have hlog : Int.log 2 ((m : ℚ≥0) * 2 ^ k) < 53 + k := by
    apply (Int.lt_zpow_iff_log_lt (by norm_num) hpos).mp
    rw [Nat.cast_ofNat, zpow_add₀ (by norm_num)]
    apply mul_lt_mul_of_pos_right _ hscale
    exact_mod_cast hm
  have hexp : exponent ((m : ℚ≥0) * 2 ^ k) - 52 ≤ k := by
    unfold exponent
    omega
  obtain ⟨n, hn⟩ := Int.le.dest hexp
  have hdiv : (m : ℚ≥0) * 2 ^ k / ulp (m * 2 ^ k) = ((m * 2 ^ n : ℕ) : ℚ≥0) := by
    rw [div_eq_iff (ulp_pos _).ne', ulp]
    push_cast
    rw [mul_assoc, ← zpow_natCast, ← zpow_add₀ (by norm_num)]
    congr 2
    omega
  rw [rounded, hdiv, roundEven_natCast, ← hdiv, div_mul_cancel₀ _ (ulp_pos _).ne']

lemma rounded_rounded (q : ℚ≥0) : rounded (rounded q) = rounded q := by
  have hk : -1074 ≤ exponent q - 52 := by
    unfold exponent
    omega
  have hle : roundEven (q / ulp q) ≤ 2 ^ 53 := roundEven_le (by exact_mod_cast div_ulp_lt.le)
  rcases hle.lt_or_eq with hlt | heq
  · exact rounded_significand hlt hk
  · have hshift : rounded q = ((2 ^ 52 : ℕ) : ℚ≥0) * 2 ^ (exponent q - 52 + 1) := by
      rw [rounded, heq, ulp, zpow_add₀ (by norm_num)]
      push_cast
      ring
    rw [hshift]
    exact rounded_significand (by norm_num) (by omega)

lemma nearest_of_nearest {r : ℚ≥0} (h : nearest q = (r : JsNumber)) :
    nearest r = (r : JsNumber) := by
  unfold nearest at h
  split_ifs at h with hlt
  · obtain rfl : rounded q = r := WithTop.coe_inj.mp h
    rw [nearest, rounded_rounded, if_pos hlt]
  · exact absurd h WithTop.top_ne_coe

lemma nearest_two_pow : nearest (2 ^ 53) = ((2 ^ 53 : ℚ≥0) : JsNumber) := by
  decide +kernel

lemma lt_of_nearest_lt (h : nearest q < ((2 ^ 53 : ℚ≥0) : JsNumber)) : q < 2 ^ 53 := by
  by_contra hq
  apply absurd (nearest_mono (not_lt.mp hq))
  rw [nearest_two_pow]
  exact not_le.mpr h

lemma sub_natCast {a b : ℕ} (ha : a < 2 ^ 53) :
    sub ((a : ℚ≥0) : JsNumber) ((b : ℚ≥0) : JsNumber) = (((a - b : ℕ) : ℚ≥0) : JsNumber) := by
  have hsub : (a : ℚ≥0) - b = ((a - b : ℕ) : ℚ≥0) := (Nat.cast_tsub a b).symm
  change nearest ((a : ℚ≥0) - b) = _
  rw [hsub]
  exact nearest_natCast (by omega)

lemma roundEven_le_of_lt_half (h : q < n + 1 / 2) : roundEven q ≤ n := by
  have hfloor : ⌊q⌋₊ ≤ n := by
    have hlt : q < ((n + 1 : ℕ) : ℚ≥0) := by
      push_cast
      exact h.trans_le (add_le_add_right (by norm_num) _)
    exact Nat.lt_succ_iff.mp ((Nat.floor_lt zero_le).mpr hlt)
  rcases hfloor.lt_or_eq with hlt | heq
  · exact (roundEven_le_floor q).trans hlt
  · unfold roundEven
    rw [heq, if_pos h]

lemma rounded_div_lt {c : ℕ} (hm : m < 2 ^ 53) (hc : 0 < c) :
    rounded ((m : ℚ≥0) / c) < ((m / c + 1 : ℕ) : ℚ≥0) := by
  have hcpos : (0 : ℚ≥0) < c := Nat.cast_pos.mpr hc
  set q : ℚ≥0 := m / c with hq
  set k : ℕ := m / c + 1 with hk
  have hnext : q + 1 / c ≤ k := by
    have hnat : m + 1 ≤ k * c := by
      have := Nat.lt_mul_div_succ m hc
      rw [hk, Nat.mul_comm]
      exact this
    rw [hq, ← add_div, div_le_iff₀ hcpos]
    exact_mod_cast hnat
  have hmc : q * c = m := div_mul_cancel₀ _ hcpos.ne'
  rcases lt_or_ge q (1 / 2) with hsmall | hlarge
  · have hhalf : rounded (1 / 2) = 1 / 2 := by decide +kernel
    calc rounded q ≤ rounded (1 / 2) := rounded_mono hsmall.le
      _ = 1 / 2 := hhalf
      _ < 1 := by norm_num
      _ ≤ k := by
          rw [hk]
          exact_mod_cast Nat.le_add_left 1 (m / c)
  · have hqpos : 0 < q := lt_of_lt_of_le (by norm_num) hlarge
    have hlog : exponent q = Int.log 2 q := by
      have : -1 ≤ Int.log 2 q := by
        apply (Int.zpow_le_iff_le_log (by norm_num) hqpos).mp
        simpa using hlarge
      unfold exponent
      omega
    have hqm : q ≤ m := by
      rw [hq]
      exact div_le_self zero_le (by exact_mod_cast hc)
    have hexp : exponent q < 53 := exponent_lt (hqm.trans_lt (by exact_mod_cast hm))
    obtain ⟨n, hn⟩ := Int.le.dest (show exponent q ≤ 52 by omega)
    have hulp : ulp q = (2 ^ n)⁻¹ := by
      rw [ulp, ← zpow_natCast, ← zpow_neg]
      congr 1
      omega
    have hpow : (0 : ℚ≥0) < 2 ^ n := by positivity
    -- The quotient is at least `2 ^ (52 - n)`, so the divisor is below `2 ^ (n + 1)`.
    have hdivis : (c : ℚ≥0) < 2 * 2 ^ n := by
      have hscale : (0 : ℚ≥0) < 2 ^ exponent q := zpow_pos (by norm_num) _
      have hlow : (2 : ℚ≥0) ^ exponent q ≤ q := by
        rw [hlog]
        exact Int.zpow_log_le_self (by norm_num) hqpos
      have hspl : (2 : ℚ≥0) ^ exponent q * (2 * 2 ^ n) = 2 ^ 53 := by
        have hexp53 : (53 : ℕ) = exponent q + (1 + n) := by omega
        rw [← zpow_natCast, ← zpow_natCast (2 : ℚ≥0) 53, hexp53, zpow_add₀ (by norm_num),
          zpow_add₀ (by norm_num), zpow_one]
      apply lt_of_mul_lt_mul_left _ hscale.le
      calc (2 : ℚ≥0) ^ exponent q * c ≤ q * c := mul_le_mul_of_nonneg_right hlow hcpos.le
        _ = m := hmc
        _ < 2 ^ 53 := by exact_mod_cast hm
        _ = 2 ^ exponent q * (2 * 2 ^ n) := hspl.symm
    have hmid : q / ulp q < ((k * 2 ^ n - 1 : ℕ) : ℚ≥0) + 1 / 2 := by
      have hone : ((k * 2 ^ n - 1 : ℕ) : ℚ≥0) + 1 = k * 2 ^ n := by
        have : 0 < k * 2 ^ n := by positivity
        exact_mod_cast Nat.sub_add_cancel this
      have hgap : (1 : ℚ≥0) / 2 < 1 / c * 2 ^ n := by
        rw [one_div_mul_eq_div, div_lt_div_iff₀ (by norm_num) hcpos, one_mul, mul_comm]
        exact hdivis
      rw [hulp, div_inv_eq_mul]
      apply lt_of_add_lt_add_right (a := 1 / 2)
      calc q * 2 ^ n + 1 / 2 < q * 2 ^ n + 1 / c * 2 ^ n := by gcongr
        _ = (q + 1 / c) * 2 ^ n := (add_mul q (1 / c) (2 ^ n)).symm
        _ ≤ k * 2 ^ n := by gcongr
        _ = ((k * 2 ^ n - 1 : ℕ) : ℚ≥0) + 1 / 2 + 1 / 2 := by
            rw [add_assoc, add_halves, hone]
    calc rounded q ≤ ((k * 2 ^ n - 1 : ℕ) : ℚ≥0) * ulp q := by
          apply mul_le_mul_of_nonneg_right _ (ulp_pos q).le
          exact_mod_cast roundEven_le_of_lt_half hmid
      _ < ((k * 2 ^ n : ℕ) : ℚ≥0) * ulp q := by
          apply mul_lt_mul_of_pos_right _ (ulp_pos q)
          have : 0 < k * 2 ^ n := by positivity
          exact_mod_cast Nat.sub_lt this Nat.one_pos
      _ = k := by
          rw [hulp]
          push_cast
          exact mul_inv_cancel_right₀ hpow.ne' _

lemma mathFloor_divNat {c : ℕ} (hm : m < 2 ^ 53) (hc : 0 < c) :
    mathFloor (divNat ((m : ℚ≥0) : JsNumber) c) = (((m / c : ℕ) : ℚ≥0) : JsNumber) := by
  have hk : m / c < 2 ^ 53 := (Nat.div_le_self m c).trans_lt hm
  have hlow : ((m / c : ℕ) : ℚ≥0) ≤ (m : ℚ≥0) / c := by
    rw [le_div_iff₀ (Nat.cast_pos.mpr hc)]
    exact_mod_cast Nat.div_mul_le_self m c
  have hbel : rounded ((m : ℚ≥0) / c) < ((m / c + 1 : ℕ) : ℚ≥0) := rounded_div_lt hm hc
  have hfin : rounded ((m : ℚ≥0) / c) < 2 ^ 1024 := by
    calc rounded ((m : ℚ≥0) / c) < ((m / c + 1 : ℕ) : ℚ≥0) := hbel
      _ ≤ 2 ^ 53 := by exact_mod_cast hk
      _ ≤ 2 ^ 1024 := pow_le_pow_right₀ (by norm_num) (by norm_num)
  have hnear : nearest ((m : ℚ≥0) / c) = (rounded ((m : ℚ≥0) / c) : JsNumber) := if_pos hfin
  have habove : ((m / c : ℕ) : ℚ≥0) ≤ rounded ((m : ℚ≥0) / c) := by
    have hmono := nearest_mono hlow
    rw [nearest_natCast hk, hnear] at hmono
    exact WithTop.coe_le_coe.mp hmono
  have hfloor : ⌊rounded ((m : ℚ≥0) / c)⌋₊ = m / c := by
    apply (Nat.floor_eq_iff zero_le).mpr
    constructor
    · exact habove
    · exact_mod_cast hbel
  have hdiv : divNat ((m : ℚ≥0) : JsNumber) c = nearest ((m : ℚ≥0) / c) := if_neg hc.ne'
  rw [hdiv]
  rw [hnear]
  change ((⌊rounded ((m : ℚ≥0) / c)⌋₊ : ℚ≥0) : JsNumber) = _
  rw [hfloor]

/-- The non-negative integers among the numbers, infinity included. -/
def IsInteger (a : JsNumber) : Prop := ∀ q : ℚ≥0, a = q → ∃ n : ℕ, q = n

lemma isInteger_mathRound (a : JsNumber) : IsInteger (mathRound a) := by
  intro q hq
  cases a using WithTop.recTopCoe with
  | top => cases hq
  | coe a => exact ⟨_, (WithTop.coe_inj.mp hq).symm⟩

lemma IsInteger.add {a b : JsNumber} (ha : IsInteger a) (hb : IsInteger b) : IsInteger (a + b) := by
  intro q hq
  obtain ⟨a', b', rfl, rfl, rfl⟩ := WithTop.add_eq_coe.mp hq
  obtain ⟨m, rfl⟩ := ha a' rfl
  obtain ⟨n, rfl⟩ := hb b' rfl
  exact ⟨m + n, (Nat.cast_add m n).symm⟩

lemma lt_of_add_lt {a b : JsNumber} (h : add a b < ((2 ^ 53 : ℚ≥0) : JsNumber)) :
    a + b < ((2 ^ 53 : ℚ≥0) : JsNumber) := by
  cases a using WithTop.recTopCoe with
  | top => exact absurd h (not_lt.mpr le_top)
  | coe a =>
    cases b using WithTop.recTopCoe with
    | top => exact absurd h (not_lt.mpr le_top)
    | coe b => exact WithTop.coe_lt_coe.mpr (lt_of_nearest_lt h)

lemma add_exact {a b : JsNumber} (ha : IsInteger a) (hb : IsInteger b)
    (h : add a b < ((2 ^ 53 : ℚ≥0) : JsNumber)) : add a b = a + b := by
  have hlt := lt_of_add_lt h
  obtain ⟨q, hq⟩ := WithTop.ne_top_iff_exists.mp hlt.ne_top
  obtain ⟨n, rfl⟩ := ha.add hb q hq.symm
  obtain ⟨a', b', rfl, rfl, hab⟩ := WithTop.add_eq_coe.mp hq.symm
  rw [← hq] at hlt ⊢
  change nearest (a' + b') = _
  rw [hab]
  exact nearest_natCast (by exact_mod_cast WithTop.coe_lt_coe.mp hlt)

-- The bound is sharp: at `2 ^ 53` a small addend is lost.
example : add ((2 ^ 53 : ℚ≥0) : JsNumber) ((1 : ℚ≥0) : JsNumber) = ((2 ^ 53 : ℚ≥0) : JsNumber) := by
  decide +kernel

section
variable {l : List JsNumber} {a : JsNumber}

lemma lt_of_foldl_lt (h : l.foldl add a < ((2 ^ 53 : ℚ≥0) : JsNumber)) :
    a < ((2 ^ 53 : ℚ≥0) : JsNumber) := by
  induction l generalizing a with
  | nil => exact h
  | cons c l ih => exact le_self_add.trans_lt (lt_of_add_lt (ih h))

lemma foldl_exact (ha : IsInteger a) (hl : ∀ c ∈ l, IsInteger c)
    (h : l.foldl add a < ((2 ^ 53 : ℚ≥0) : JsNumber)) : l.foldl add a = a + l.sum := by
  induction l generalizing a with
  | nil => simp
  | cons c l ih =>
    have hc := hl c List.mem_cons_self
    have hstep : add a c = a + c := add_exact ha hc (lt_of_foldl_lt h)
    have hrest : ∀ d ∈ l, IsInteger d := fun d hd => hl d (List.mem_cons_of_mem c hd)
    rw [List.foldl_cons, hstep] at h ⊢
    rw [ih (ha.add hc) hrest h, List.sum_cons, add_assoc]

lemma isInteger_zero : IsInteger 0 := by
  intro q hq
  exact ⟨0, by exact_mod_cast WithTop.coe_inj.mp hq.symm⟩

lemma total_exact (hl : ∀ c ∈ l, IsInteger c) (h : total l < ((2 ^ 53 : ℚ≥0) : JsNumber)) :
    total l = l.sum := by
  rw [total, foldl_exact isInteger_zero hl h, zero_add]

end

end JsNumber
end Redskilled.Foundation
