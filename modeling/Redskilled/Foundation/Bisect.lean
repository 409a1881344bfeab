import Mathlib.Order.Basic

/-!
# Bisection

The largest number of a range that satisfies a test, for a test that holds below every
number where it holds. The range is halved until one number is left.
-/
namespace Redskilled.Foundation

/-- The search between `low`, which fits, and `high`. -/
def bisect (fits : ℕ → Bool) : ℕ → ℕ → ℕ → ℕ
  | 0, low, _ => low
  | fuel + 1, low, high =>
    if low < high then
      if fits ((low + high + 1) / 2) then bisect fits fuel ((low + high + 1) / 2) high
      else bisect fits fuel low ((low + high + 1) / 2 - 1)
    else low

section
variable {fits : ℕ → Bool} {fuel low high : ℕ}

lemma bisect_fits (h : fits low = true) : fits (bisect fits fuel low high) = true := by
  induction fuel generalizing low high with
  | zero => exact h
  | succ fuel ih =>
    unfold bisect
    split_ifs with hrange hmiddle
    · exact ih hmiddle
    · exact ih h
    · exact h

lemma le_bisect (hdown : ∀ a b, a ≤ b → fits b = true → fits a = true)
    (hfuel : high ≤ low + fuel) {k : ℕ} (hk : k ≤ high) (hfits : fits k = true) :
    k ≤ bisect fits fuel low high := by
  induction fuel generalizing low high with
  | zero =>
    unfold bisect
    omega
  | succ fuel ih =>
    unfold bisect
    split_ifs with hrange hmiddle
    · exact ih (by omega) hk
    · apply ih
      · omega
      · by_contra hlt
        exact hmiddle (hdown _ k (by omega) hfits)
    · omega

end
end Redskilled.Foundation
