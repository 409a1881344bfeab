import Redskilled.Foundation.JsNumber
import Redskilled.Foundation.JsText

/-!
# Texts read as numbers

`Number(t)` trims the text, and reads it as a decimal literal with an optional sign, as
`Infinity`, or as an unsigned literal in base two, eight or sixteen. The empty text is
zero. Any other text is not a number.
-/
namespace Redskilled.Foundation
open JsNumber List

structure Signed where
  negative : Bool
  magnitude : JsNumber

namespace Signed

def zero : Signed := ⟨false, 0⟩

/-- `a ≤ b`, where the two zeros are the same number. -/
def le (a b : Signed) : Bool :=
  match a.negative, b.negative with
  | false, false => a.magnitude ≤ b.magnitude
  | true, true => b.magnitude ≤ a.magnitude
  | true, false => true
  | false, true => a.magnitude = 0 ∧ b.magnitude = 0

end Signed

namespace Text

def digitValue (c : Char) : ℕ :=
  if c.isDigit then c.toNat - 48
  else if 97 ≤ c.toNat ∧ c.toNat ≤ 102 then c.toNat - 87
  else if 65 ≤ c.toNat ∧ c.toNat ≤ 70 then c.toNat - 55
  else 16

/-- The digits of a literal in base two, eight or sixteen. -/
def readRadix (base : ℕ) (digits : Text) : Option Signed :=
  if digits ≠ [] ∧ digits.all (digitValue · < base) then
    some ⟨false, nearest (digits.foldl (fun n c => base * n + digitValue c) 0 : ℕ)⟩
  else none

def readDigits (digits : Text) : Option ℕ :=
  if digits ≠ [] ∧ digits.all Char.isDigit then some (Nat.ofDigitChars 10 digits 0) else none

/-- The exponent of a decimal literal, zero where it has none. -/
def readExponent : Text → Option ℤ
  | [] => some 0
  | c :: t =>
    if c = 'e' ∨ c = 'E' then
      match t with
      | '-' :: digits => (readDigits digits).map fun n => -n
      | '+' :: digits => (readDigits digits).map fun n => n
      | digits => (readDigits digits).map fun n => n
    else none

def decimalValue (whole fraction rest : Text) : Option JsNumber :=
  if whole ++ fraction = [] then none
  else
    (readExponent rest).map fun exponent : ℤ =>
      nearest ((Nat.ofDigitChars 10 (whole ++ fraction) 0 : ℚ≥0) *
        ((10 : ℕ) : ℚ≥0) ^ (exponent - fraction.length))

def readDecimal (t : Text) : Option JsNumber :=
  let whole := t.takeWhile Char.isDigit
  let rest := t.dropWhile Char.isDigit
  if t = "Infinity".toList then some ⊤
  else if rest.head? = some '.' then
    decimalValue whole (rest.tail.takeWhile Char.isDigit) (rest.tail.dropWhile Char.isDigit)
  else decimalValue whole [] rest

/-- The base that the first two characters name. -/
def radix (t : Text) : Option ℕ :=
  if t.head? ≠ some '0' then none
  else
    t.tail.head?.bind fun c =>
      if c = 'b' ∨ c = 'B' then some 2
      else if c = 'o' ∨ c = 'O' then some 8
      else if c = 'x' ∨ c = 'X' then some 16
      else none

/-- `Number(t)`, none where it is NaN. -/
def toNumber (text : Text) : Option Signed :=
  let t := trim text
  match radix t with
  | some base => readRadix base (t.drop 2)
  | none =>
    if t = [] then some .zero
    else if t.head? = some '-' then (readDecimal t.tail).map (⟨true, ·⟩)
    else if t.head? = some '+' then (readDecimal t.tail).map (⟨false, ·⟩)
    else (readDecimal t).map (⟨false, ·⟩)

/-- The number that the digits at the start give. -/
def leadingDigits (t : Text) : Option ℕ :=
  if t.takeWhile Char.isDigit = [] then none
  else some (Nat.ofDigitChars 10 (t.takeWhile Char.isDigit) 0)

/-- `Number.parseInt(t, 10)`, none where it is NaN. -/
def parseInt (t : Text) : Option ℤ :=
  match t.dropWhile isWhitespace with
  | '-' :: digits => (leadingDigits digits).map fun n => -(n : ℤ)
  | '+' :: digits => (leadingDigits digits).map fun n => (n : ℤ)
  | digits => (leadingDigits digits).map fun n => (n : ℤ)

def integer : ℤ → Text
  | .ofNat n => number n
  | .negSucc n => '-' :: number (n + 1)

lemma integer_injective {m n : ℤ} (h : integer m = integer n) : m = n := by
  have hdash : ∀ (a b : ℕ), number a ≠ '-' :: number b := fun a b heq => by
    have hdig : ('-' : Char).isDigit = true :=
      isDigit_of_mem_number (heq ▸ mem_cons_self : '-' ∈ number a)
    exact absurd hdig (by decide)
  cases m with
  | ofNat a =>
    cases n with
    | ofNat b => rw [number_injective h]
    | negSucc b => exact absurd h (hdash a (b + 1))
  | negSucc a =>
    cases n with
    | ofNat b => exact absurd h.symm (hdash b (a + 1))
    | negSucc b =>
      have hsucc := number_injective (cons.inj h).2
      rw [Nat.succ.inj hsucc]

lemma takeWhile_of_all {α : Type*} {p : α → Bool} {l : List α} (h : l.all p) : l.takeWhile p = l :=
  takeWhile_eq_self_iff.mpr (all_eq_true.mp h)

lemma readDecimal_digits {digits : Text} (hne : digits ≠ []) (h : digits.all Char.isDigit) :
    readDecimal digits = some (nearest (Nat.ofDigitChars 10 digits 0 : ℕ)) := by
  have hwhole : digits.takeWhile Char.isDigit = digits := takeWhile_of_all h
  have hrest : digits.dropWhile Char.isDigit = [] :=
    dropWhile_eq_nil_iff.mpr (all_eq_true.mp h)
  have hword : digits ≠ "Infinity".toList := by
    intro heq
    rw [heq] at h
    exact absurd h (by decide)
  have hone : ∀ n : ℚ≥0, n * ((10 : ℕ) : ℚ≥0) ^ ((0 : ℤ) - (([] : Text).length : ℤ)) = n := by simp
  simp only [readDecimal, hwhole, hrest, hword, if_false, head?_nil, reduceCtorEq,
    decimalValue, append_nil, hne, readExponent, Option.map_some, hone]

lemma radix_digits {digits : Text} (h : digits.all Char.isDigit) : radix digits = none := by
  unfold radix
  split_ifs with h0
  · rfl
  · apply Option.bind_eq_none_iff.mpr
    intro c hc
    have hdig : c.isDigit = true := by
      apply all_eq_true.mp h
      exact mem_of_mem_tail (mem_of_mem_head? hc)
    have hne : ∀ d : Char, d.isDigit = false → c ≠ d := by
      rintro d hd rfl
      rw [hd] at hdig
      cases hdig
    simp [hne]

lemma toNumber_digits {digits : Text} (hne : digits ≠ []) (h : digits.all Char.isDigit) :
    toNumber digits = some ⟨false, nearest (Nat.ofDigitChars 10 digits 0 : ℕ)⟩ := by
  have hdig : ∀ c ∈ digits, c.isDigit = true := all_eq_true.mp h
  have htrim : trim digits = digits :=
    trim_of_free fun c hc => isWhitespace_of_isDigit (hdig c hc)
  have hsign : ∀ d : Char, d.isDigit = false → digits.head? ≠ some d := by
    intro d hd hhead
    have := hdig d (mem_of_mem_head? hhead)
    rw [hd] at this
    cases this
  simp only [toNumber, htrim, radix_digits h]
  rw [if_neg hne, if_neg (hsign '-' (by decide)), if_neg (hsign '+' (by decide)),
    readDecimal_digits hne h, Option.map_some]

end Text
end Redskilled.Foundation
