import Redskilled.Foundation.JsText

/-!
# Digits at the front of a text

What `(\d+)` matches at the front of a text.
-/
namespace Redskilled.Foundation.Text

/-- `(\d+)` at the front of a text, as a number, and what follows it. -/
def digitsAt (t : Text) : Option (ℕ × Text) :=
  let digits := t.takeWhile Char.isDigit
  if digits.isEmpty then none
  else some (Nat.ofDigitChars 10 digits 0, t.dropWhile Char.isDigit)

end Redskilled.Foundation.Text
