import Redskilled.Foundation.JsText

/-!
# Dates and collation

What the language makes of a date and of two texts to be sorted is a parameter.
-/
namespace Redskilled
open Foundation

/-- `Date.parse`, in milliseconds, and `localeCompare`. -/
structure Locale where
  dateParse : Text → Option ℤ
  localeCompare : Text → Text → Ordering

end Redskilled
