import Mathlib.Algebra.Ring.Rat
import Redskilled.Foundation.JsText

/-!
# Values of the language

What a program is handed when nothing is known of it. A finite number is the rational that it
is; an object has its own fields, in their order.
-/
namespace Redskilled.Foundation

inductive JsValue where
  | undefined
  | null
  | bool (b : Bool)
  | number (q : ℚ)
  /-- `NaN` and the two infinities. -/
  | nonFinite
  | string (t : Text)
  | array (items : List JsValue)
  | object (fields : List (Text × JsValue))

namespace JsValue

/-- What survives as a value of JSON. -/
inductive IsJson : JsValue → Prop
  | null : IsJson .null
  | bool (b : Bool) : IsJson (.bool b)
  | number (q : ℚ) : IsJson (.number q)
  | string (t : Text) : IsJson (.string t)
  | array {items : List JsValue} (items_json : ∀ v ∈ items, IsJson v) : IsJson (.array items)
  | object {fields : List (Text × JsValue)} (fields_json : ∀ f ∈ fields, IsJson f.2) :
      IsJson (.object fields)

def maxSafeInteger : ℕ := 2 ^ 53 - 1

/-- `value == null`. -/
def isNullish : JsValue → Bool
  | .undefined | .null => true
  | _ => false

/-- The fields of an object that is no array. -/
def asObject : JsValue → Option (List (Text × JsValue))
  | .object fields => some fields
  | _ => none

def asArray : JsValue → Option (List JsValue)
  | .array items => some items
  | _ => none

def asString : JsValue → Option Text
  | .string t => some t
  | _ => none

/-- The integer that `Number.isSafeInteger(value)` finds. -/
def asSafeInteger : JsValue → Option ℤ
  | .number q => if q.isInt ∧ q.num.natAbs ≤ maxSafeInteger then some q.num else none
  | _ => none

/-! In what `JSON.stringify` writes, a field that is undefined is left out, and such an item is `null`. How a number is written is a
parameter. -/

section
variable (numberText : ℚ → Text)

mutual

/-- `JSON.stringify(value)`. -/
def stringify : JsValue → Option Text
  | .undefined => none
  | .null | .nonFinite => some "null".toList
  | .bool b => some (if b then "true".toList else "false".toList)
  | .number q => some (numberText q)
  | .string t => some (Text.jsonString t)
  | .array items => some ('[' :: stringifyItems items ++ [']'])
  | .object fields => some ('\x7b' :: stringifyFields fields ++ ['\x7d'])

def stringifyItems : List JsValue → Text
  | [] => []
  | [v] => (stringify v).getD "null".toList
  | v :: vs => (stringify v).getD "null".toList ++ ',' :: stringifyItems vs

def stringifyFields : List (Text × JsValue) → Text
  | [] => []
  | (name, v) :: fields =>
    match stringify v with
    | none => stringifyFields fields
    | some t =>
      let rest := stringifyFields fields
      Text.jsonString name ++ ':' :: t ++ if rest.isEmpty then [] else ',' :: rest

end

end

def field (fields : List (Text × JsValue)) (name : Text) : JsValue :=
  (fields.lookup name).getD .undefined

/-! Objects of named fields: a program writes the fields that it names, each name a text of its own. -/

section
variable {ν : Type*} [DecidableEq ν] (text : ν → Text)

def named (fields : List (ν × JsValue)) : List (Text × JsValue) :=
  fields.map fun f => (text f.1, f.2)

variable {text} {fields : List (ν × JsValue)}

lemma field_named (htext : ∀ m n, text m = text n → m = n) (name : ν) :
    field (named text fields) (text name) = (fields.lookup name).getD .undefined := by
  unfold field named
  congr 1
  induction fields with
  | nil => rfl
  | cons f fields ih =>
    rw [List.map_cons, List.lookup_cons, List.lookup_cons, ih]
    have hname : (text name == text f.1) = (name == f.1) := by
      rw [Bool.eq_iff_iff, beq_iff_eq, beq_iff_eq]
      exact ⟨htext _ _, fun h => h ▸ rfl⟩
    rw [hname]

omit [DecidableEq ν] in
lemma isJson_named (h : ∀ f ∈ fields, f.2.IsJson) : IsJson (.object (named text fields)) := by
  apply IsJson.object
  intro f hf
  obtain ⟨g, hg, rfl⟩ := List.mem_map.mp hf
  exact h g hg

end

lemma asSafeInteger_intCast {n : ℤ} (h : n.natAbs ≤ maxSafeInteger) :
    asSafeInteger (.number n) = some n := by
  have hint : (n : ℚ).isInt = true := by simp [Rat.isInt]
  simp [asSafeInteger, hint, h]

lemma asSafeInteger_eq_some {v : JsValue} {n : ℤ} (h : asSafeInteger v = some n) :
    v = .number n ∧ n.natAbs ≤ maxSafeInteger := by
  cases v with
  | number q =>
    simp only [asSafeInteger] at h
    split_ifs at h with hq
    cases h
    have hden : q.den = 1 := by simpa [Rat.isInt] using hq.1
    have hint : ((q.num : ℤ) : ℚ) = q := Rat.coe_int_num_of_den_eq_one hden
    exact ⟨by rw [hint], hq.2⟩
  | _ => cases h

end JsValue
end Redskilled.Foundation
