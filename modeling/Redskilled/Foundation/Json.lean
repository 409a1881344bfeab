import Redskilled.Foundation.JsText

/-!
# JSON

`JSON.stringify` and `JSON.parse` on the values that JSON has. A number is kept as the
text it is written with. A string is read as UTF-16 code units; one that has half of a
surrogate pair is no text here, and is not read.
-/
namespace Redskilled.Foundation
open List Option

def isNumberChar (c : Char) : Bool :=
  c.isDigit || c == '-' || c == '+' || c == '.' || c == 'e' || c == 'E'

/-- The end of a number: nothing, or an exponent. -/
def isExponent : Text → Bool
  | [] => true
  | c :: t =>
    (c == 'e' || c == 'E') &&
      match t with
      | [] => false
      | d :: t =>
        if d == '+' || d == '-' then !t.isEmpty && t.all Char.isDigit
        else d.isDigit && t.all Char.isDigit

/-- What may come behind the integral part. -/
def isFraction : Text → Bool
  | '.' :: c :: t => c.isDigit && isExponent (t.dropWhile Char.isDigit)
  | t => isExponent t

def isUnsigned : Text → Bool
  | [] => false
  | c :: t => if c == '0' then isFraction t else c.isDigit && isFraction (t.dropWhile Char.isDigit)

def isNumberToken (t : Text) : Bool :=
  t.all isNumberChar &&
    match t with
    | [] => false
    | c :: u => if c == '-' then isUnsigned u else isUnsigned t

structure JsonNumber where
  text : Text
  token : isNumberToken text = true

inductive Json where
  | null
  | bool (b : Bool)
  | number (n : JsonNumber)
  | string (t : Text)
  | array (items : List Json)
  | object (fields : List (Text × Json))

namespace Json

/-- No object has two fields of one name. -/
inductive Proper : Json → Prop
  | null : Proper .null
  | bool (b : Bool) : Proper (.bool b)
  | number (n : JsonNumber) : Proper (.number n)
  | string (t : Text) : Proper (.string t)
  | array {items : List Json} (items_proper : ∀ v ∈ items, Proper v) : Proper (.array items)
  | object {fields : List (Text × Json)} (nodup : (fields.map Prod.fst).Nodup)
      (fields_proper : ∀ f ∈ fields, Proper f.2) : Proper (.object fields)

mutual

/-- `JSON.stringify(value)`. -/
def stringify : Json → Text
  | .null => "null".toList
  | .bool true => "true".toList
  | .bool false => "false".toList
  | .number n => n.text
  | .string t => Text.jsonString t
  | .array items => '[' :: (stringifyItems items ++ [']'])
  | .object fields => '{' :: (stringifyFields fields ++ ['}'])

def stringifyItems : List Json → Text
  | [] => []
  | v :: vs => stringify v ++ stringifyMoreItems vs

def stringifyMoreItems : List Json → Text
  | [] => []
  | v :: vs => ',' :: (stringify v ++ stringifyMoreItems vs)

def stringifyFields : List (Text × Json) → Text
  | [] => []
  | f :: fs => stringifyField f ++ stringifyMoreFields fs

def stringifyMoreFields : List (Text × Json) → Text
  | [] => []
  | f :: fs => ',' :: (stringifyField f ++ stringifyMoreFields fs)

def stringifyField : Text × Json → Text
  | (key, v) => Text.jsonString key ++ ':' :: stringify v

end

def isSpace (c : Char) : Bool := c == ' ' || c == '\t' || c == '\n' || c == '\r'

def skip (t : Text) : Text := t.dropWhile isSpace

def hexDigit (c : Char) : Option ℕ :=
  if c.isDigit then some (c.toNat - 48)
  else if 'a' ≤ c ∧ c ≤ 'f' then some (c.toNat - 87)
  else if 'A' ≤ c ∧ c ≤ 'F' then some (c.toNat - 55)
  else none

/-- The code unit of `\uabcd`. -/
def hexUnit (a b c d : Char) : Option ℕ := do
  return (((← hexDigit a) * 16 + (← hexDigit b)) * 16 + (← hexDigit c)) * 16 + (← hexDigit d)

def unescape (c : Char) : Option ℕ :=
  if c = '"' then some 34
  else if c = '\\' then some 92
  else if c = '/' then some 47
  else if c = 'b' then some 8
  else if c = 'f' then some 12
  else if c = 'n' then some 10
  else if c = 'r' then some 13
  else if c = 't' then some 9
  else none

def units : Text → Option (List ℕ × Text)
  | [] => none
  | c :: t =>
    if c = '"' then some ([], t)
    else if c = '\\' then
      match t with
      | [] => none
      | e :: t =>
        if e = 'u' then
          match t with
          | a :: b :: c :: d :: t =>
            (hexUnit a b c d).bind fun u => (units t).map fun r => (u :: r.1, r.2)
          | _ => none
        else (unescape e).bind fun u => (units t).map fun r => (u :: r.1, r.2)
    else if c.toNat < 32 then none
    else (units t).map fun r => (Text.utf16 c ++ r.1, r.2)

/-- The text of code units, none where half of a pair stands alone. -/
def ofUtf16 : List ℕ → Option Text
  | [] => some []
  | u :: us =>
    if u < 0xd800 ∨ 0xdfff < u then (ofUtf16 us).map (Char.ofNat u :: ·)
    else
      match us with
      | [] => none
      | v :: us =>
        if u < 0xdc00 ∧ 0xdc00 ≤ v ∧ v ≤ 0xdfff then
          (ofUtf16 us).map (Char.ofNat (0x10000 + (u - 0xd800) * 0x400 + (v - 0xdc00)) :: ·)
        else none

def readString (t : Text) : Option (Text × Text) :=
  (units t).bind fun r => (ofUtf16 r.1).map fun s => (s, r.2)

def readNumber (t : Text) : Option (Json × Text) :=
  let token := t.takeWhile isNumberChar
  if h : isNumberToken token = true then some (.number ⟨token, h⟩, t.dropWhile isNumberChar)
  else none

/-- A field before the others. -/
def addField (key : Text) (v : Json) (fields : List (Text × Json)) : List (Text × Json) :=
  (key, ((fields.find? fun f => f.1 == key).map Prod.snd).getD v) :: fields.filter fun f => f.1 != key

mutual

def readValue : ℕ → Text → Option (Json × Text)
  | 0, _ => none
  | fuel + 1, t =>
    match skip t with
    | [] => none
    | c :: t =>
      if c = '"' then (readString t).map fun r => (.string r.1, r.2)
      else if c = '[' then
        match skip t with
        | ']' :: t => some (.array [], t)
        | t => (readItems fuel t).map fun r => (.array r.1, r.2)
      else if c = '{' then
        match skip t with
        | '}' :: t => some (.object [], t)
        | t => (readFields fuel t).map fun r => (.object r.1, r.2)
      else if c = 'n' then
        match t with
        | 'u' :: 'l' :: 'l' :: t => some (.null, t)
        | _ => none
      else if c = 't' then
        match t with
        | 'r' :: 'u' :: 'e' :: t => some (.bool true, t)
        | _ => none
      else if c = 'f' then
        match t with
        | 'a' :: 'l' :: 's' :: 'e' :: t => some (.bool false, t)
        | _ => none
      else readNumber (c :: t)

/-- The items up to the bracket that closes them. -/
def readItems : ℕ → Text → Option (List Json × Text)
  | 0, _ => none
  | fuel + 1, t =>
    (readValue fuel t).bind fun r =>
      match skip r.2 with
      | ',' :: t => (readItems fuel t).map fun more => (r.1 :: more.1, more.2)
      | ']' :: t => some ([r.1], t)
      | _ => none

def readFields : ℕ → Text → Option (List (Text × Json) × Text)
  | 0, _ => none
  | fuel + 1, t =>
    match skip t with
    | '"' :: t =>
      (readString t).bind fun key =>
        match skip key.2 with
        | ':' :: t =>
          (readValue fuel t).bind fun r =>
            match skip r.2 with
            | ',' :: t =>
              (readFields fuel t).map fun more => (addField key.1 r.1 more.1, more.2)
            | '}' :: t => some ([(key.1, r.1)], t)
            | _ => none
        | _ => none
    | _ => none

end

/-- `JSON.parse(text)`, none where it throws. -/
def parse (t : Text) : Option Json :=
  (readValue (t.length + 1) t).bind fun r => if skip r.2 = [] then some r.1 else none

lemma skip_of_parse {t : Text} {fields : List (Text × Json)}
    (h : parse t = some (.object fields)) : ∃ rest, skip t = '{' :: rest := by
  obtain ⟨⟨v, rest⟩, hread, hv⟩ := bind_eq_some_iff.mp h
  split_ifs at hv
  cases hv
  rw [readValue] at hread
  cases hskip : skip t with
  | nil =>
    rw [hskip] at hread
    cases hread
  | cons c u =>
    rw [hskip] at hread
    by_cases hc : c = '{'
    · exact ⟨u, by rw [hc]⟩
    · exfalso
      -- each other value has another constructor
      simp only [if_neg hc, readNumber] at hread
      split_ifs at hread
      · obtain ⟨r, -, hr⟩ := map_eq_some_iff.mp hread
        cases hr
      · split at hread
        · cases hread
        · obtain ⟨r, -, hr⟩ := map_eq_some_iff.mp hread
          cases hr
      all_goals first
        | cases hread
        | split at hread <;> cases hread

lemma parse_of_whitespace {t : Text} (h : ∀ c ∈ t, Text.isWhitespace c = true) : parse t = none := by
  have hskip : ∀ c ∈ (skip t).head?, Text.isWhitespace c = true := by
    intro c hc
    exact h c ((dropWhile_sublist _).mem (mem_of_mem_head? hc))
  unfold parse
  rw [readValue]
  cases hs : skip t with
  | nil => rfl
  | cons c u =>
    have hc : Text.isWhitespace c = true := hskip c (by rw [hs]; rfl)
    have hne : ∀ d : Char, Text.isWhitespace d = false → c ≠ d := by
      rintro d hd rfl
      rw [hc] at hd
      cases hd
    have hnumb : isNumberChar c = false := by
      cases hcase : isNumberChar c with
      | false => rfl
      | true =>
        have hdig : c.isDigit = true := by
          simpa [isNumberChar, hne '-' rfl, hne '+' rfl, hne '.' rfl, hne 'e' rfl, hne 'E' rfl]
            using hcase
        rw [Text.isWhitespace_of_isDigit hdig] at hc
        cases hc
    simp only [if_neg (hne '"' rfl), if_neg (hne '[' rfl), if_neg (hne '{' rfl), if_neg (hne 'n' rfl),
      if_neg (hne 't' rfl), if_neg (hne 'f' rfl), readNumber]
    rw [takeWhile_cons_of_neg (by simp [hnumb])]
    rfl

lemma hexUnit_control {n : ℕ} (h : n < 32) :
    hexUnit '0' '0' (Nat.digitChar (n / 16)) (Nat.digitChar (n % 16)) = some n := by
  have hall : ∀ n < 32,
      hexUnit '0' '0' (Nat.digitChar (n / 16)) (Nat.digitChar (n % 16)) = some n := by
    decide
  exact hall n h

lemma utf16_of_lt {c : Char} (h : c.toNat < 0x10000) : Text.utf16 c = [c.toNat] := by
  rw [Text.utf16, if_pos h]

lemma units_short {e : Char} {u : ℕ} (hu : e ≠ 'u') (he : unescape e = some u) (t : Text) :
    units ('\\' :: e :: t) = (units t).map fun r => (u :: r.1, r.2) := by
  rw [units.eq_def]
  simp only
  rw [if_neg (by decide), if_pos trivial, if_neg hu, he]
  rfl

lemma units_plain {c : Char} (hquote : c ≠ '"') (hslash : c ≠ '\\') (hcontr : ¬c.toNat < 32)
    (t : Text) : units (c :: t) = (units t).map fun r => (Text.utf16 c ++ r.1, r.2) := by
  rw [units.eq_def]
  simp only
  rw [if_neg hquote, if_neg hslash, if_neg hcontr]

lemma units_jsonEscape (c : Char) (t : Text) :
    units (Text.jsonEscape c ++ t) = (units t).map fun r => (Text.utf16 c ++ r.1, r.2) := by
  have hshort : ∀ {e : Char} {u : ℕ}, e ≠ 'u' → unescape e = some u → Text.utf16 c = [u] →
      units ('\\' :: e :: t) = (units t).map fun r => (Text.utf16 c ++ r.1, r.2) := by
    intro e u hu he hutf16
    rw [hutf16]
    exact units_short hu he t
  have hcode : ∀ {u : ℕ}, c.toNat = u → u < 0x10000 → Text.utf16 c = [u] := by
    intro u hu hlt
    subst hu
    exact utf16_of_lt hlt
  unfold Text.jsonEscape
  simp only
  split_ifs with hquote hslash h₈ h₉ h₁₀ h₁₂ h₁₃ hcontr
  · exact @hshort '"' 34 (by decide) (by decide) (by rw [hquote]; rfl)
  · exact @hshort '\\' 92 (by decide) (by decide) (by rw [hslash]; rfl)
  · exact hshort (by decide) (by decide) (hcode h₈ (by omega))
  · exact hshort (by decide) (by decide) (hcode h₉ (by omega))
  · exact hshort (by decide) (by decide) (hcode h₁₀ (by omega))
  · exact hshort (by decide) (by decide) (hcode h₁₂ (by omega))
  · exact hshort (by decide) (by decide) (hcode h₁₃ (by omega))
  · simp only [cons_append, nil_append]
    rw [units.eq_def]
    simp only
    rw [if_neg (by decide), if_pos trivial, if_pos trivial, hexUnit_control hcontr,
      utf16_of_lt (by omega)]
    rfl
  · exact units_plain hquote hslash hcontr t

lemma units_escaped (t rest : Text) :
    units (t.flatMap Text.jsonEscape ++ '"' :: rest) = some (t.flatMap Text.utf16, rest) := by
  induction t with
  | nil =>
    rw [flatMap_nil, nil_append, units.eq_def]
    rfl
  | cons c t ih =>
    rw [flatMap_cons, append_assoc, units_jsonEscape, ih]
    rfl

lemma ofUtf16_utf16 (c : Char) (us : List ℕ) :
    ofUtf16 (Text.utf16 c ++ us) = (ofUtf16 us).map (c :: ·) := by
  have hback := Char.ofNat_toNat c
  have hval : c.toNat < 0xd800 ∨ 0xdfff < c.toNat ∧ c.toNat < 0x110000 := c.valid
  unfold Text.utf16
  generalize c.toNat = n at hback hval
  simp only
  split_ifs with hsmall
  · rw [singleton_append, ofUtf16.eq_def]
    simp only
    rw [if_pos (by omega), hback]
  · have hcode : 0x10000 + (0xd800 + (n - 0x10000) / 0x400 - 0xd800) * 0x400 +
        (0xdc00 + (n - 0x10000) % 0x400 - 0xdc00) = n := by
      omega
    simp only [cons_append, nil_append]
    rw [ofUtf16.eq_def]
    simp only
    rw [if_neg (by omega), if_pos (by omega), hcode, hback]

lemma ofUtf16_flatMap (t : Text) : ofUtf16 (t.flatMap Text.utf16) = some t := by
  induction t with
  | nil => rfl
  | cons c t ih =>
    rw [flatMap_cons, ofUtf16_utf16, ih]
    rfl

lemma readString_escaped (t rest : Text) :
    readString (t.flatMap Text.jsonEscape ++ '"' :: rest) = some (t, rest) := by
  rw [readString, units_escaped, bind_some, ofUtf16_flatMap]
  rfl

lemma jsonString_append (t rest : Text) :
    Text.jsonString t ++ rest = '"' :: (t.flatMap Text.jsonEscape ++ '"' :: rest) := by
  simp [Text.jsonString]

def Ends (t : Text) : Prop := ∀ c ∈ t.head?, isNumberChar c = false

lemma ends_cons {c : Char} (h : isNumberChar c = false) (t : Text) : Ends (c :: t) := by
  intro d hd
  cases hd
  exact h

lemma skip_cons {c : Char} (h : isSpace c = false) (t : Text) : skip (c :: t) = c :: t := by
  rw [skip, dropWhile_cons_of_neg (by simp [h])]

lemma number_head (n : JsonNumber) : ∃ c t, n.text = c :: t ∧ isNumberChar c = true := by
  obtain ⟨text, htok⟩ := n
  cases text with
  | nil => simp [isNumberToken] at htok
  | cons c t =>
    rw [isNumberToken.eq_def, Bool.and_eq_true] at htok
    exact ⟨c, t, rfl, all_eq_true.mp htok.1 c mem_cons_self⟩

lemma readNumber_text (n : JsonNumber) {rest : Text} (h : Ends rest) :
    readNumber (n.text ++ rest) = some (.number n, rest) := by
  have htok := n.token
  rw [isNumberToken.eq_def, Bool.and_eq_true] at htok
  have hall : ∀ c ∈ n.text, isNumberChar c = true := all_eq_true.mp htok.1
  have htake : rest.takeWhile isNumberChar = [] := by
    cases rest with
    | nil => rfl
    | cons c rest => exact takeWhile_cons_of_neg (by simp [h c rfl])
  have hdrop : rest.dropWhile isNumberChar = rest := by
    cases rest with
    | nil => rfl
    | cons c rest => exact dropWhile_cons_of_neg (by simp [h c rfl])
  have hword : (n.text ++ rest).takeWhile isNumberChar = n.text := by
    rw [takeWhile_append_of_pos hall, htake, append_nil]
  have hrest : (n.text ++ rest).dropWhile isNumberChar = rest := by
    rw [dropWhile_append_of_pos hall, hdrop]
  simp only [readNumber, hword, hrest, n.token, dif_pos]

lemma special_of_isNumberChar {c : Char} (h : isNumberChar c = true) :
    isSpace c = false ∧ c ≠ '"' ∧ c ≠ '[' ∧ c ≠ '{' ∧ c ≠ 'n' ∧ c ≠ 't' ∧ c ≠ 'f' ∧ c ≠ ']' := by
  have hne : ∀ d : Char, isNumberChar d = false → c ≠ d := by
    intro d hd hcd
    rw [hcd, hd] at h
    cases h
  refine ⟨?_, hne _ rfl, hne _ rfl, hne _ rfl, hne _ rfl, hne _ rfl, hne _ rfl, hne _ rfl⟩
  simp [isSpace, hne ' ' rfl, hne '\t' rfl, hne '\n' rfl, hne '\r' rfl]

lemma stringify_head (v : Json) :
    ∃ c t, stringify v = c :: t ∧ isSpace c = false ∧ c ≠ ']' := by
  cases v with
  | null => exact ⟨'n', _, rfl, rfl, by decide⟩
  | bool b =>
    cases b with
    | true => exact ⟨'t', _, rfl, rfl, by decide⟩
    | false => exact ⟨'f', _, rfl, rfl, by decide⟩
  | number n =>
    obtain ⟨c, t, htext, hc⟩ := number_head n
    have hspec := special_of_isNumberChar hc
    exact ⟨c, t, by rw [stringify, htext], hspec.1, hspec.2.2.2.2.2.2.2⟩
  | string t => exact ⟨'"', _, rfl, rfl, by decide⟩
  | array items => exact ⟨'[', _, rfl, rfl, by decide⟩
  | object fields => exact ⟨'{', _, rfl, rfl, by decide⟩

lemma readValue_number (fuel : ℕ) (n : JsonNumber) {rest : Text} (h : Ends rest) :
    readValue (fuel + 1) (n.text ++ rest) = some (.number n, rest) := by
  obtain ⟨c, t, htext, hc⟩ := number_head n
  obtain ⟨hspace, hquote, hbrack, hbrace, hn, ht, hf, -⟩ := special_of_isNumberChar hc
  have hnumb := readNumber_text n h
  rw [htext, cons_append] at hnumb ⊢
  rw [readValue, skip_cons hspace]
  simp only
  rw [if_neg hquote, if_neg hbrack, if_neg hbrace, if_neg hn, if_neg ht, if_neg hf]
  exact hnumb

lemma addField_new {key : Text} {v : Json} {fields : List (Text × Json)}
    (h : key ∉ fields.map Prod.fst) : addField key v fields = (key, v) :: fields := by
  have hne : ∀ f ∈ fields, f.1 ≠ key := by
    intro f hf hkey
    exact h (hkey ▸ mem_map_of_mem hf)
  have hfind : fields.find? (fun f => f.1 == key) = none := by
    rw [find?_eq_none]
    intro f hf
    simp [hne f hf]
  have hfilt : fields.filter (fun f => f.1 != key) = fields := by
    rw [filter_eq_self]
    intro f hf
    simp [hne f hf]
  rw [addField, hfind, hfilt]
  rfl

section
variable {fuel : ℕ}
  (readsValue : ∀ v rest, Proper v → (stringify v).length + 1 ≤ fuel → Ends rest →
    readValue fuel (stringify v ++ rest) = some (v, rest))
  (readsItems : ∀ v vs rest, (∀ w ∈ v :: vs, Proper w) →
    (stringifyItems (v :: vs)).length + 2 ≤ fuel →
      readItems fuel (stringifyItems (v :: vs) ++ ']' :: rest) = some (v :: vs, rest))
  (readsFields : ∀ f fs rest, ((f :: fs).map Prod.fst).Nodup → (∀ g ∈ f :: fs, Proper g.2) →
    (stringifyFields (f :: fs)).length + 2 ≤ fuel →
      readFields fuel (stringifyFields (f :: fs) ++ '}' :: rest) = some (f :: fs, rest))

include readsValue readsItems in
lemma readItems_step (v : Json) (vs : List Json) (rest : Text)
    (hprop : ∀ w ∈ v :: vs, Proper w) (hfuel : (stringifyItems (v :: vs)).length + 2 ≤ fuel + 1) :
    readItems (fuel + 1) (stringifyItems (v :: vs) ++ ']' :: rest) = some (v :: vs, rest) := by
  have hv := hprop v mem_cons_self
  have hlength : (stringifyItems (v :: vs)).length =
      (stringify v).length + (stringifyMoreItems vs).length := length_append
  rw [readItems, stringifyItems, append_assoc]
  cases vs with
  | nil =>
    rw [stringifyMoreItems, nil_append, readsValue v _ hv (by omega) (ends_cons rfl _), bind_some]
    rfl
  | cons w ws =>
    have hmore : stringifyMoreItems (w :: ws) = ',' :: stringifyItems (w :: ws) := rfl
    rw [hmore, length_cons] at hlength
    rw [hmore, cons_append, readsValue v _ hv (by omega) (ends_cons rfl _), bind_some]
    simp only [skip_cons (show isSpace ',' = false from rfl)]
    rw [readsItems w ws rest (fun x hx => hprop x (mem_cons_of_mem _ hx)) (by omega)]
    rfl

include readsValue readsFields in
lemma readFields_step (f : Text × Json) (fs : List (Text × Json)) (rest : Text)
    (hnod : ((f :: fs).map Prod.fst).Nodup) (hprop : ∀ g ∈ f :: fs, Proper g.2)
    (hfuel : (stringifyFields (f :: fs)).length + 2 ≤ fuel + 1) :
    readFields (fuel + 1) (stringifyFields (f :: fs) ++ '}' :: rest) = some (f :: fs, rest) := by
  obtain ⟨key, v⟩ := f
  have hv : Proper v := hprop (key, v) mem_cons_self
  have hlength : (stringifyFields ((key, v) :: fs)).length = (Text.jsonString key).length +
      ((stringify v).length + 1) + (stringifyMoreFields fs).length := by
    simp only [stringifyFields, stringifyField, length_append, length_cons]
  have hread : readFields (fuel + 1) (stringifyFields ((key, v) :: fs) ++ '}' :: rest) =
      (readValue fuel (stringify v ++ (stringifyMoreFields fs ++ '}' :: rest))).bind fun r =>
        match skip r.2 with
        | ',' :: t => (readFields fuel t).map fun more => (addField key r.1 more.1, more.2)
        | '}' :: t => some ([(key, r.1)], t)
        | _ => none := by
    rw [readFields, stringifyFields, stringifyField]
    simp only [append_assoc, jsonString_append, cons_append]
    rw [skip_cons rfl]
    simp only
    rw [readString_escaped, bind_some]
    simp only [skip_cons (show isSpace ':' = false from rfl)]
  rw [hread]
  cases fs with
  | nil =>
    rw [stringifyMoreFields, nil_append, readsValue v _ hv (by omega) (ends_cons rfl _), bind_some]
    rfl
  | cons g gs =>
    have hmore : stringifyMoreFields (g :: gs) = ',' :: stringifyFields (g :: gs) := rfl
    rw [hmore, length_cons] at hlength
    rw [hmore, cons_append, readsValue v _ hv (by omega) (ends_cons rfl _), bind_some]
    simp only [skip_cons (show isSpace ',' = false from rfl)]
    rw [map_cons, nodup_cons] at hnod
    rw [readsFields g gs rest hnod.2 (fun x hx => hprop x (mem_cons_of_mem _ hx))
      (by omega), map_some, addField_new hnod.1]

include readsItems readsFields in
lemma readValue_step (v : Json) (rest : Text) (hprop : Proper v)
    (hfuel : (stringify v).length + 1 ≤ fuel + 1) (hends : Ends rest) :
    readValue (fuel + 1) (stringify v ++ rest) = some (v, rest) := by
  cases hprop with
  | null => rfl
  | bool b => cases b <;> rfl
  | number n => exact readValue_number fuel n hends
  | string t =>
    rw [stringify, jsonString_append, readValue, skip_cons rfl]
    simp only [if_true]
    rw [readString_escaped]
    rfl
  | @array items hitems =>
    rw [stringify, length_cons, length_append] at hfuel
    rw [stringify, cons_append, readValue, skip_cons rfl, append_assoc, singleton_append]
    simp only
    rw [if_neg (by decide), if_pos trivial]
    cases items with
    | nil => rfl
    | cons v vs =>
      obtain ⟨c, t, htext, hspace, hc⟩ := stringify_head v
      have hskip : skip (stringifyItems (v :: vs) ++ ']' :: rest) =
          stringifyItems (v :: vs) ++ ']' :: rest := by
        rw [stringifyItems, htext]
        exact skip_cons hspace _
      rw [hskip]
      split
      · next t' hclos =>
          rw [stringifyItems, htext] at hclos
          exact absurd (cons.inj hclos).1 hc
      · rw [readsItems v vs rest hitems (by rw [length_singleton] at hfuel; omega)]
        rfl
  | @object fields hnod hfields =>
    rw [stringify, length_cons, length_append] at hfuel
    rw [stringify, cons_append, readValue, skip_cons rfl, append_assoc, singleton_append]
    simp only
    rw [if_neg (by decide), if_neg (by decide), if_pos trivial]
    cases fields with
    | nil => rfl
    | cons f fs =>
      have hhead : ∃ t, stringifyFields (f :: fs) ++ '}' :: rest = '"' :: t := by
        obtain ⟨key, v⟩ := f
        exact ⟨_, rfl⟩
      obtain ⟨t, ht⟩ := hhead
      have hskip : skip (stringifyFields (f :: fs) ++ '}' :: rest) =
          stringifyFields (f :: fs) ++ '}' :: rest := by
        rw [ht]
        exact skip_cons rfl t
      rw [hskip]
      split
      · next t' hclos =>
          rw [ht] at hclos
          exact absurd (cons.inj hclos).1 (by decide)
      · rw [readsFields f fs rest hnod hfields (by rw [length_singleton] at hfuel; omega)]
        rfl

end

lemma read_stringify (fuel : ℕ) :
    (∀ v rest, Proper v → (stringify v).length + 1 ≤ fuel → Ends rest →
      readValue fuel (stringify v ++ rest) = some (v, rest)) ∧
    (∀ v vs rest, (∀ w ∈ v :: vs, Proper w) → (stringifyItems (v :: vs)).length + 2 ≤ fuel →
      readItems fuel (stringifyItems (v :: vs) ++ ']' :: rest) = some (v :: vs, rest)) ∧
    ∀ f fs rest, ((f :: fs).map Prod.fst).Nodup → (∀ g ∈ f :: fs, Proper g.2) →
      (stringifyFields (f :: fs)).length + 2 ≤ fuel →
        readFields fuel (stringifyFields (f :: fs) ++ '}' :: rest) = some (f :: fs, rest) := by
  induction fuel with
  | zero =>
    refine ⟨?_, ?_, ?_⟩
    · intro v rest _ hfuel
      omega
    · intro v vs rest _ hfuel
      omega
    · intro f fs rest _ _ hfuel
      omega
  | succ fuel ih =>
    obtain ⟨hvalue, hitems, hfields⟩ := ih
    exact ⟨readValue_step hitems hfields, readItems_step hvalue hitems,
      readFields_step hvalue hfields⟩

lemma parse_stringify {v : Json} (h : Proper v) : parse (stringify v) = some v := by
  have hread := (read_stringify ((stringify v).length + 1)).1 v [] h (Nat.le_refl _) nofun
  rw [append_nil] at hread
  rw [parse, hread]
  rfl

lemma newline_notMem_jsonString (t : Text) : '\n' ∉ Text.jsonString t := by
  have hchar : ∀ c : Char, '\n' ∉ Text.jsonEscape c := by
    intro c hmem
    have hdig : ∀ n < 32, Nat.digitChar (n / 16) ≠ '\n' ∧ Nat.digitChar (n % 16) ≠ '\n' := by
      decide
    unfold Text.jsonEscape at hmem
    simp only at hmem
    split_ifs at hmem with h₁ h₂ h₃ h₄ h₅ h₆ h₇ h₈
    · exact absurd hmem (by decide)
    · exact absurd hmem (by decide)
    · exact absurd hmem (by decide)
    · exact absurd hmem (by decide)
    · exact absurd hmem (by decide)
    · exact absurd hmem (by decide)
    · exact absurd hmem (by decide)
    · have hdigits := hdig c.toNat h₈
      simp [hdigits.1.symm, hdigits.2.symm] at hmem
    · obtain rfl := mem_singleton.mp hmem
      exact h₅ rfl
  intro hmem
  rw [Text.jsonString, cons_append, mem_cons, mem_append, mem_flatMap] at hmem
  rcases hmem with hquote | ⟨c, -, hc⟩ | hquote
  · cases hquote
  · exact hchar c hc
  · exact absurd hquote (by decide)

mutual

lemma newline_notMem_stringify : ∀ v : Json, '\n' ∉ v.stringify
  | .null => by decide
  | .bool true => by decide
  | .bool false => by decide
  | .number n => by
      intro hmem
      have htok := n.token
      rw [isNumberToken.eq_def, Bool.and_eq_true] at htok
      exact absurd (List.all_eq_true.mp htok.1 _ hmem) (by decide)
  | .string t => newline_notMem_jsonString t
  | .array items => by
      have hitems := newline_notMem_items items
      simp [stringify, hitems]
  | .object fields => by
      have hfields := newline_notMem_fields fields
      simp [stringify, hfields]

lemma newline_notMem_items : ∀ vs : List Json, '\n' ∉ stringifyItems vs
  | [] => by simp [stringifyItems]
  | v :: vs => by
      simp [stringifyItems, newline_notMem_stringify v, newline_notMem_moreItems vs]

lemma newline_notMem_moreItems : ∀ vs : List Json, '\n' ∉ stringifyMoreItems vs
  | [] => by simp [stringifyMoreItems]
  | v :: vs => by
      simp [stringifyMoreItems, newline_notMem_stringify v, newline_notMem_moreItems vs]

lemma newline_notMem_fields : ∀ fs : List (Text × Json), '\n' ∉ stringifyFields fs
  | [] => by simp [stringifyFields]
  | f :: fs => by
      simp [stringifyFields, newline_notMem_field f, newline_notMem_moreFields fs]

lemma newline_notMem_moreFields : ∀ fs : List (Text × Json), '\n' ∉ stringifyMoreFields fs
  | [] => by simp [stringifyMoreFields]
  | f :: fs => by
      simp [stringifyMoreFields, newline_notMem_field f, newline_notMem_moreFields fs]

lemma newline_notMem_field : ∀ f : Text × Json, '\n' ∉ stringifyField f
  | (key, v) => by
      simp [stringifyField, newline_notMem_jsonString key, newline_notMem_stringify v]

end

end Json
end Redskilled.Foundation
