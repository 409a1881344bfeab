import Redskilled.Foundation.NumericText

/-!
# The text of an instant

An instant is counted in milliseconds from the beginning of 1970. Its text names the day of the
proleptic Gregorian calendar and the time in UTC; a year beyond four digits has a sign and six.
-/
namespace Redskilled.Foundation.IsoDate
open Foundation List

def civil (days : ℤ) : ℤ × ℕ × ℕ :=
  let shifted := days + 719468
  let era := shifted / 146097
  let doe := (shifted - era * 146097).toNat
  let yoe := (doe - doe / 1460 + doe / 36524 - doe / 146096) / 365
  let doy := doe - (365 * yoe + yoe / 4 - yoe / 100)
  let mp := (5 * doy + 2) / 153
  let day := doy - (153 * mp + 2) / 5 + 1
  let month := if mp < 10 then mp + 3 else mp - 9
  ((yoe : ℤ) + era * 400 + if month ≤ 2 then 1 else 0, month, day)

def pad (width n : ℕ) : Text :=
  List.replicate (width - (Text.number n).length) '0' ++ Text.number n

def yearText (year : ℤ) : Text :=
  if 0 ≤ year ∧ year ≤ 9999 then pad 4 year.toNat
  else (if year < 0 then '-' else '+') :: pad 6 year.natAbs

def dateText (days : ℤ) : Text :=
  yearText (civil days).1 ++ '-' :: pad 2 (civil days).2.1 ++ '-' :: pad 2 (civil days).2.2

def timeText (ms : ℕ) : Text :=
  pad 2 (ms / 3600000) ++ ':' :: pad 2 (ms / 60000 % 60) ++ ':' :: pad 2 (ms / 1000 % 60) ++
    '.' :: pad 3 (ms % 1000)

def toISOString (ms : ℤ) : Option Text :=
  if ms.natAbs ≤ 8640000000000000 then
    some (dateText (ms / 86400000) ++ 'T' :: timeText (ms % 86400000).toNat ++ ['Z'])
  else none

example : toISOString 1781133024000 = some "2026-06-10T23:10:24.000Z".toList := by decide +kernel

def IsoChar (c : Char) : Prop := c.isDigit = true ∨ c ∈ ['-', '+', ':', '.', 'T', 'Z']

lemma isoChar_pad {width n : ℕ} {c : Char} (h : c ∈ pad width n) : IsoChar c := by
  rcases mem_append.mp h with h | h
  · rw [eq_of_mem_replicate h]
    exact .inl (by decide)
  · exact .inl (Text.isDigit_of_mem_number h)

lemma isoChar_cons {d c : Char} {t : Text} (hd : d ∈ ['-', '+', ':', '.', 'T', 'Z'])
    (ht : ∀ c ∈ t, IsoChar c) (h : c ∈ d :: t) : IsoChar c := by
  rcases mem_cons.mp h with rfl | h
  · exact .inr hd
  · exact ht c h

lemma isoChar_yearText {year : ℤ} {c : Char} (h : c ∈ yearText year) : IsoChar c := by
  unfold yearText at h
  split_ifs at h
  · exact isoChar_pad h
  · exact isoChar_cons (by decide) (fun _ => isoChar_pad) h
  · exact isoChar_cons (by decide) (fun _ => isoChar_pad) h

lemma isoChar_dateText {days : ℤ} {c : Char} (h : c ∈ dateText days) : IsoChar c := by
  rcases mem_append.mp h with h | h
  · rcases mem_append.mp h with h | h
    · exact isoChar_yearText h
    · exact isoChar_cons (by decide) (fun _ => isoChar_pad) h
  · exact isoChar_cons (by decide) (fun _ => isoChar_pad) h

lemma isoChar_timeText {ms : ℕ} {c : Char} (h : c ∈ timeText ms) : IsoChar c := by
  rcases mem_append.mp h with h | h
  · rcases mem_append.mp h with h | h
    · rcases mem_append.mp h with h | h
      · exact isoChar_pad h
      · exact isoChar_cons (by decide) (fun _ => isoChar_pad) h
    · exact isoChar_cons (by decide) (fun _ => isoChar_pad) h
  · exact isoChar_cons (by decide) (fun _ => isoChar_pad) h

lemma isoChar_toISOString {ms : ℤ} {t : Text} (h : toISOString ms = some t) :
    t ≠ [] ∧ ∀ c ∈ t, IsoChar c := by
  unfold toISOString at h
  split_ifs at h
  cases h
  constructor
  · exact append_ne_nil_of_right_ne_nil _ (cons_ne_nil _ _)
  · intro c hc
    rcases mem_append.mp hc with hc | hc
    · rcases mem_append.mp hc with hc | hc
      · exact isoChar_dateText hc
      · exact isoChar_cons (by decide) (fun _ => isoChar_timeText) hc
    · exact isoChar_cons (by decide) (fun _ h => by cases h) hc

end Redskilled.Foundation.IsoDate
