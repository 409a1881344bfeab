import Mathlib.Data.List.DropRight

/-!
# JavaScript text

A string is a list of characters. This file has the operations of the language
that parsers are written with: the whitespace class `\s` of its regular
expressions, the split at `/\s+/`, and the order of strings by UTF-16 code
units.
-/
namespace Redskilled.Foundation
open List

abbrev Text := List Char

instance : LawfulBEq Text := inferInstance

/-- The characters of a text are gone through, not all there are. -/
instance decidableAll (t : List Char) (p : Char → Prop) [DecidablePred p] :
    Decidable (∀ c ∈ t, p c) :=
  List.decidableBAll p t

namespace Text

/-- The class `\s`: white space and line terminators. -/
def isWhitespace (c : Char) : Bool :=
  let n := c.toNat
  (9 ≤ n && n ≤ 13) || n == 32 || n == 0xa0 || n == 0x1680 || (0x2000 ≤ n && n ≤ 0x200a) ||
    n == 0x2028 || n == 0x2029 || n == 0x202f || n == 0x205f || n == 0x3000 || n == 0xfeff

def WhitespaceFree (t : Text) : Prop := ∀ c ∈ t, isWhitespace c = false

instance (t : Text) : Decidable (WhitespaceFree t) :=
  List.decidableBAll (isWhitespace · = false) t

/-- `t.split(/\s+/)`: the pieces between maximal runs of whitespace, an empty
piece first (last) where the text starts (ends) with one. -/
def splitWhitespace : Text → List Text
  | [] => [[]]
  | c :: t =>
    if isWhitespace c then
      if t.head?.any isWhitespace then splitWhitespace t else [] :: splitWhitespace t
    else
      match splitWhitespace t with
      | [] => [[c]]
      | piece :: pieces => (c :: piece) :: pieces

/-- The UTF-16 code units of one character. -/
def utf16 (c : Char) : List Nat :=
  let n := c.toNat
  if n < 0x10000 then [n]
  else [0xd800 + (n - 0x10000) / 0x400, 0xdc00 + (n - 0x10000) % 0x400]

/-- `a < b` on strings. -/
def utf16Lt (a b : Text) : Bool :=
  decide (a.flatMap utf16 < b.flatMap utf16)

/-- One character inside `JSON.stringify(t)`. -/
def jsonEscape (c : Char) : Text :=
  let n := c.toNat
  if c = '"' then ['\\', '"']
  else if c = '\\' then ['\\', '\\']
  else if n = 8 then ['\\', 'b']
  else if n = 9 then ['\\', 't']
  else if n = 10 then ['\\', 'n']
  else if n = 12 then ['\\', 'f']
  else if n = 13 then ['\\', 'r']
  else if n < 32 then ['\\', 'u', '0', '0', Nat.digitChar (n / 16), Nat.digitChar (n % 16)]
  else [c]

/-- `JSON.stringify(t)`. -/
def jsonString (t : Text) : Text := '"' :: t.flatMap jsonEscape ++ ['"']

/-- `String(n)`. -/
def number (n : Nat) : Text := (Nat.repr n).toList

/-- `t.trim()`. -/
def trim (t : Text) : Text := (t.dropWhile isWhitespace).rdropWhile isWhitespace

lemma cut_unique {c : Char} {front front' back back' : Text} (hfront : c ∉ front)
    (hfront' : c ∉ front') (h : front ++ c :: back = front' ++ c :: back') :
    front = front' ∧ back = back' := by
  induction front generalizing front' with
  | nil =>
    cases front' with
    | nil => exact ⟨rfl, (cons.inj h).2⟩
    | cons d rest => exact absurd ((cons.inj h).1 ▸ mem_cons_self) hfront'
  | cons a rest ih =>
    cases front' with
    | nil => exact absurd ((cons.inj h).1 ▸ mem_cons_self) hfront
    | cons d rest' =>
      obtain ⟨rfl, hrest⟩ := cons.inj h
      have hparts := ih (fun hmem => hfront (mem_cons_of_mem _ hmem))
        (fun hmem => hfront' (mem_cons_of_mem _ hmem)) hrest
      exact ⟨congrArg _ hparts.1, hparts.2⟩

lemma number_injective {m n : Nat} (h : number m = number n) : m = n := by
  have hdig : Nat.toDigits 10 m = Nat.toDigits 10 n := by
    simpa only [number, Nat.toList_repr] using h
  have hvalue := congrArg (Nat.ofDigitChars 10 · 0) hdig
  simpa only [Nat.ofDigitChars_toDigits (b := 10) (by decide) (by decide)] using hvalue

lemma isDigit_of_mem_number {n : Nat} {c : Char} (h : c ∈ number n) : c.isDigit = true := by
  have h' : c ∈ Nat.toDigits 10 n := by simpa [number, Nat.repr] using h
  exact Nat.isDigit_of_mem_toDigits (by decide) (by decide) h'

lemma isWhitespace_of_isDigit {c : Char} (h : c.isDigit = true) : isWhitespace c = false := by
  simp only [Char.isDigit, Bool.and_eq_true, decide_eq_true_eq, ge_iff_le,
    UInt32.le_iff_toNat_le] at h
  have hlo : 48 ≤ c.toNat := h.1
  have hhi : c.toNat ≤ 57 := h.2
  have heq : ∀ n : Nat, (c.toNat == n) = decide (c.toNat = n) := fun n => rfl
  simp only [isWhitespace, heq, Bool.or_eq_false_iff, Bool.and_eq_false_iff,
    decide_eq_false_iff_not]
  omega

lemma whitespaceFree_number (n : Nat) : WhitespaceFree (number n) :=
  fun _ hc => isWhitespace_of_isDigit (isDigit_of_mem_number hc)

lemma trim_of_free {t : Text} (h : WhitespaceFree t) : trim t = t := by
  have hdrop : t.dropWhile isWhitespace = t := by
    cases t with
    | nil => rfl
    | cons c t => exact dropWhile_cons_of_neg (by simp [h c mem_cons_self])
  rw [trim, hdrop, rdropWhile_eq_self_iff]
  exact fun hne => by simp [h _ (getLast_mem hne)]

lemma trim_trim (t : Text) : trim (trim t) = trim t := by
  have hdrop : (trim t).dropWhile isWhitespace = trim t := by
    rw [dropWhile_eq_self_iff]
    intro hlen
    have hne : trim t ≠ [] := ne_nil_of_length_pos hlen
    have hpref : trim t <+: t.dropWhile isWhitespace := rdropWhile_prefix _ _
    have hdropp : t.dropWhile isWhitespace ≠ [] := by
      intro hnil
      rw [hnil, prefix_nil] at hpref
      exact hne hpref
    have hhead := head_dropWhile_not isWhitespace hdropp
    rw [← head_eq_getElem, List.IsPrefix.head hpref hne]
    · simpa using hhead
    · exact hne
  rw [trim, hdrop]
  exact rdropWhile_idempotent _ _

lemma whitespaceFree_append {s t : Text} :
    WhitespaceFree (s ++ t) ↔ WhitespaceFree s ∧ WhitespaceFree t := by
  simp only [WhitespaceFree, mem_append, or_imp, forall_and]

lemma splitWhitespace_of_free {t : Text} (h : WhitespaceFree t) : splitWhitespace t = [t] := by
  induction t with
  | nil => rfl
  | cons c t ih =>
    have hc : isWhitespace c = false := h c (by simp)
    have ht := ih fun d hd => h d (by simp [hd])
    simp [splitWhitespace, hc, ht]

lemma mem_of_splitWhitespace {t w : Text} (h : w ∈ splitWhitespace t) :
    WhitespaceFree w ∧ ∀ c ∈ w, c ∈ t := by
  induction t generalizing w with
  | nil =>
    rw [mem_singleton.mp h]
    exact ⟨fun c hc => absurd hc not_mem_nil, fun c hc => absurd hc not_mem_nil⟩
  | cons d t ih =>
    have hrest : w ∈ splitWhitespace t → WhitespaceFree w ∧ ∀ c ∈ w, c ∈ d :: t := fun hw =>
      ⟨(ih hw).1, fun c hc => mem_cons_of_mem d ((ih hw).2 c hc)⟩
    rw [splitWhitespace] at h
    split_ifs at h with hspace
    · exact hrest h
    · rcases mem_cons.mp h with rfl | h
      · exact ⟨fun c hc => absurd hc not_mem_nil, fun c hc => absurd hc not_mem_nil⟩
      · exact hrest h
    · have hd : isWhitespace d = false := Bool.eq_false_iff.mpr hspace
      split at h
      · rw [mem_singleton.mp h]
        exact ⟨by simpa [WhitespaceFree] using hd, by simp⟩
      · next piece pieces hspl =>
        rcases mem_cons.mp h with rfl | h
        · obtain ⟨hfree, hsub⟩ := ih (hspl ▸ mem_cons_self)
          refine ⟨fun c hc => ?_, fun c hc => ?_⟩
          · rcases mem_cons.mp hc with rfl | hc
            · exact hd
            · exact hfree c hc
          · rcases mem_cons.mp hc with rfl | hc
            · exact mem_cons_self
            · exact mem_cons_of_mem _ (hsub c hc)
        · exact hrest (hspl ▸ mem_cons_of_mem _ h)

lemma splitWhitespace_append_space {t u : Text} (h : WhitespaceFree t)
    (hu : u.head?.any isWhitespace = false) :
    splitWhitespace (t ++ ' ' :: u) = t :: splitWhitespace u := by
  induction t with
  | nil =>
    have hs : isWhitespace ' ' = true := by decide
    simp [splitWhitespace, hs, hu]
  | cons c t ih =>
    have hc : isWhitespace c = false := h c (by simp)
    have ht := ih fun d hd => h d (by simp [hd])
    simp [splitWhitespace, hc, ht]

lemma splitWhitespace_intercalate {ws : List Text} (hne : ws ≠ [])
    (h : ∀ w ∈ ws, WhitespaceFree w ∧ w ≠ []) :
    splitWhitespace (List.intercalate [' '] ws) = ws := by
  induction ws with
  | nil => exact absurd rfl hne
  | cons w ws ih =>
    cases ws with
    | nil => simpa [intercalate] using splitWhitespace_of_free (h w (by simp)).1
    | cons v vs =>
      have hv := ih (by simp) fun x hx => h x (by simp [hx])
      have hhead : (intercalate [' '] (v :: vs)).head?.any isWhitespace = false := by
        obtain ⟨hfree, hvne⟩ := h v (by simp)
        obtain ⟨c, v', rfl⟩ := exists_cons_of_ne_nil hvne
        have hc : isWhitespace c = false := hfree c (by simp)
        cases vs <;> simp [intercalate, hc]
      have hspl := splitWhitespace_append_space (h w (by simp)).1 hhead
      rw [hv] at hspl
      simpa [intercalate] using hspl

end Text
end Redskilled.Foundation
