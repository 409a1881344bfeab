import Redskilled.Foundation.Utf8

/-!
# The path of a URL

How the URL parser reads the path of a URL of the web. Control characters at the end are
stripped and tabs and newlines dropped, the query and the fragment are cut off, and the
rest is split at the slashes of both kinds. A segment that is one dot or two dots, also in
the spelling `%2e`, is a step in the tree and no name.

The names along the way are a stack. Whether a path that starts in a directory ends inside
it is seen without the stack: it is enough to count how many of the directory's own names
were left, and how many others are open.
-/
namespace Redskilled.Foundation.UrlPath
open List

def hexDigit (n : ℕ) : Char := "0123456789ABCDEF".toList.getD n '0'

def percentByte (byte : ℕ) : Text := ['%', hexDigit (byte / 16), hexDigit (byte % 16)]

def percentEncode (inSet : Char → Bool) (t : Text) : Text :=
  t.flatMap fun c => if inSet c then (Utf8.encodeChar c).flatMap percentByte else [c]

/-- What `encodeURIComponent` leaves as it is. -/
def isUnreserved (c : Char) : Bool := c.isAlphanum || "-_.!~*'()".toList.contains c

def encodeURIComponent (t : Text) : Text := percentEncode (fun c => !isUnreserved c) t

/-- The characters that are encoded in a path. -/
def inPathSet (c : Char) : Bool :=
  c.toNat ≤ 0x20 || 0x7e < c.toNat || "\"#<>?^`\x7b\x7d".toList.contains c

inductive Segment where
  | here
  | up
  | name (w : Text)
  deriving DecidableEq

def isSingleDot (w : Text) : Bool := [".".toList, "%2e".toList].contains (w.map Char.toLower)

def isDoubleDot (w : Text) : Bool :=
  ["..".toList, ".%2e".toList, "%2e.".toList, "%2e%2e".toList].contains (w.map Char.toLower)

def classify (encoded : Text) : Segment :=
  if isDoubleDot encoded then .up else if isSingleDot encoded then .here else .name encoded

def readSegment (w : Text) : Segment := classify (percentEncode inPathSet w)

def isControlOrSpace (c : Char) : Bool := c.toNat ≤ 0x20

def isTabOrNewline (c : Char) : Bool := c == '\t' || c == '\n' || c == '\r'

def endsPath (c : Char) : Bool := c == '?' || c == '#'

def isSlash (c : Char) : Bool := c == '/' || c == '\\'

/-- What the parser reads of a path. -/
def trimmed (t : Text) : Text :=
  ((t.rdropWhile isControlOrSpace).filter fun c => !isTabOrNewline c).takeWhile
    fun c => !endsPath c

def segments (t : Text) : List Segment := ((trimmed t).splitOnP isSlash).map readSegment

lemma segments_ne_nil (t : Text) : segments t ≠ [] := by
  simp [segments, splitOnP_ne_nil]

lemma trimmed_sublist (t : Text) : (trimmed t).Sublist t :=
  (takeWhile_sublist _).trans (filter_sublist.trans ( rdropWhile_prefix _ _).sublist)

lemma length_splitOnP {α : Type*} (p : α → Bool) (l : List α) :
    (l.splitOnP p).length = l.countP p + 1 := by
  induction l with
  | nil => simp
  | cons a l ih =>
    rw [splitOnP_cons_eq_if_modifyHead, countP_cons]
    split_ifs with ha
    · rw [length_cons, ih]
    · rw [length_modifyHead, ih]

lemma splitOnP_congr {α : Type*} {p q : α → Bool} {l : List α} (h : ∀ a ∈ l, p a = q a) :
    l.splitOnP p = l.splitOnP q := by
  induction l with
  | nil => simp
  | cons a l ih =>
    rw [splitOnP_cons_eq_if_modifyHead, splitOnP_cons_eq_if_modifyHead, h a mem_cons_self,
      ih fun b hb => h b (mem_cons_of_mem _ hb)]

/-- Without a backslash the path has a segment for each word between its slashes, and no more
segments than parts were written. -/
lemma segments_eq_map {t : Text} (h : '\\' ∉ t) :
    segments t = ((trimmed t).splitOn '/').map readSegment ∧
      ((trimmed t).splitOn '/').length ≤ (t.splitOn '/').length := by
  constructor
  · unfold segments
    congr 1
    apply splitOnP_congr
    intro c hc
    have hne : c ≠ '\\' := by
      rintro rfl
      exact h ((trimmed_sublist t).subset hc)
    simp [isSlash, hne]
  · rw [splitOn, splitOn, length_splitOnP, length_splitOnP]
    exact Nat.succ_le_succ ((trimmed_sublist t).countP_le)

lemma rdropWhile_append_cons {α : Type*} {p : α → Bool} {a : α} (ha : p a = false)
    (front back : List α) :
    (front ++ a :: back).rdropWhile p = front ++ a :: back.rdropWhile p := by
  induction back using reverseRecOn with
  | nil => rw [rdropWhile_concat_neg p front a (by simp [ha])]; rfl
  | append_singleton back b ih =>
    rw [← cons_append, ← append_assoc]
    by_cases hb : p b = true
    · rw [rdropWhile_concat_pos p _ b hb, rdropWhile_concat_pos p _ b hb, ih]
    · rw [rdropWhile_concat_neg p _ b hb, rdropWhile_concat_neg p _ b hb]
      simp

/-- A character that the parser neither drops nor stops at. -/
def isPlain (c : Char) : Bool :=
  !isControlOrSpace c && !endsPath c && !isSlash c

variable {c : Char} {t w : Text}

lemma isTabOrNewline_of_plain (h : isPlain c = true) : isTabOrNewline c = false := by
  by_contra hc
  simp only [isTabOrNewline, Bool.or_eq_true, beq_iff_eq, Bool.not_eq_false] at hc
  rcases hc with (rfl | rfl) | rfl <;> revert h <;> decide

lemma segments_append (hw : ∀ c ∈ w, isPlain c = true) (t : Text) :
    segments (w ++ '/' :: t) = readSegment w :: segments t := by
  have hkeep : ∀ c ∈ w, (!isTabOrNewline c) = true := by
    intro c hc
    simp [isTabOrNewline_of_plain (hw c hc)]
  have hgo : ∀ c ∈ w, (!endsPath c) = true := by
    intro c hc
    have hplain := hw c hc
    simp only [isPlain, Bool.and_eq_true] at hplain
    exact hplain.1.2
  have hslash : ∀ c ∈ w, isSlash c = false := by
    intro c hc
    have hplain := hw c hc
    simp only [isPlain, Bool.and_eq_true, Bool.not_eq_true'] at hplain
    exact hplain.2
  unfold segments trimmed
  rw [rdropWhile_append_cons (by decide), filter_append, filter_eq_self.mpr hkeep,
    filter_cons_of_pos (by decide), takeWhile_append_of_pos hgo,
    takeWhile_cons_of_pos (by decide), splitOnP_append_cons_of_forall_mem hslash _ (by decide),
    map_cons]

lemma hexDigit_of_ge {n : ℕ} (h : 16 ≤ n) : hexDigit n = '0' := by
  rw [hexDigit, getD_eq_getElem?_getD, getElem?_eq_none (by simpa using h)]
  rfl

lemma hexDigit_mem (n : ℕ) : hexDigit n ∈ "0123456789ABCDEF".toList := by
  by_cases hn : n < 16
  · have hall : (range 16).all (fun n => "0123456789ABCDEF".toList.contains (hexDigit n)) =
        true := by
      decide
    simpa using all_eq_true.mp hall n (mem_range.mpr hn)
  · rw [hexDigit_of_ge (by omega)]
    decide

lemma mem_percentEncode {inSet : Char → Bool} (h : c ∈ percentEncode inSet t) :
    c ∈ "%0123456789ABCDEF".toList ∨ c ∈ t ∧ inSet c = false := by
  obtain ⟨d, hd, hc⟩ := mem_flatMap.mp h
  split_ifs at hc with hin
  · left
    obtain ⟨byte, _, hbyte⟩ := mem_flatMap.mp hc
    simp only [percentByte, mem_cons, not_mem_nil, or_false] at hbyte
    rcases hbyte with rfl | rfl | rfl
    · decide
    · exact mem_cons_of_mem _ (hexDigit_mem _)
    · exact mem_cons_of_mem _ (hexDigit_mem _)
  · right
    obtain rfl := mem_singleton.mp hc
    exact ⟨hd, by simpa using hin⟩

lemma percentEncode_of_none {inSet : Char → Bool} (h : ∀ c ∈ t, inSet c = false) :
    percentEncode inSet t = t := by
  induction t with
  | nil => rfl
  | cons c t ih =>
    have hc := h c mem_cons_self
    have hrest := ih fun d hd => h d (mem_cons_of_mem c hd)
    unfold percentEncode at hrest ⊢
    rw [flatMap_cons, hrest]
    simp [hc]

lemma of_ascii {p : Char → Bool} (hall : (List.range 128).all (fun n => p (Char.ofNat n)) = true)
    (hc : c.toNat < 128) : p c = true := by
  have h := all_eq_true.mp hall c.toNat (mem_range.mpr hc)
  rwa [Char.ofNat_toNat] at h

lemma toNat_lt_of_unreserved (h : isUnreserved c = true) : c.toNat < 128 := by
  change (((decide (c.val ≥ 'A'.val ∧ c.val ≤ 'Z'.val) ||
    decide (c.val ≥ 'a'.val) && decide (c.val ≤ 'z'.val)) ||
    decide (c.val ≥ '0'.val) && decide (c.val ≤ '9'.val)) ||
    "-_.!~*'()".toList.contains c) = true at h
  simp only [Bool.or_eq_true, decide_eq_true_eq, Bool.and_eq_true, UInt32.le_iff_toNat_le,
    ge_iff_le] at h
  have hz : 'z'.val.toNat = 122 := rfl
  have hZ : 'Z'.val.toNat = 90 := rfl
  have h9 : '9'.val.toNat = 57 := rfl
  rcases h with ((⟨-, hle⟩ | ⟨-, hle⟩) | ⟨-, hle⟩) | hmem
  · change c.val.toNat < 128
    omega
  · change c.val.toNat < 128
    omega
  · change c.val.toNat < 128
    omega
  · have hall : "-_.!~*'()".toList.all (fun c => c.toNat < 128) = true := by decide
    have hc := all_eq_true.mp hall c (by simpa using hmem)
    simpa using hc

lemma isUnreserved_bounds (h : isUnreserved c = true) : isPlain c = true ∧ inPathSet c = false := by
  have hall : (range 128).all (fun n => !isUnreserved (Char.ofNat n) ||
      (isPlain (Char.ofNat n) && !inPathSet (Char.ofNat n))) = true := by
    decide +kernel
  have hc := of_ascii (p := fun c => !isUnreserved c || (isPlain c && !inPathSet c)) hall
    (toNat_lt_of_unreserved h)
  simpa [h] using hc

/-- An encoded component has only characters that stand for themselves in a path. -/
lemma plain_encodeURIComponent (h : c ∈ encodeURIComponent t) :
    isPlain c = true ∧ inPathSet c = false := by
  rcases mem_percentEncode h with hhex | ⟨_, hunr⟩
  · have hall : "%0123456789ABCDEF".toList.all (fun c => isPlain c && !inPathSet c) = true := by
      decide
    have hboth := all_eq_true.mp hall c hhex
    simpa using hboth
  · exact isUnreserved_bounds (by simpa using hunr)

lemma toLower_eq_dot (h : c.toLower = '.') : c = '.' := by
  unfold Char.toLower at h
  split_ifs at h with hupp
  · have hval := congrArg (fun d => d.val.toNat) h
    obtain ⟨hge, hle⟩ := hupp
    rw [ge_iff_le, UInt32.le_iff_toNat_le] at hge
    rw [UInt32.le_iff_toNat_le] at hle
    have hA : 'A'.val.toNat = 65 := rfl
    have hZ : 'Z'.val.toNat = 90 := rfl
    have hdiff : ('a'.val - 'A'.val).toNat = 32 := rfl
    have hdot : '.'.val.toNat = 46 := rfl
    simp only [UInt32.toNat_add, hdiff, hdot] at hval
    omega
  · exact h

lemma hexDigit_toLower {n : ℕ} {d : Char} (h : (hexDigit n).toLower = d) :
    (d = '2' → n = 2) ∧ (d = 'e' → n = 14) := by
  subst h
  by_cases hn : n < 16
  · have hall : (range 16).all (fun n =>
        ((hexDigit n).toLower != '2' || n == 2) && ((hexDigit n).toLower != 'e' || n == 14)) =
        true := by
      decide
    have hdig := all_eq_true.mp hall n (mem_range.mpr hn)
    simp only [Bool.and_eq_true, Bool.or_eq_true, bne_iff_ne, beq_iff_eq] at hdig
    constructor
    · exact fun htwo => hdig.1.resolve_left (absurd htwo)
    · exact fun he => hdig.2.resolve_left (absurd he)
  · rw [hexDigit_of_ge (by omega)]
    constructor
    · exact fun htwo => absurd htwo (by decide)
    · exact fun he => absurd he (by decide)

lemma encodeChar_ne_dot (hc : c ≠ '.') : (Utf8.encodeChar c).head? ≠ some 46 := by
  intro hhead
  simp only [Utf8.encodeChar] at hhead
  split_ifs at hhead
  all_goals simp only [head?_cons, Option.some.injEq] at hhead
  · apply hc
    rw [← Char.ofNat_toNat c, hhead]
  all_goals omega

lemma encodeURIComponent_cons (c : Char) (t : Text) : encodeURIComponent (c :: t) =
      (if isUnreserved c then [c] else (Utf8.encodeChar c).flatMap percentByte) ++
        encodeURIComponent t := by
  unfold encodeURIComponent percentEncode
  rw [flatMap_cons]
  cases hc : isUnreserved c <;> simp [hc]

lemma encodeChar_ne_nil (c : Char) : Utf8.encodeChar c ≠ [] := by
  simp only [Utf8.encodeChar]
  split_ifs <;> simp

lemma not_encoded_dot {rest : Text} :
    (encodeURIComponent t).map Char.toLower ≠ '%' :: '2' :: 'e' :: rest := by
  intro h
  cases t with
  | nil => simp [encodeURIComponent, percentEncode] at h
  | cons c t =>
    rw [encodeURIComponent_cons] at h
    split_ifs at h with hc
    · have hall : (range 128).all (fun n => !isUnreserved (Char.ofNat n) ||
          (Char.ofNat n).toLower != '%') = true := by
        decide +kernel
      have hne := of_ascii (p := fun c => !isUnreserved c || c.toLower != '%') hall
        (toNat_lt_of_unreserved hc)
      simp only [cons_append, nil_append, map_cons, cons.injEq] at h
      simp [hc, h.1] at hne
    · cases hbyt : Utf8.encodeChar c with
      | nil => exact encodeChar_ne_nil c hbyt
      | cons byte bytes =>
        rw [hbyt] at h
        simp only [flatMap_cons, percentByte, cons_append, map_cons, cons.injEq] at h
        have hhigh := (hexDigit_toLower h.2.1).1 rfl
        have hlow := (hexDigit_toLower h.2.2.1).2 rfl
        apply encodeChar_ne_dot (c := c)
        · rintro rfl
          exact hc (by decide)
        · rw [hbyt, head?_cons]
          congr 1
          omega

lemma encoded_begins_with_dot {rest : Text}
    (h : (encodeURIComponent t).map Char.toLower = '.' :: rest) :
    ∃ u, t = '.' :: u ∧ (encodeURIComponent u).map Char.toLower = rest := by
  cases t with
  | nil => simp [encodeURIComponent, percentEncode] at h
  | cons c t =>
    rw [encodeURIComponent_cons] at h
    split_ifs at h with hc
    · simp only [cons_append, nil_append, map_cons, cons.injEq] at h
      obtain rfl := toLower_eq_dot h.1
      exact ⟨t, rfl, h.2⟩
    · cases hbyt : Utf8.encodeChar c with
      | nil => exact absurd hbyt (encodeChar_ne_nil c)
      | cons byte bytes =>
        rw [hbyt] at h
        simp only [flatMap_cons, percentByte, cons_append, map_cons, cons.injEq] at h
        exact absurd h.1 (by decide)

lemma eq_nil_of_encoded (h : (encodeURIComponent t).map Char.toLower = []) : t = [] := by
  cases t with
  | nil => rfl
  | cons c t =>
    rw [encodeURIComponent_cons] at h
    have hne := encodeChar_ne_nil c
    split_ifs at h
    · simp at h
    · cases hbyt : Utf8.encodeChar c with
      | nil => exact absurd hbyt hne
      | cons byte bytes => simp [hbyt, percentByte] at h

lemma isSingleDot_encodeURIComponent :
    isSingleDot (encodeURIComponent t) = true ↔ t = ".".toList := by
  constructor
  · intro h
    simp only [isSingleDot, contains_iff_mem, mem_cons, not_mem_nil, or_false] at h
    rcases h with h | h
    · obtain ⟨u, rfl, hu⟩ := encoded_begins_with_dot h
      rw [eq_nil_of_encoded hu]
      rfl
    · exact absurd h not_encoded_dot
  · rintro rfl
    decide

lemma isDoubleDot_encodeURIComponent :
    isDoubleDot (encodeURIComponent t) = true ↔ t = "..".toList := by
  constructor
  · intro h
    simp only [isDoubleDot, contains_iff_mem, mem_cons, not_mem_nil, or_false] at h
    rcases h with h | h | h | h
    · obtain ⟨u, rfl, hu⟩ := encoded_begins_with_dot h
      obtain ⟨v, rfl, hv⟩ := encoded_begins_with_dot hu
      rw [eq_nil_of_encoded hv]
      rfl
    · obtain ⟨u, rfl, hu⟩ := encoded_begins_with_dot h
      exact absurd hu not_encoded_dot
    · exact absurd h not_encoded_dot
    · exact absurd h not_encoded_dot
  · rintro rfl
    decide

lemma readSegment_encodeURIComponent (h₁ : t ≠ ".".toList) (h₂ : t ≠ "..".toList) :
    readSegment (encodeURIComponent t) = .name (encodeURIComponent t) := by
  have hsame : percentEncode inPathSet (encodeURIComponent t) = encodeURIComponent t :=
    percentEncode_of_none fun c hc => (plain_encodeURIComponent hc).2
  unfold readSegment
  rw [hsame]
  have hsingle : isSingleDot (encodeURIComponent t) = false := by
    rw [← Bool.not_eq_true, isSingleDot_encodeURIComponent]
    exact h₁
  have hdouble : isDoubleDot (encodeURIComponent t) = false := by
    rw [← Bool.not_eq_true, isDoubleDot_encodeURIComponent]
    exact h₂
  simp [classify, hsingle, hdouble]

lemma not_dots_of_mem_segments (h : .name w ∈ segments t) :
    isSingleDot w = false ∧ isDoubleDot w = false := by
  obtain ⟨v, _, hv⟩ := mem_map.mp h
  unfold readSegment classify at hv
  split_ifs at hv with hdouble hsingle
  obtain rfl := Segment.name.inj hv
  exact ⟨by simpa using hsingle, by simpa using hdouble⟩

def resolve (names : List Text) : List Segment → List Text
  | [] => names
  | [.here] => names ++ [[]]
  | [.up] => names.dropLast ++ [[]]
  | .here :: rest => resolve names rest
  | .up :: rest => resolve names.dropLast rest
  | .name w :: rest => resolve (names ++ [w]) rest

lemma mem_resolve {names : List Text} {path : List Segment}
    (h : w ∈ resolve names path) : w ∈ names ∨ w = [] ∨ .name w ∈ path := by
  induction path generalizing names with
  | nil => exact .inl h
  | cons segment rest ih =>
    have hlast : ∀ {l : List Text} {v : Text}, w ∈ l ++ [v] → w ∈ l ∨ w = v := by
      intro l v hmem
      simpa using hmem
    have hrest : ∀ {l : List Text}, w ∈ resolve l rest →
        w ∈ l ∨ w = [] ∨ .name w ∈ segment :: rest := by
      intro l hmem
      rcases ih hmem with hmem | hnil | hmem
      · exact .inl hmem
      · exact .inr (.inl hnil)
      · exact .inr (.inr (mem_cons_of_mem _ hmem))
    have hdrop : w ∈ names.dropLast → w ∈ names := fun hmem =>
      (dropLast_sublist names).subset hmem
    cases segment with
    | here =>
      cases rest with
      | nil =>
        rcases hlast h with hmem | hnil
        · exact .inl hmem
        · exact .inr (.inl hnil)
      | cons next rest => exact hrest h
    | up =>
      cases rest with
      | nil =>
        rcases hlast h with hmem | hnil
        · exact .inl (hdrop hmem)
        · exact .inr (.inl hnil)
      | cons next rest =>
        rcases hrest h with hmem | hoth
        · exact .inl (hdrop hmem)
        · exact .inr hoth
    | name v =>
      have hmem : w ∈ names ++ [v] ∨ w = [] ∨ .name w ∈ Segment.name v :: rest := by
        cases rest with
        | nil => exact .inl h
        | cons next rest => exact hrest h
      rcases hmem with hmem | hoth
      · rcases hlast hmem with hmem | rfl
        · exact .inl hmem
        · exact .inr (.inr mem_cons_self)
      · exact .inr hoth

/-- Below the directory `root`. -/
def Confined (root names : List Text) : Prop := ∃ rest, rest ≠ [] ∧ names = root ++ rest

/-- Where a path is: how many of the directory's own names it has left, and how many names
it has opened since. -/
structure Place where
  left : ℕ
  opened : ℕ

namespace Place
variable (root : List Text)

def up (place : Place) : Place :=
  if place.opened = 0 then ⟨min root.length (place.left + 1), 0⟩
  else { place with opened := place.opened - 1 }

/-- A name is opened, or it is the one of the directory that was left last. -/
def enter (place : Place) (w : Text) : Place :=
  if place.opened = 0 ∧ 0 < place.left ∧ root[root.length - place.left]? = some w then
    ⟨place.left - 1, 0⟩
  else { place with opened := place.opened + 1 }

def walk (place : Place) : List Segment → Place
  | [] => place
  | [.here] => place.enter root []
  | [.up] => (place.up root).enter root []
  | .here :: rest => walk place rest
  | .up :: rest => walk (place.up root) rest
  | .name w :: rest => walk (place.enter root w) rest

end Place

/-- The path goes back only over names that it opened itself, or names again what it left. -/
def Inside (root : List Text) (path : List Segment) : Prop :=
  (Place.walk root ⟨0, 0⟩ path).left = 0 ∧ 0 < (Place.walk root ⟨0, 0⟩ path).opened

instance (root : List Text) (path : List Segment) : Decidable (Inside root path) :=
  inferInstanceAs (Decidable (_ ∧ _))

/-- The names on the stack are what is left of the directory, and the opened ones. -/
structure At (root : List Text) (place : Place) (names : List Text) : Prop where
  bounded : place.left ≤ root.length
  split : ∃ opened, names = root.take (root.length - place.left) ++ opened ∧
    opened.length = place.opened ∧
    (0 < place.left → opened.head? ≠ root[root.length - place.left]?)

section
variable {root names : List Text} {place : Place}

lemma At.start (root : List Text) : At root ⟨0, 0⟩ root where
  bounded := Nat.zero_le _
  split := ⟨[], by simp, rfl, by simp⟩

lemma At.up (h : At root place names) : At root (place.up root) names.dropLast := by
  obtain ⟨hbound, opened, rfl, hopen, hhead⟩ := h
  unfold Place.up
  split_ifs with hzero
  · have hnil : opened = [] := length_eq_zero_iff.mp (hopen.trans hzero)
    subst hnil
    constructor
    · exact min_le_left _ _
    · refine ⟨[], ?_, rfl, ?_⟩
      · simp only [append_nil, dropLast_eq_take, length_take, take_take]
        congr 1
        omega
      · intro hleft hnone
        change 0 < min root.length (place.left + 1) at hleft
        have hlt : root.length - min root.length (place.left + 1) < root.length := by
          omega
        change [].head? = root[root.length - min root.length (place.left + 1)]? at hnone
        rw [head?_nil, getElem?_eq_getElem hlt] at hnone
        cases hnone
  · have hne : opened ≠ [] := by
      rintro rfl
      exact hzero hopen.symm
    constructor
    · exact hbound
    · refine ⟨opened.dropLast, dropLast_append_of_ne_nil hne, ?_, ?_⟩
      · rw [length_dropLast, hopen]
      · intro hleft
        cases opened with
        | nil => exact absurd rfl hne
        | cons w opened =>
          cases opened with
          | nil =>
            intro hnone
            have hlt : root.length - place.left < root.length := by
              have hle : place.left ≤ root.length := hbound
              change 0 < place.left at hleft
              omega
            rw [getElem?_eq_getElem hlt] at hnone
            cases hnone
          | cons v opened => exact hhead hleft

lemma At.enter (h : At root place names) (w : Text) :
    At root (place.enter root w) (names ++ [w]) := by
  obtain ⟨hbound, opened, rfl, hopen, hhead⟩ := h
  unfold Place.enter
  split_ifs with hback
  · obtain ⟨hzero, hleft, hnext⟩ := hback
    have hnil : opened = [] := length_eq_zero_iff.mp (hopen.trans hzero)
    subst hnil
    constructor
    · exact (Nat.sub_le _ _).trans hbound
    · refine ⟨[], ?_, rfl, ?_⟩
      · have hsucc : root.length - (place.left - 1) = root.length - place.left + 1 := by omega
        rw [append_nil, append_nil]
        change root.take _ ++ [w] = root.take (root.length - (place.left - 1))
        rw [hsucc, take_add_one, hnext]
        rfl
      · intro hstill hnone
        change 0 < place.left - 1 at hstill
        have hlt : root.length - (place.left - 1) < root.length := by omega
        change [].head? = root[root.length - (place.left - 1)]? at hnone
        rw [head?_nil, getElem?_eq_getElem hlt] at hnone
        cases hnone
  · constructor
    · exact hbound
    · refine ⟨opened ++ [w], by rw [append_assoc], by simp [hopen], ?_⟩
      intro hleft
      cases opened with
      | nil =>
        intro hnext
        exact hback ⟨hopen.symm, hleft, hnext.symm⟩
      | cons v opened => exact hhead hleft

lemma At.walk (h : At root place names) (path : List Segment) (hne : path ≠ []) :
    At root (place.walk root path) (resolve names path) := by
  induction path generalizing place names with
  | nil => exact absurd rfl hne
  | cons segment rest ih =>
    cases rest with
    | nil =>
      cases segment with
      | here => exact h.enter []
      | up => exact h.up.enter []
      | name w => exact h.enter w
    | cons next rest =>
      cases segment with
      | here => exact ih h (by simp)
      | up => exact ih h.up (by simp)
      | name w => exact ih (h.enter w) (by simp)

lemma At.confined_iff (h : At root place names) :
    Confined root names ↔ place.left = 0 ∧ 0 < place.opened := by
  obtain ⟨hbound, opened, rfl, hopen, hhead⟩ := h
  constructor
  · rintro ⟨rest, hrest, heq⟩
    by_cases hleft : place.left = 0
    · refine ⟨hleft, ?_⟩
      rw [hleft, Nat.sub_zero, take_length, append_cancel_left_eq] at heq
      rw [← hopen, heq]
      exact length_pos_iff.mpr hrest
    · exfalso
      have hlt : root.length - place.left < root.length := by omega
      have hspl : opened = root.drop (root.length - place.left) ++ rest := by
        have htake : root = root.take (root.length - place.left) ++
            root.drop (root.length - place.left) := (take_append_drop _ _).symm
        rw [htake, append_assoc] at heq
        rw [← htake] at heq
        exact append_cancel_left heq
      apply hhead (by omega)
      rw [hspl, drop_eq_getElem_cons hlt, getElem?_eq_getElem hlt]
      rfl
  · rintro ⟨hleft, hpos⟩
    refine ⟨opened, ?_, ?_⟩
    · rw [← hopen] at hpos
      exact length_pos_iff.mp hpos
    · rw [hleft, Nat.sub_zero, take_length]

/-- A path that starts in a directory ends below it just where it goes back only over names
of its own, or over names of the directory that it names again. -/
lemma confined_resolve_iff {path : List Segment} (hne : path ≠ []) :
    Confined root (resolve root path) ↔ Inside root path :=
  ((At.start root).walk path hne).confined_iff

end

end Redskilled.Foundation.UrlPath
