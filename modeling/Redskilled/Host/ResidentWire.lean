import Redskilled.Foundation.Json

/-!
# The resident wire

A message goes over the socket of a daemon as one frame. In JSON it is a line; in TOON it
ends at a blank line. Which of the two a frame is in is read off its first character. The
TOON package is a parameter: a text for a value that it does not refuse, and back.
-/
namespace Redskilled.Host.ResidentWire
open Foundation List

/-- `encode` and `decode` of the TOON package, none where they throw. -/
structure Toon where
  encode : Json → Option Text
  decode : Text → Option Json

/-- What is relied on: a document is read back, also with a newline behind it, and that of
an object starts with its first key and has no blank line in it. -/
structure Toon.Lawful (T : Toon) : Prop where
  decode_encode : ∀ v body, v.Proper → T.encode v = some body → T.decode body = some v
  decode_newline : ∀ v body, v.Proper → T.encode v = some body → T.decode (body ++ ['\n']) = some v
  no_blank : ∀ fields body, T.encode (.object fields) = some body → ¬['\n', '\n'] <:+: body
  head : ∀ fields body, T.encode (.object fields) = some body → ∀ c ∈ body.head?,
    Text.isWhitespace c = false ∧ c ≠ '{' ∧ c ≠ '['

inductive ResidentWireDialect where
  | json
  | toon
  deriving DecidableEq

structure ResidentWireFrame where
  frame : Text
  dialect : ResidentWireDialect
  rest : Text

def sniffWireDialect (text : Text) : ResidentWireDialect :=
  match (text.dropWhile Text.isWhitespace).head? with
  | none => .toon
  | some c => if c = '{' ∨ c = '[' then .json else .toon

def breakOn (sep : Text) : Text → Option (Text × Text)
  | [] => none
  | c :: t =>
    if sep.isPrefixOf (c :: t) then some ([], (c :: t).drop sep.length)
    else (breakOn sep t).map fun r => (c :: r.1, r.2)

def isLineEnd (c : Char) : Bool := c == '\n' || c == '\r'

def takeWireFrame (buffer : Text) : Option ResidentWireFrame :=
  let pending := buffer.dropWhile isLineEnd
  if pending = [] then none
  else
    match sniffWireDialect pending with
    | .json => (breakOn ['\n'] pending).map fun r => ⟨r.1, .json, r.2⟩
    | .toon => (breakOn ['\n', '\n'] pending).map fun r => ⟨r.1 ++ ['\n'], .toon, r.2⟩

section
variable (T : Toon)

/-- One parser goes first, the other is tried where it fails. -/
def decodeWireFrame (frame : Text) : Option Json :=
  match sniffWireDialect frame with
  | .json => (Json.parse frame).orElse fun _ => T.decode frame
  | .toon => (T.decode frame).orElse fun _ => Json.parse frame

def tryEncodeToon (value : Json) : Option Text :=
  ((Json.parse value.stringify).bind T.encode).bind fun body =>
    if Text.trim body = [] then none else some body

def encodeWireFrame (value : Json) (dialect : ResidentWireDialect) : Text :=
  match value with
  | .array _ => value.stringify ++ ['\n']
  | _ =>
    match dialect with
    | .json => value.stringify ++ ['\n']
    | .toon =>
      match tryEncodeToon T value with
      | some body =>
        if body.getLast? = some '\n' then body ++ ['\n'] else body ++ ['\n', '\n']
      | none => value.stringify ++ ['\n']

end

def stringField (value : Json) (key : Text) : Option Text :=
  match value with
  | .object fields =>
    match (fields.find? fun f => f.1 == key).map Prod.snd with
    | some (.string t) => some t
    | _ => none
  | _ => none

def isFalse (value : Json) (key : Text) : Bool :=
  match value with
  | .object fields =>
    match (fields.find? fun f => f.1 == key).map Prod.snd with
    | some (.bool false) => true
    | _ => false
  | _ => false

/-- The response has another id than the request, and says that it failed. -/
def isUnintelligibleResponse (request response : Json) : Bool :=
  isFalse response "ok".toList &&
    match stringField request "id".toList, stringField response "id".toList with
    | some asked, some answered => answered != asked
    | _, _ => false

/-- An object without two fields of one name. -/
structure Message where
  fields : List (Text × Json)
  proper : (Json.object fields).Proper

abbrev Message.json (m : Message) : Json := .object m.fields

lemma breakOn_none {sep t : Text} (h : ¬sep <:+: t) : breakOn sep t = none := by
  induction t with
  | nil => rfl
  | cons c t ih =>
    have hhead : ¬sep.isPrefixOf (c :: t) = true := by
      rw [List.isPrefixOf_iff_prefix]
      exact fun hstart => h hstart.isInfix
    have htail : ¬sep <:+: t := fun hinn => h (hinn.trans (suffix_cons c t).isInfix)
    rw [breakOn, if_neg hhead, ih htail]
    rfl

lemma breakOn_append {sep : Text} (hsep : sep ≠ []) (t rest : Text)
    (h : ∀ u, u <+: t ++ sep → sep <:+: u → u = t ++ sep) :
    breakOn sep (t ++ sep ++ rest) = some (t, rest) := by
  induction t with
  | nil =>
    obtain ⟨c, sep, rfl⟩ := exists_cons_of_ne_nil hsep
    have hstart : (c :: sep).isPrefixOf (c :: (sep ++ rest)) = true := by
      rw [List.isPrefixOf_iff_prefix]
      exact ⟨rest, rfl⟩
    rw [nil_append, cons_append, breakOn, if_pos hstart]
    simp
  | cons c t ih =>
    have hhead : ¬sep.isPrefixOf (c :: (t ++ sep ++ rest)) = true := by
      rw [List.isPrefixOf_iff_prefix]
      intro hstart
      -- the separator at the head would end before the one behind `t`
      have hlong : c :: t ++ sep <+: c :: (t ++ sep ++ rest) := ⟨rest, by simp⟩
      have hle : sep.length ≤ (c :: t ++ sep).length := by
        rw [length_append]
        omega
      have hshort := prefix_of_prefix_length_le hstart hlong hle
      have hlength := congrArg length (h sep hshort infix_rfl)
      rw [length_append, length_cons] at hlength
      omega
    have htail : ∀ u, u <+: t ++ sep → sep <:+: u → u = t ++ sep := by
      intro u hu hinn
      have hcons := h (c :: u) (by simpa using hu) (hinn.trans (suffix_cons c u).isInfix)
      exact (cons.inj hcons).2
    rw [cons_append, cons_append, breakOn, if_neg hhead, ih htail]
    rfl

/-- A frame as it goes over the wire: it is found in the text behind its last character,
and in no part of it. -/
structure Framed (dialect : ResidentWireDialect) (frame text : Text) : Prop where
  taken : ∀ rest, takeWireFrame (text ++ rest) = some ⟨frame, dialect, rest⟩
  owed : ∀ u, u <+: text → u ≠ text → takeWireFrame u = none

lemma pending_cons {c : Char} (h : isLineEnd c = false) (t : Text) :
    (c :: t).dropWhile isLineEnd = c :: t :=
  dropWhile_cons_of_neg (by simp [h])

lemma sniff_of_head {c : Char} (h : Text.isWhitespace c = false) (t : Text) :
    sniffWireDialect (c :: t) = if c = '{' ∨ c = '[' then .json else .toon := by
  rw [sniffWireDialect, dropWhile_cons_of_neg (by simp [h])]
  rfl

lemma isLineEnd_of_space {c : Char} (h : Text.isWhitespace c = false) : isLineEnd c = false := by
  cases hend : isLineEnd c with
  | false => rfl
  | true =>
    rw [isLineEnd, Bool.or_eq_true, beq_iff_eq, beq_iff_eq] at hend
    rcases hend with rfl | rfl
    · cases h
    · cases h

section
variable {c : Char} {t frame : Text}

lemma framed_json (hspace : Text.isWhitespace c = false) (hc : c = '{' ∨ c = '[')
    (hline : '\n' ∉ c :: t) : Framed .json (c :: t) (c :: t ++ ['\n']) := by
  have hend := isLineEnd_of_space hspace
  have hsniff : ∀ u, sniffWireDialect (c :: u) = .json := by
    intro u
    rw [sniff_of_head hspace, if_pos hc]
  refine ⟨fun rest => ?_, fun u hu hne => ?_⟩
  · have hbreak : breakOn ['\n'] (c :: t ++ ['\n'] ++ rest) = some (c :: t, rest) := by
      apply breakOn_append (by simp)
      intro u hu hinn
      rcases prefix_concat_iff.mp hu with rfl | hstart
      · rfl
      · exact absurd (hstart.subset (hinn.subset mem_cons_self)) hline
    rw [cons_append, cons_append] at hbreak ⊢
    simp only [takeWireFrame, pending_cons hend, hsniff, hbreak]
    rfl
  · have hstart : u <+: c :: t := (prefix_concat_iff.mp hu).resolve_left hne
    rcases prefix_cons_iff.mp hstart with rfl | ⟨v, rfl, hv⟩
    · rfl
    · have hnone : breakOn ['\n'] (c :: v) = none :=
        breakOn_none fun hinn =>
          hline (hstart.subset (hinn.subset mem_cons_self))
      simp only [takeWireFrame, pending_cons hend, hsniff, hnone]
      rfl

lemma framed_toon (hspace : Text.isWhitespace c = false) (hc : ¬(c = '{' ∨ c = '['))
    (hblank : ¬['\n', '\n'] <:+: c :: t ++ ['\n']) :
    Framed .toon (c :: t ++ ['\n']) (c :: t ++ ['\n', '\n']) := by
  have hend := isLineEnd_of_space hspace
  have hsniff : ∀ u, sniffWireDialect (c :: u) = .toon := by
    intro u
    rw [sniff_of_head hspace, if_neg hc]
  have hconc : c :: t ++ ['\n', '\n'] = c :: t ++ ['\n'] ++ ['\n'] := by simp
  refine ⟨fun rest => ?_, fun u hu hne => ?_⟩
  · have hbreak : breakOn ['\n', '\n'] (c :: t ++ ['\n', '\n'] ++ rest) = some (c :: t, rest) := by
      apply breakOn_append (by simp)
      intro u hu hinn
      rw [hconc] at hu ⊢
      rcases prefix_concat_iff.mp hu with rfl | hstart
      · rfl
      · exact absurd (hinn.trans hstart.isInfix) hblank
    rw [cons_append, cons_append] at hbreak ⊢
    simp only [takeWireFrame, pending_cons hend, hsniff, hbreak]
    rfl
  · rw [hconc] at hu hne
    have hstart : u <+: c :: t ++ ['\n'] := (prefix_concat_iff.mp hu).resolve_left hne
    rcases prefix_cons_iff.mp hstart with rfl | ⟨v, rfl, hv⟩
    · rfl
    · have hnone : breakOn ['\n', '\n'] (c :: v) = none :=
        breakOn_none fun hinn => hblank (hinn.trans hstart.isInfix)
      simp only [takeWireFrame, pending_cons hend, hsniff, hnone]
      rfl

end

section
variable {T : Toon}

/-- A message goes out as a frame that is read as the message. -/
def Carries (T : Toon) (m : Message) (text : Text) : Prop :=
  ∃ dialect frame, Framed dialect frame text ∧ decodeWireFrame T frame = some m.json

lemma carries_json (T : Toon) (m : Message) : Carries T m (m.json.stringify ++ ['\n']) := by
  have hline := Json.newline_notMem_stringify m.json
  refine ⟨.json, m.json.stringify, framed_json rfl (Or.inl rfl) hline, ?_⟩
  have hsniff : sniffWireDialect m.json.stringify = .json := sniff_of_head rfl _
  rw [decodeWireFrame, hsniff]
  simp only
  rw [Json.parse_stringify m.proper]
  rfl

/-- The body of a TOON frame: the document without the newline it may end with. -/
lemma carries_toon (hlaw : T.Lawful) {m : Message} {body : Text}
    (henc : T.encode m.json = some body) (hbody : body ≠ []) :
    Carries T m (if body.getLast? = some '\n' then body ++ ['\n'] else body ++ ['\n', '\n']) := by
  obtain ⟨c, t, rfl⟩ := exists_cons_of_ne_nil hbody
  obtain ⟨hspace, hbrace, hbrack⟩ := hlaw.head _ _ henc c rfl
  have hblank := hlaw.no_blank _ _ henc
  have hc : ¬(c = '{' ∨ c = '[') := fun h => h.elim hbrace hbrack
  have hdec : ∀ frame, T.decode frame = some m.json → (∃ u, frame = c :: u) →
      decodeWireFrame T frame = some m.json := by
    rintro frame hframe ⟨u, rfl⟩
    rw [decodeWireFrame, sniff_of_head hspace, if_neg hc]
    simp only
    rw [hframe]
    rfl
  split_ifs with hlast
  · -- the newline at the end of the document is the first of the two
    obtain ⟨u, hu⟩ := getLast?_eq_some_iff.mp hlast
    cases u with
    | nil =>
      obtain ⟨rfl, -⟩ := cons.inj hu
      cases hspace
    | cons d u =>
      rw [cons_append] at hu
      obtain ⟨rfl, rfl⟩ := cons.inj hu
      have htext : c :: (u ++ ['\n']) ++ ['\n'] = c :: u ++ ['\n', '\n'] := by simp
      rw [htext]
      refine ⟨.toon, c :: u ++ ['\n'], framed_toon hspace hc hblank, ?_⟩
      exact hdec _ (hlaw.decode_encode _ _ m.proper henc) ⟨_, rfl⟩
  · have hblank' : ¬['\n', '\n'] <:+: c :: t ++ ['\n'] := by
      intro hinn
      rcases infix_concat_iff.mp hinn with hsuff | hinn
      · have hconc : ['\n'] ++ ['\n'] <:+ c :: t ++ ['\n'] := hsuff
        have hends : ['\n'] <:+ c :: t := (suffix_append_inj_of_length_eq rfl).mp hconc |>.1
        obtain ⟨u, hu⟩ := hends
        exact hlast (by rw [← hu]; simp)
      · exact hblank hinn
    refine ⟨.toon, c :: t ++ ['\n'], framed_toon hspace hc hblank', ?_⟩
    exact hdec _ (hlaw.decode_newline _ _ m.proper henc) ⟨_, rfl⟩

lemma carries_encodeWireFrame (hlaw : T.Lawful) (m : Message) (dialect : ResidentWireDialect) :
    Carries T m (encodeWireFrame T m.json dialect) := by
  cases dialect with
  | json => exact carries_json T m
  | toon =>
    simp only [encodeWireFrame]
    cases htry : tryEncodeToon T m.json with
    | none => exact carries_json T m
    | some body =>
      rw [tryEncodeToon, Json.parse_stringify m.proper, Option.bind_some] at htry
      obtain ⟨body', henc, htrim⟩ := Option.bind_eq_some_iff.mp htry
      split_ifs at htrim with hempty
      cases htrim
      apply carries_toon hlaw henc
      intro hnil
      rw [hnil] at hempty
      exact hempty rfl

end
end Redskilled.Host.ResidentWire
