import Redskilled.Foundation.Utf8Bytes
import Redskilled.Foundation.Json

/-!
# Document records

`fitDocRecord` of `plugin-memory/src/graph-store/store.ts`. A record whose text is too long
loses its frontmatter and the end of its body, and a marker takes the place of what is cut off.
No body is cut to less than the marker, and in the text of a record the marker is longer than
by itself: where it does not fit, the cutting goes on for ever.
-/
namespace Redskilled.Memory.DocRecord
open Foundation Foundation.Utf8 List

structure MemoryDoc where
  path : Text
  title : Option Text
  body : Text
  frontmatter : Option (List (Text × Json))
  hash : Text
  updatedAt : JsonNumber

structure Record where
  path : Text
  title : Option Text
  body : Text
  frontmatter : List (Text × Json)
  hash : Text
  sourceUpdatedAt : JsonNumber

def Record.json (record : Record) : Json := .object [
  ("path".toList, .string record.path), ("title".toList, record.title.elim .null .string),
  ("body".toList, .string record.body), ("frontmatter".toList, .object record.frontmatter),
  ("hash".toList, .string record.hash),
  ("source_updated_at".toList, .number record.sourceUpdatedAt)]

/-- `Buffer.byteLength(text)`. -/
def byteLength (text : Text) : ℕ := (Utf8.encode text).length

def jsonBytes (record : Record) : ℕ := byteLength record.json.stringify

def truncationMarker : Text := "\n\n[…truncated to fit memory store…]".toList

def docRecordMaxBytes : ℕ := 1000

/-- The last place up to `end` that is not within a character. -/
def backOff (buf : List ℕ) : ℕ → ℕ
  | 0 => 0
  | e + 1 => if isContinuation (buf.getD (e + 1) 0) then backOff buf e else e + 1

def truncateBytes (text : Text) (budget : ℕ) : Text :=
  let buf := Utf8.encode text
  if buf.length ≤ budget then text
  else
    let e := backOff buf (budget - byteLength truncationMarker)
    Utf8.decode (buf.take e) ++ truncationMarker

def build (doc : MemoryDoc) (body : Text) (frontmatter : List (Text × Json)) : Record :=
  ⟨doc.path, doc.title, body, frontmatter, doc.hash, doc.updatedAt⟩

def safeBody (doc : MemoryDoc) : Text := doc.body.map fun c => if c = '\\' then ' ' else c

def tighten (doc : MemoryDoc) : ℕ → Text → Option Record
  | 0, _ => none
  | fuel + 1, body =>
    if body ≠ [] ∧ docRecordMaxBytes < jsonBytes (build doc body []) then
      tighten doc fuel (truncateBytes body (byteLength body * 4 / 5))
    else some (build doc body [])

def fitDocRecord (fuel : ℕ) (doc : MemoryDoc) : Option Record :=
  let full := build doc (safeBody doc) (doc.frontmatter.getD [])
  if jsonBytes full ≤ docRecordMaxBytes then some full
  else
    let overhead := jsonBytes (build doc [] [])
    tighten doc fuel (truncateBytes (safeBody doc) (docRecordMaxBytes - overhead))

/-- The body is whole, or a beginning of it with the marker behind. -/
def Shortened (doc : MemoryDoc) (body : Text) : Prop :=
  body = safeBody doc ∨ ∃ kept, kept <+: safeBody doc ∧ body = kept ++ truncationMarker

/-- A record is returned, and where one without body and frontmatter fits, it fits too and is
that of the document. -/
def Fits (doc : MemoryDoc) : Prop :=
  (∃ fuel record, fitDocRecord fuel doc = some record) ∧
    (jsonBytes (build doc [] []) ≤ docRecordMaxBytes →
      ∀ fuel record, fitDocRecord fuel doc = some record →
        jsonBytes record ≤ docRecordMaxBytes ∧ record.path = doc.path ∧
          record.title = doc.title ∧ record.hash = doc.hash ∧ Shortened doc record.body)

/-- There is no body, or it fits as it is, with or without the frontmatter, or the marker fits
in its place. -/
def Fittable (doc : MemoryDoc) : Prop :=
  doc.body = [] ∨
    jsonBytes (build doc (safeBody doc) (doc.frontmatter.getD [])) ≤ docRecordMaxBytes ∨
    jsonBytes (build doc (safeBody doc) []) ≤ docRecordMaxBytes ∨
    jsonBytes (build doc truncationMarker []) ≤ docRecordMaxBytes

instance (doc : MemoryDoc) : Decidable (Fittable doc) := inferInstanceAs (Decidable (_ ∨ _))

variable {doc : MemoryDoc} {record : Record} {text body kept : Text} {fuel budget : ℕ}

lemma byteLength_append (s t : Text) : byteLength (s ++ t) = byteLength s + byteLength t := by
  rw [byteLength, Utf8.encode_append, length_append]
  rfl

lemma length_le_byteLength (t : Text) : t.length ≤ byteLength t := by
  induction t with
  | nil => exact Nat.zero_le _
  | cons c t ih =>
    rcases encodeChar_spec c with ⟨lead, more, hchar, -⟩
    have hcons : byteLength (c :: t) = more.length + 1 + byteLength t := by
      simp only [byteLength, Utf8.encode, flatMap_cons, hchar, length_append, length_cons]
    rw [hcons, length_cons]
    omega

lemma byteLength_le_escaped (t : Text) : byteLength t ≤ byteLength (t.flatMap Text.jsonEscape) := by
  induction t with
  | nil => exact Nat.le_refl _
  | cons c t ih =>
    have hchar : byteLength [c] ≤ byteLength (Text.jsonEscape c) := by
      rcases Nat.lt_or_ge c.toNat 0x80 with hasc | hwide
      · have hone : byteLength [c] = 1 := by simp [byteLength, Utf8.encode, Utf8.encodeChar, hasc]
        rw [hone]
        refine le_trans ?_ (length_le_byteLength _)
        unfold Text.jsonEscape
        simp only
        split_ifs <;> simp
      · have hplain : Text.jsonEscape c = [c] := by
          unfold Text.jsonEscape
          have hquote : c ≠ '"' := by rintro rfl; revert hwide; decide
          have hslash : c ≠ '\\' := by rintro rfl; revert hwide; decide
          simp only [hquote, hslash, if_false]
          rw [if_neg (by omega), if_neg (by omega), if_neg (by omega), if_neg (by omega),
            if_neg (by omega), if_neg (by omega)]
        rw [hplain]
    have hleft : byteLength (c :: t) = byteLength [c] + byteLength t := byteLength_append [c] t
    rw [flatMap_cons, byteLength_append, hleft]
    exact Nat.add_le_add hchar ih

lemma jsonBytes_build (doc : MemoryDoc) (body : Text) : jsonBytes (build doc body []) =
      jsonBytes (build doc [] []) + byteLength (body.flatMap Text.jsonEscape) := by
  simp only [jsonBytes, build, Record.json, Json.stringify, Json.stringifyFields,
    Json.stringifyMoreFields, Json.stringifyField, Text.jsonString, flatMap_nil]
  simp only [byteLength, Utf8.encode, flatMap_append, flatMap_cons, length_append]
  simp only [flatMap_nil, length_nil]
  omega

lemma jsonBytes_marker_le (doc : MemoryDoc) (kept : Text) :
    jsonBytes (build doc truncationMarker []) ≤
      jsonBytes (build doc (kept ++ truncationMarker) []) := by
  rw [jsonBytes_build, jsonBytes_build doc (kept ++ _), flatMap_append, byteLength_append]
  omega

lemma backOff_spec (buf : List ℕ) (h : ¬ TailWindow.Inside isContinuation buf 0) (e : ℕ) :
    backOff buf e ≤ e ∧ ¬ TailWindow.Inside isContinuation buf (backOff buf e) := by
  induction e with
  | zero => exact ⟨Nat.le_refl _, h⟩
  | succ e ih =>
    unfold backOff
    split_ifs with hin
    · exact ⟨Nat.le_succ_of_le ih.1, ih.2⟩
    · refine ⟨Nat.le_refl _, ?_⟩
      rintro ⟨b, hb, hcont⟩
      rw [getD_eq_getElem?_getD, hb] at hin
      exact hin hcont

lemma truncateBytes_of_le (h : byteLength text ≤ budget) : truncateBytes text budget = text :=
  if_pos h

lemma truncateBytes_of_lt (h : budget < byteLength text) :
    ∃ kept, kept <+: text ∧ truncateBytes text budget = kept ++ truncationMarker ∧
      byteLength kept ≤ budget - byteLength truncationMarker := by
  rcases backOff_spec (Utf8.encode text) (outside_zero text)
    (budget - byteLength truncationMarker) with ⟨hle, hout⟩
  have hlength : backOff (Utf8.encode text) (budget - byteLength truncationMarker) ≤
      (Utf8.encode text).length := hle.trans ((Nat.sub_le _ _).trans h.le)
  rcases exists_split hlength hout with ⟨kept, rest, hspl, hkept⟩
  refine ⟨kept, ⟨rest, hspl.symm⟩, ?_, hkept.trans_le hle⟩
  have htake : (Utf8.encode text).take (Utf8.encode kept).length = Utf8.encode kept := by
    rw [hspl, Utf8.encode_append, take_left]
  have hlong : ¬ (Utf8.encode text).length ≤ budget := Nat.not_le.mpr h
  simp only [truncateBytes, if_neg hlong]
  rw [← hkept, htake, Utf8.decode_encode]

lemma Shortened.truncate (h : Shortened doc body) (hbudg : budget ≤ byteLength body) :
    Shortened doc (truncateBytes body budget) := by
  rcases hbudg.lt_or_eq with hlt | heq
  · rcases truncateBytes_of_lt hlt with ⟨kept, hkept, hcut, hbyt⟩
    rw [hcut]
    refine .inr ⟨kept, ?_, rfl⟩
    rcases h with rfl | ⟨before, hbef, rfl⟩
    · exact hkept
    · rw [byteLength_append] at hlt
      rcases prefix_or_prefix_of_prefix hkept (prefix_append before truncationMarker) with
        hle | ⟨more, rfl⟩
      · exact hle.trans hbef
      · rw [byteLength_append] at hbyt
        have hmore : more = [] := by
          have hlength := length_le_byteLength more
          exact length_eq_zero_iff.mp (by omega)
        rw [hmore, append_nil]
        exact hbef
  · rw [truncateBytes_of_le heq.ge]
    exact h

lemma tighten_spec (h : tighten doc fuel body = some record) (hbody : Shortened doc body) :
    ∃ shorter, record = build doc shorter [] ∧ Shortened doc shorter ∧
      (shorter ≠ [] → jsonBytes record ≤ docRecordMaxBytes) := by
  induction fuel generalizing body with
  | zero => cases h
  | succ fuel ih =>
    unfold tighten at h
    split_ifs at h with hlong
    · exact ih h (hbody.truncate (by omega))
    · cases h
      refine ⟨body, rfl, hbody, fun hne => ?_⟩
      by_contra hover
      exact hlong ⟨hne, Nat.not_le.mp hover⟩

/-- Where the marker fits, each round shortens the body until it does. -/
lemma exists_tighten (h : jsonBytes (build doc truncationMarker []) ≤ docRecordMaxBytes)
    (body : Text) : ∃ fuel record, tighten doc fuel body = some record := by
  induction hn : byteLength body using Nat.strong_induction_on generalizing body with
  | _ n ih =>
    by_cases hlong : body ≠ [] ∧ docRecordMaxBytes < jsonBytes (build doc body [])
    · have hpos : 0 < byteLength body :=
        (length_pos_iff.mpr hlong.1).trans_le (length_le_byteLength body)
      have hlt : byteLength body * 4 / 5 < byteLength body := by omega
      rcases truncateBytes_of_lt hlt with ⟨kept, -, hcut, hbyt⟩
      have hnext : ∃ fuel record,
          tighten doc fuel (truncateBytes body (byteLength body * 4 / 5)) = some record := by
        rcases Nat.lt_or_ge (byteLength truncationMarker) (byteLength body * 4 / 5) with
          hroom | hnone
        · refine ih _ ?_ _ rfl
          rw [hcut, byteLength_append, ← hn]
          omega
        · have hkept : kept = [] := by
            have hlength := length_le_byteLength kept
            exact length_eq_zero_iff.mp (by omega)
          refine ⟨1, build doc truncationMarker [], ?_⟩
          rw [hcut, hkept, nil_append, tighten, if_neg (fun hover => Nat.not_lt.mpr h hover.2)]
      rcases hnext with ⟨fuel, record, hrec⟩
      exact ⟨fuel + 1, record, by rw [tighten, if_pos hlong, hrec]⟩
    · exact ⟨1, build doc body [], by rw [tighten, if_neg hlong]⟩

/-- Where the marker does not fit, the loop is not left once the body has it. -/
lemma tighten_marked (h : docRecordMaxBytes < jsonBytes (build doc truncationMarker []))
    (fuel : ℕ) (kept : Text) : tighten doc fuel (kept ++ truncationMarker) = none := by
  induction fuel generalizing kept with
  | zero => rfl
  | succ fuel ih =>
    have hne : truncationMarker ≠ [] := by decide
    have hpos := (length_pos_iff.mpr hne).trans_le (length_le_byteLength truncationMarker)
    have hlt : byteLength (kept ++ truncationMarker) * 4 / 5 <
        byteLength (kept ++ truncationMarker) := by
      rw [byteLength_append]
      omega
    rcases truncateBytes_of_lt hlt with ⟨shorter, -, hcut, -⟩
    rw [tighten, if_pos ⟨append_ne_nil_of_right_ne_nil kept hne,
      h.trans_le (jsonBytes_marker_le doc kept)⟩, hcut]
    exact ih shorter

lemma not_fittable (h : ¬ Fittable doc) (fuel : ℕ) : fitDocRecord fuel doc = none := by
  simp only [Fittable, not_or, Nat.not_le] at h
  obtain ⟨hbody, hfull, hsafe, hmark⟩ := h
  have hne : safeBody doc ≠ [] := by simpa [safeBody] using hbody
  have hlong : ∀ fuel, tighten doc fuel (safeBody doc) = none := by
    intro fuel
    cases fuel with
    | zero => rfl
    | succ fuel =>
      have hpos := (length_pos_iff.mpr hne).trans_le (length_le_byteLength (safeBody doc))
      have hlt : byteLength (safeBody doc) * 4 / 5 < byteLength (safeBody doc) := by omega
      rcases truncateBytes_of_lt hlt with ⟨kept, -, hcut, -⟩
      rw [tighten, if_pos ⟨hne, hsafe⟩, hcut]
      exact tighten_marked hmark fuel kept
  simp only [fitDocRecord]
  rw [if_neg (Nat.not_le.mpr hfull)]
  rcases Nat.lt_or_ge (docRecordMaxBytes - jsonBytes (build doc [] []))
    (byteLength (safeBody doc)) with hlt | hle
  · rcases truncateBytes_of_lt hlt with ⟨kept, -, hcut, -⟩
    rw [hcut]
    exact tighten_marked hmark fuel kept
  · rw [truncateBytes_of_le hle]
    exact hlong fuel

/-- A document fits where the marker does, or its body needs none. -/
theorem fits_iff (doc : MemoryDoc) : Fits doc ↔ Fittable doc := by
  constructor
  · rintro ⟨⟨fuel, record, hrec⟩, -⟩
    by_contra hnot
    rw [not_fittable hnot] at hrec
    cases hrec
  · intro h
    have hsafe : Shortened doc (safeBody doc) := .inl rfl
    constructor
    · by_cases hfull : jsonBytes (build doc (safeBody doc) (doc.frontmatter.getD [])) ≤
          docRecordMaxBytes
      · exact ⟨0, _, if_pos hfull⟩
      · simp only [fitDocRecord, if_neg hfull]
        rcases h with hbody | hfits | hfits | hfits
        · have hempty : safeBody doc = [] := by simp [safeBody, hbody]
          rw [hempty]
          exact ⟨1, _, rfl⟩
        · exact absurd hfits hfull
        · have hle : byteLength (safeBody doc) ≤
              docRecordMaxBytes - jsonBytes (build doc [] []) := by
            have hesc := byteLength_le_escaped (safeBody doc)
            rw [jsonBytes_build] at hfits
            omega
          rw [truncateBytes_of_le hle]
          exact ⟨1, _, if_neg (fun hover => Nat.not_lt.mpr hfits hover.2)⟩
        · exact exists_tighten hfits _
    · intro hempty fuel record hrec
      simp only [fitDocRecord] at hrec
      split_ifs at hrec with hfull
      · cases hrec
        exact ⟨hfull, rfl, rfl, rfl, hsafe⟩
      · have hcut : Shortened doc
            (truncateBytes (safeBody doc) (docRecordMaxBytes - jsonBytes (build doc [] []))) := by
          rcases le_total (byteLength (safeBody doc))
            (docRecordMaxBytes - jsonBytes (build doc [] [])) with hle | hge
          · rw [truncateBytes_of_le hle]
            exact hsafe
          · exact hsafe.truncate hge
        rcases tighten_spec hrec hcut with ⟨body, rfl, hbody, hfits⟩
        refine ⟨?_, rfl, rfl, rfl, hbody⟩
        by_cases hne : body = []
        · rw [hne]
          exact hempty
        · exact hfits hne

/-- The path leaves no room for the marker. -/
theorem long_path_loops : ¬ ∀ doc : MemoryDoc, Fits doc := by
  intro h
  rcases (h ⟨replicate 900 'p', none, replicate 200 'b', none, [], ⟨['0'], by decide⟩⟩).1 with
    ⟨fuel, record, hrec⟩
  rw [not_fittable (by decide +kernel)] at hrec
  cases hrec

end Redskilled.Memory.DocRecord
