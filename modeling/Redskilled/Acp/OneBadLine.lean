import Redskilled.Acp.DialectFrames

/-!
# One bad line

The stream hands on the messages whose last character it has read, wherever the bytes are cut
into chunks. Where a line that cannot be read is a frame by itself, or opens a frame that ends
before the next message and is not read either, it costs no message.
-/
namespace Redskilled.Acp.DualDialect
open Foundation Host.ResidentWire List Option

abbrev Sent := ResidentWireDialect × List (Text × Json)

def envelopes (sent : List Sent) : List Json :=
  sent.map fun message => .object (inboundFields message.2)

def lastDialect (sent : List Sent) : Option ResidentWireDialect := sent.getLast?.map (·.1)

/-- The stream has handed on what is done. -/
structure Done (s : Stream) (items : List Item) : Prop where
  enqueued : s.enqueued = envelopes (messages items)
  peerDialect : s.peerDialect = lastDialect (messages items)
  errored : s.errored = false

variable {T : Toon} {bytes : List ℕ} {items : List Item} {s : Stream} {total : Text}

lemma Done.decodeAndEnqueue {done front : List Item} {frame buffer : Text}
    {dialect : ResidentWireDialect} (h : Done s done) (hyields : Yields T frame dialect front) :
    Done (decodeAndEnqueue T { s with buffer := buffer } frame dialect) (done ++ front) := by
  unfold DualDialect.decodeAndEnqueue
  rcases hyields with ⟨hnone, hempty⟩ | ⟨fields, hsome, hmess⟩
  · rw [hnone]
    constructor
    · rw [messages_append, hempty, append_nil]
      exact h.enqueued
    · rw [messages_append, hempty, append_nil]
      exact h.peerDialect
    · exact h.errored
  · rw [hsome]
    constructor
    · rw [messages_append, hmess, envelopes, map_append]
      simp only [h.enqueued, envelopes, inboundEnvelope]
      rfl
    · rw [messages_append, hmess]
      simp [lastDialect]
    · exact h.errored

lemma buffer_decodeAndEnqueue (T : Toon) (s : Stream) (frame : Text)
    (dialect : ResidentWireDialect) :
    (decodeAndEnqueue T s frame dialect).buffer = s.buffer := by
  unfold decodeAndEnqueue
  cases decodeWireFrameStrict T frame dialect <;> rfl

lemma textDecoder_decodeAndEnqueue (T : Toon) (s : Stream) (frame : Text)
    (dialect : ResidentWireDialect) :
    (decodeAndEnqueue T s frame dialect).textDecoder = s.textDecoder := by
  unfold decodeAndEnqueue
  cases decodeWireFrameStrict T frame dialect <;> rfl

/-- Some items are done, and the others are waited for behind the text to come. -/
def Settled (T : Toon) (items : List Item) (total w : Text) (s : Stream) : Prop :=
  ∃ done rest, items = done ++ rest ∧ Done s done ∧ s.buffer ++ w <:+ total ∧
    Waiting T (s.buffer ++ w) rest

lemma exceedsCeiling_false {buffer w : Text} (h : buffer ++ w <:+ total)
    (hceiling : (total.flatMap Text.utf16).length ≤ MAX_WIRE_FRAME_BYTES) :
    exceedsCeiling buffer = false := by
  obtain ⟨front, rfl⟩ := h
  rw [flatMap_append, flatMap_append, length_append, length_append] at hceiling
  rw [exceedsCeiling, decide_eq_false_iff_not]
  omega

/-- Frame by frame, the messages whose last character is in the buffer are handed on. -/
lemma drain_settled {w : Text} (hceiling : (total.flatMap Text.utf16).length ≤ MAX_WIRE_FRAME_BYTES)
    (hwell : ∀ item ∈ items, item.WellFormed T) (fuel : ℕ)
    {done rest : List Item}
    (hfuel : s.buffer.length < fuel) (hspl : items = done ++ rest) (hdone : Done s done)
    (hsuff : s.buffer ++ w <:+ total)
    (hstate : Waiting T (s.buffer ++ w) rest ∨
      (Blanked T (s.buffer ++ w) rest ∧ sniffWireDialect s.buffer = .json)) :
    Settled T items total w (drain T fuel s) ∧ takeWireFrame (drain T fuel s).buffer = none := by
  induction fuel generalizing s done rest with
  | zero => omega
  | succ fuel ih =>
    have hrest : ∀ item ∈ rest, item.WellFormed T := fun item hin =>
      hwell item (hspl ▸ mem_append_right _ hin)
    rw [drain]
    cases htake : takeWireFrame s.buffer with
    | none =>
      have hwait : Waiting T (s.buffer ++ w) rest := by
        rcases hstate with hwait | ⟨hblanked, hsniff⟩
        · exact hwait
        · exact hblanked.waiting hsniff htake
      have hdone' : Done { s with errored := exceedsCeiling s.buffer } done :=
        ⟨hdone.enqueued, hdone.peerDialect, exceedsCeiling_false hsuff hceiling⟩
      exact ⟨⟨done, rest, hspl, hdone', hsuff, hwait⟩, htake⟩
    | some taken =>
      obtain ⟨front, hfront, hne⟩ := take_shorter htake
      have hshort : taken.rest.length < fuel := by
        have hlength := congrArg length hfront
        have hpos := length_pos_iff.mpr hne
        rw [length_append] at hlength
        omega
      have hsuff' : taken.rest ++ w <:+ total := by
        refine List.IsSuffix.trans ⟨front, ?_⟩ hsuff
        rw [hfront, append_assoc]
      -- one frame, and the items it stands for
      have hnext : ∀ read more, rest = read ++ more → Yields T taken.frame taken.dialect read →
          (Waiting T (taken.rest ++ w) more ∨
            (Blanked T (taken.rest ++ w) more ∧ sniffWireDialect taken.rest = .json)) →
          Settled T items total w (drain T fuel (decodeAndEnqueue T
              { s with buffer := taken.rest } taken.frame taken.dialect)) ∧
            takeWireFrame (drain T fuel (decodeAndEnqueue T { s with buffer := taken.rest }
              taken.frame taken.dialect)).buffer = none := by
        intro read more hread hyields hmore
        have hbuff := buffer_decodeAndEnqueue T { s with buffer := taken.rest } taken.frame
          taken.dialect
        refine @ih _ (done ++ read) more ?_ ?_ ?_ ?_ ?_
        · rw [hbuff]
          exact hshort
        · rw [hspl, hread, append_assoc]
        · exact hdone.decodeAndEnqueue hyields
        · rw [hbuff]
          exact hsuff'
        · rw [hbuff]
          exact hmore
      cases hsniff : sniffWireDialect s.buffer with
      | json =>
        have hblanked : ∃ skipped more, rest = skipped ++ more ∧ messages skipped = [] ∧
            Blanked T (s.buffer ++ w) more := by
          rcases hstate with hwait | ⟨hblanked, -⟩
          · exact hwait.blanked hsniff hrest
          · exact ⟨[], rest, rfl, rfl, hblanked⟩
        obtain ⟨skipped, more, rfl, hskipp, hblanked⟩ := hblanked
        have hmore : ∀ item ∈ more, item.WellFormed T := fun item hin =>
          hrest item (mem_append_right _ hin)
        obtain ⟨hdial, hread⟩ := hblanked.take hsniff htake hmore
        rcases hread with ⟨hnone, hblanked, hsniff⟩ | ⟨item, left, rfl, hwait, hyields⟩
        · apply hnext skipped more rfl
          · rw [hdial]
            exact .inl ⟨hnone, hskipp⟩
          · exact .inr ⟨hblanked, hsniff⟩
        · apply hnext (skipped ++ [item]) left
          · simp
          · rw [hdial]
            exact hyields.append_left hskipp
          · exact .inl hwait
      | toon =>
        have hwait : Waiting T (s.buffer ++ w) rest := by
          rcases hstate with hwait | ⟨-, hjson⟩
          · exact hwait
          · rw [hsniff] at hjson
            cases hjson
        obtain ⟨read, more, hread, hwait, hdial, hyields⟩ :=
          hwait.take hsniff htake hrest
        apply hnext read more hread
        · rw [hdial]
          exact hyields
        · exact .inl hwait

lemma textDecoder_drain (T : Toon) (fuel : ℕ) (s : Stream) :
    (drain T fuel s).textDecoder = s.textDecoder := by
  induction fuel generalizing s with
  | zero => rfl
  | succ fuel ih =>
    rw [drain]
    cases takeWireFrame s.buffer with
    | none => rfl
    | some taken =>
      dsimp only
      rw [ih, textDecoder_decodeAndEnqueue]

lemma withoutMark_append (t u : Text) :
    withoutMark (t ++ u) = withoutMark t ++ if t = [] then withoutMark u else u := by
  cases t with
  | nil => rfl
  | cons c t =>
    rw [if_neg (by simp), cons_append, withoutMark, withoutMark]
    split_ifs <;> simp

def Decoded (d : TextDecoder) (bytes : List ℕ) (text : Text) : Prop :=
  d.decoder = (Utf8.write Utf8.clean bytes).1 ∧ text = (Utf8.write Utf8.clean bytes).2 ∧
    d.started = !text.isEmpty

lemma Decoded.decode {d : TextDecoder} {text : Text} (h : Decoded d bytes text) (chunk : List ℕ) :
    ∃ more, Decoded (d.decode chunk).1 (bytes ++ chunk) (text ++ more) ∧
      withoutMark (text ++ more) = withoutMark text ++ (d.decode chunk).2 := by
  obtain ⟨hdec, htext, hstart⟩ := h
  have hwrite := Utf8.write_append Utf8.clean bytes chunk
  rw [← hdec, ← htext] at hwrite
  refine ⟨(Utf8.write d.decoder chunk).2, ⟨?_, ?_, ?_⟩, ?_⟩
  · rw [hwrite]
    rfl
  · rw [hwrite]
  · simp only [TextDecoder.decode, hstart]
    cases text <;> simp
  · rw [withoutMark_append]
    simp only [TextDecoder.decode, hstart]
    cases text <;> simp

def HasRead (T : Toon) (items : List Item) (total : Text) (bytes : List ℕ) (s : Stream) : Prop :=
  ∃ text w, Decoded s.textDecoder bytes text ∧ withoutMark text ++ w = withoutMark total ∧
    Settled T items (withoutMark total) w s ∧ takeWireFrame s.buffer = none

lemma HasRead.read {chunk later : List ℕ} (h : HasRead T items total bytes s)
    (hbyt : bytes ++ chunk ++ later = Utf8.encode total)
    (hceiling : (Utf8.encode total).length ≤ MAX_WIRE_FRAME_BYTES)
    (hwell : ∀ item ∈ items, item.WellFormed T) :
    HasRead T items total (bytes ++ chunk) (s.read T chunk) := by
  obtain ⟨text, w, hdecod, hw, ⟨done, rest, hspl, hdone, hsuff, hwait⟩, -⟩ := h
  obtain ⟨more, hdec', hmark⟩ := hdecod.decode chunk
  have hwith : text ++ more <+: total := by
    rw [hdec'.2.1]
    exact Utf8.write_prefix hbyt
  obtain ⟨left, hleft⟩ := hwith
  obtain ⟨w', hw'⟩ : ∃ w', withoutMark (text ++ more) ++ w' = withoutMark total :=
    ⟨_, by rw [← hleft, withoutMark_append (text ++ more)]⟩
  have hchunk : w = (s.textDecoder.decode chunk).2 ++ w' := by
    rw [hmark, append_assoc, ← hw] at hw'
    exact (append_cancel_left hw').symm
  have hread : s.read T chunk = drain T ((s.buffer ++ (s.textDecoder.decode chunk).2).length + 1)
      { s with
        textDecoder := (s.textDecoder.decode chunk).1
        buffer := s.buffer ++ (s.textDecoder.decode chunk).2 } := by
    rw [Stream.read, if_neg (by simp [hdone.errored])]
  have hceil' : ((withoutMark total).flatMap Text.utf16).length ≤ MAX_WIRE_FRAME_BYTES := by
    have hunits := Utf8.length_utf16_le total
    have hmarkLe : ((withoutMark total).flatMap Text.utf16).length ≤
        (total.flatMap Text.utf16).length := by
      cases total with
      | nil => exact le_rfl
      | cons c total =>
        rw [withoutMark]
        split_ifs
        · rw [flatMap_cons, length_append]
          omega
        · exact le_rfl
    omega
  rw [hread]
  rw [hchunk, ← append_assoc] at hsuff hwait
  obtain ⟨hsettl, htake⟩ := drain_settled (s := { s with
      textDecoder := (s.textDecoder.decode chunk).1
      buffer := s.buffer ++ (s.textDecoder.decode chunk).2 }) hceil' hwell _
    (Nat.lt_succ_self _) hspl ⟨hdone.enqueued, hdone.peerDialect, hdone.errored⟩ hsuff
    (.inl hwait)
  refine ⟨text ++ more, w', ?_, hw', hsettl, htake⟩
  rw [textDecoder_drain]
  exact hdec'

lemma HasRead.readAll {later : List ℕ} {chunks : List (List ℕ)} (h : HasRead T items total bytes s)
    (hbyt : bytes ++ chunks.flatten ++ later = Utf8.encode total)
    (hceiling : (Utf8.encode total).length ≤ MAX_WIRE_FRAME_BYTES)
    (hwell : ∀ item ∈ items, item.WellFormed T) :
    HasRead T items total (bytes ++ chunks.flatten) (s.readAll T chunks) := by
  induction chunks generalizing bytes s with
  | nil =>
    rw [flatten_nil, append_nil]
    exact h
  | cons chunk chunks ih =>
    rw [flatten_cons, ← append_assoc] at hbyt ⊢
    have hfirst : bytes ++ chunk ++ (chunks.flatten ++ later) = Utf8.encode total := by
      rw [← append_assoc]
      exact hbyt
    have hnext : HasRead T items total (bytes ++ chunk) (s.read T chunk) :=
      h.read hfirst hceiling hwell
    exact ih hnext hbyt

section
variable {T : Toon} {b : Text} {rest : List Item}

lemma take_json_ne_none (more : Text) {front line : Text} (hfront : Blank front)
    (hline : sniffWireDialect line = .json) (hb : b = front ++ line ++ '\n' :: more) :
    takeWireFrame b ≠ none := by
  obtain ⟨space, c, tail, rfl, hspace, hc⟩ := split_of_sniff hline
  have hend : isLineEnd c = false := by
    rcases hc with rfl | rfl
    · rfl
    · rfl
  have hshape : b = (front ++ space) ++ c :: (tail ++ '\n' :: more) := by
    rw [hb]
    simp
  have hsniff : sniffWireDialect b = .json := by
    rw [hshape]
    exact sniff_of_split (blank_append.mpr ⟨hfront, hspace⟩) hc
  obtain ⟨left, hleft⟩ := dropWhile_cons_append (front ++ space)
    (tail ++ '\n' :: more) hend
  rw [take_of_json hsniff, hshape, hleft, ne_eq, map_eq_none_iff]
  apply breakOn_ne_none (by simp)
  exact ⟨left ++ c :: tail, more, by simp⟩

lemma take_toon_ne_none (front tail more : Text) {c : Char} (hend : isLineEnd c = false)
    (hsniff : sniffWireDialect b = .toon) (hb : b = front ++ c :: (tail ++ blankLine ++ more)) :
    takeWireFrame b ≠ none := by
  obtain ⟨left, hleft⟩ := dropWhile_cons_append front
    (tail ++ blankLine ++ more) hend
  rw [take_of_toon hsniff, hb, hleft, ne_eq, map_eq_none_iff]
  apply breakOn_ne_none (by simp)
  exact ⟨left ++ c :: tail, more, by simp⟩

lemma rest_of_none {ends : Text} {held : Option Text} (hends : LineEnds ends)
    (hb : b = ends ++ held.getD [] ++ wire rest) (hheld : Held held) (hpass : Passes T held rest)
    (htake : takeWireFrame b = none) (hwell : ∀ item ∈ rest, item.WellFormed T) :
    messages rest = [] ∧ ∃ ends held, LineEnds ends ∧ b = ends ++ held.getD [] ∧
      Held held ∧ Passes T held [] := by
  induction rest generalizing ends held with
  | nil =>
    refine ⟨rfl, ends, held, hends, ?_, hheld, hpass⟩
    rw [hb, wire_nil, append_nil]
  | cons item items ih =>
    have hitems : ∀ item ∈ items, item.WellFormed T := fun i hi =>
      hwell i (mem_cons_of_mem _ hi)
    have hitem := hwell item mem_cons_self
    rw [wire_cons] at hb
    cases item with
    | json line fields =>
      obtain ⟨-, hparse⟩ := hitem
      have hblank : Blank (ends ++ held.getD []) := by
        rw [blank_append]
        constructor
        · exact hends.blank
        · cases held with
          | none => simp [Blank]
          | some f => exact hpass.1
      refine absurd htake (take_json_ne_none (wire items) hblank (sniff_json_line hparse) ?_)
      rw [hb]
      simp [Item.text]
    | toon document fields =>
      obtain ⟨⟨c, t, hc, hspace, hbrack⟩, -⟩ := hitem
      have hsniff : sniffWireDialect b = .toon := by
        have hdoc : sniffWireDialect (document ++ (blankLine ++ wire items)) = .toon := by
          rw [hc, cons_append, sniff_of_head hspace, if_neg hbrack]
        rw [hb, append_assoc, sniff_append_of_blank hends.blank, Item.text, append_assoc]
        cases held with
        | none => exact hdoc
        | some f =>
          have hf : OpenText f := hheld
          by_cases hblank : Blank f
          · rw [getD_some, sniff_append_of_blank hblank]
            exact hdoc
          · rw [getD_some, sniff_append_of_ink hblank, hf.plain]
      refine absurd htake (take_toon_ne_none (ends ++ held.getD []) t (wire items)
        (isLineEnd_of_space hspace) hsniff ?_)
      rw [hb, Item.text, hc]
      simp
    | unreadable line =>
      have hline : '\n' ∉ line := hitem
      cases held with
      | none =>
        rw [Passes] at hpass
        rw [getD_none, append_nil] at hb
        split_ifs at hpass with hnil hjson
        · have hends' : LineEnds (ends ++ line ++ ['\n']) := by
            have hlin : LineEnds line := dropWhile_eq_nil_iff.mp hnil
            intro c hc
            rw [mem_append, mem_append, mem_singleton] at hc
            rcases hc with (hc | hc) | rfl
            · exact hends c hc
            · exact hlin c hc
            · rfl
          apply ih hends' _ (show Held none from trivial) hpass hitems
          rw [hb]
          simp [Item.text]
        · refine absurd htake (take_json_ne_none (wire items) hends.blank hjson ?_)
          rw [hb]
          simp [Item.text]
        · have hends' : LineEnds (ends ++ line.takeWhile isLineEnd) := by
            intro c hc
            rcases mem_append.mp hc with hc | hc
            · exact hends c hc
            · exact lineEnds_takeWhile line c hc
          apply ih hends' _ (show Held (some _) from openText_line hline hnil hjson) hpass
            hitems
          have hspl := takeWhile_append_dropWhile (p := isLineEnd) (l := line)
          have hshape : ends ++ line.takeWhile isLineEnd ++
              (line.dropWhile isLineEnd ++ ['\n']) ++ wire items =
                ends ++ (line.takeWhile isLineEnd ++ line.dropWhile isLineEnd ++
                  ['\n'] ++ wire items) := by simp only [append_assoc]
          rw [hb, Item.text, getD_some, hshape, hspl]
      | some f =>
        have hf : OpenText f := hheld
        rw [Passes] at hpass
        rw [getD_some] at hb
        split_ifs at hpass with hnil hjson
        · obtain ⟨c, t, hc, hend⟩ := hf.head
          obtain ⟨g, hg⟩ := hf.ends
          cases hsniff : sniffWireDialect b with
          | json =>
            obtain ⟨left, hleft⟩ := dropWhile_cons_append ends
              (t ++ '\n' :: wire items) hend
            have hshape : b = ends ++ c :: (t ++ '\n' :: wire items) := by
              rw [hb, hnil, hc]
              simp [Item.text]
            rw [take_of_json hsniff, hshape, hleft, map_eq_none_iff] at htake
            exact absurd htake (breakOn_ne_none (by simp)
              ⟨left ++ c :: t, wire items, by simp⟩)
          | toon =>
            cases g with
            | nil =>
              rw [hg, nil_append] at hc
              obtain ⟨rfl, -⟩ := cons.inj hc
              cases hend
            | cons d g =>
              rw [hg, cons_append] at hc
              obtain ⟨rfl, -⟩ := cons.inj hc
              refine absurd htake (take_toon_ne_none ends g (wire items) hend hsniff ?_)
              rw [hb, hnil, hg]
              simp [Item.text]
        · refine absurd htake (take_json_ne_none (wire items)
            (blank_append.mpr ⟨hends.blank, hjson.1⟩) hjson.2 ?_)
          rw [hb]
          simp [Item.text]
        · apply ih hends _ (show Held (some _) from hf.line hline hnil hjson) hpass hitems
          rw [hb, Item.text]
          simp

lemma trim_append_of_blank {t u : Text} (h : Blank t) : Text.trim (t ++ u) = Text.trim u := by
  rw [Text.trim, Text.trim, dropWhile_append_of_pos h]

lemma head_trim_of_toon {t : Text} {c : Char} (h : sniffWireDialect t = .toon) (hc : IsBracket c) :
    (Text.trim t).head? ≠ some c := by
  intro hhead
  have hwith : Text.trim t <+: t.dropWhile Text.isWhitespace := rdropWhile_prefix _ _
  obtain ⟨more, hmore⟩ := hwith
  cases htrim : Text.trim t with
  | nil =>
    rw [htrim] at hhead
    cases hhead
  | cons d rest =>
    rw [htrim] at hhead hmore
    obtain rfl : d = c := by simpa using hhead
    unfold sniffWireDialect at h
    rw [← hmore, cons_append, head?_cons] at h
    simp only at h
    rw [if_pos hc] at h
    cases h

lemma close_of_waiting {s : Stream} (h : Waiting T s.buffer rest)
    (htake : takeWireFrame s.buffer = none) (hwell : ∀ item ∈ rest, item.WellFormed T) :
    messages rest = [] ∧ s.close T = s := by
  obtain ⟨ends, held, hends, hb, hheld, hpass⟩ := h
  obtain ⟨hnone, ends, held, hends, hb, hheld, hpass⟩ :=
    rest_of_none hends hb hheld hpass htake hwell
  refine ⟨hnone, ?_⟩
  have htrim : Text.trim s.buffer = Text.trim (held.getD []) := by
    rw [hb, trim_append_of_blank hends.blank]
  unfold Stream.close
  dsimp only
  rw [htrim]
  split_ifs with hstop hbrack
  · rfl
  · exfalso
    cases held with
    | none => exact hstop (.inr rfl)
    | some f =>
      have hf : OpenText f := hheld
      rcases hbrack with hbrack | hbrack
      · exact head_trim_of_toon hf.plain (.inl rfl) hbrack
      · exact head_trim_of_toon hf.plain (.inr rfl) hbrack
  · cases held with
    | none => exact absurd (.inr rfl) hstop
    | some f =>
      have href : T.decode (Text.trim f) = none := by
        rcases hpass with hempty | href
        · exact absurd (.inr hempty) hstop
        · exact href
      simp only [decodeAndEnqueue, decodeWireFrameStrict, getD_some, href]

end

lemma wire_withoutFirstMark
    (hwell : ∀ item ∈ items, item.WellFormed T) :
    wire (withoutFirstMark items) = withoutMark (wire items) := by
  cases items with
  | nil => rfl
  | cons item items =>
    have hitem := hwell item mem_cons_self
    cases item with
    | json line fields =>
      obtain ⟨-, hparse⟩ := hitem
      cases line with
      | nil => cases hparse
      | cons c line =>
        have hc : c ≠ byteOrderMark := by
          rintro rfl
          obtain ⟨rest, hskip⟩ := Json.skip_of_parse hparse
          exact absurd (cons.inj hskip).1 (by decide)
        rw [withoutFirstMark, wire_cons, Item.text, cons_append, cons_append,
          withoutMark, if_neg hc]
        exact fun _ _ => by simp
    | toon document fields =>
      obtain ⟨⟨c, t, rfl, hspace, -⟩, -⟩ := hitem
      have hc : c ≠ byteOrderMark := by
        rintro rfl
        exact absurd hspace (by decide)
      rw [withoutFirstMark, wire_cons, Item.text, cons_append, cons_append, withoutMark, if_neg hc]
      exact fun _ _ => by simp
    | unreadable line =>
      rw [withoutFirstMark, wire_cons, wire_cons, Item.text, Item.text, append_assoc, append_assoc]
      cases line with
      | nil => rfl
      | cons c line =>
        simp only [cons_append, withoutMark]
        split_ifs <;> rfl

lemma wellFormed_withoutFirstMark
    (hwell : ∀ item ∈ items, item.WellFormed T) :
    ∀ item ∈ withoutFirstMark items, item.WellFormed T := by
  cases items with
  | nil => exact hwell
  | cons item items =>
    cases item with
    | json line fields => exact hwell
    | toon document fields => exact hwell
    | unreadable line =>
      rintro item hitem
      rcases mem_cons.mp hitem with rfl | hitem
      · have hline : '\n' ∉ line := hwell _ mem_cons_self
        cases line with
        | nil => exact hline
        | cons c line =>
          rw [Item.WellFormed, withoutMark]
          split_ifs
          · exact fun hin => hline (mem_cons_of_mem _ hin)
          · exact hline
      · exact hwell item (mem_cons_of_mem _ hitem)

lemma messages_withoutFirstMark (items : List Item) :
    messages (withoutFirstMark items) = messages items := by
  cases items with
  | nil => rfl
  | cons item items => cases item <;> rfl

/-- Each message is handed on in its envelope, and after any part of the input a write goes out in
the dialect of the last one, or in the preferred one. -/
structure CostsNoMessage (T : Toon) (preferred : ResidentWireDialect) (items : List Item)
    (chunks : List (List ℕ)) : Prop where
  stands : (dualDialectStream T chunks).errored = false
  enqueued : (dualDialectStream T chunks).enqueued = envelopes (messages items)
  answers : ∀ front back, chunks = front ++ back → ∃ sent, sent <+: messages items ∧
    (Stream.start.readAll T front).enqueued = envelopes sent ∧
      ∀ message, (Stream.start.readAll T front).write T preferred message =
        Utf8.encode (encodeWireFrame T
          (outboundEnvelope message ((lastDialect sent).getD preferred))
          ((lastDialect sent).getD preferred))

lemma hasRead_start (hwell : ∀ item ∈ items, item.WellFormed T) (hharmless : Harmless T items) :
    HasRead T (withoutFirstMark items) (wire items) [] Stream.start := by
  refine ⟨[], withoutMark (wire items), ⟨rfl, rfl, rfl⟩, rfl, ⟨[], _, rfl, ⟨rfl, rfl, rfl⟩,
    suffix_rfl, [], none, by simp [LineEnds], ?_, trivial, hharmless⟩, rfl⟩
  exact (wire_withoutFirstMark hwell).symm

/-- Where the lines that cannot be read are harmless, none of them costs a message, however the
bytes are cut. -/
theorem costs_no_message {T : Toon} {preferred : ResidentWireDialect} {items : List Item}
    {chunks : List (List ℕ)} (hwell : ∀ item ∈ items, item.WellFormed T)
    (hceiling : (Utf8.encode (wire items)).length < MAX_WIRE_FRAME_BYTES)
    (hchunks : chunks.flatten = Utf8.encode (wire items)) (hharmless : Harmless T items) :
    CostsNoMessage T preferred items chunks := by
  have hread : ∀ front back, chunks = front ++ back →
      HasRead T (withoutFirstMark items) (wire items) front.flatten
        (Stream.start.readAll T front) := by
    intro front back hspl
    have hbyt : [] ++ front.flatten ++ back.flatten = Utf8.encode (wire items) := by
      rw [nil_append, ← flatten_append, ← hspl, hchunks]
    exact (hasRead_start hwell hharmless).readAll hbyt hceiling.le
      (wellFormed_withoutFirstMark hwell)
  have hclos : (dualDialectStream T chunks).errored = false ∧
      (dualDialectStream T chunks).enqueued = envelopes (messages items) := by
    obtain ⟨text, w, ⟨-, htext, -⟩, hw, ⟨done, rest, hspl, hdone, hsuff, hwait⟩, htake⟩ :=
      hread chunks [] (append_nil _).symm
    -- nothing is to come
    have hnil : w = [] := by
      rw [htext, hchunks, Utf8.write_encode] at hw
      simpa using hw
    rw [hnil, append_nil] at hwait
    have hrest : ∀ item ∈ rest, item.WellFormed T := fun item hin =>
      wellFormed_withoutFirstMark hwell item (hspl ▸ mem_append_right _ hin)
    obtain ⟨hnone, hclose⟩ := close_of_waiting hwait htake hrest
    rw [dualDialectStream, hclose]
    constructor
    · exact hdone.errored
    · rw [hdone.enqueued, ← messages_withoutFirstMark items, hspl, messages_append, hnone,
        append_nil]
  refine ⟨hclos.1, hclos.2, ?_⟩
  intro front back hspl
  obtain ⟨-, -, -, -, ⟨done, rest, hitems, hdone, -, -⟩, -⟩ := hread front back hspl
  refine ⟨messages done, ?_, hdone.enqueued, ?_⟩
  · rw [← messages_withoutFirstMark items, hitems, messages_append]
    exact prefix_append _ _
  · intro message
    rw [Stream.write, hdone.peerDialect]

def idFields : List (Text × Json) := [("id".toList, .number ⟨"1".toList, rfl⟩)]

def pingFields : List (Text × Json) := [("ping".toList, .number ⟨"1".toList, rfl⟩)]

def pingDocument : Text := "ping: 1".toList

def pingToon : Toon where
  encode value :=
    if value.stringify = (Json.object pingFields).stringify then some pingDocument else none
  decode document := if document = pingDocument ++ ['\n'] then some (.object pingFields) else none

def idLine : Item := .json (Json.object idFields).stringify idFields

lemma idLine_wellFormed (T : Toon) : idLine.WellFormed T := by
  have hprop : (Json.object idFields).Proper := by
    apply Json.Proper.object
    · simp [idFields]
    · intro field hfield
      rw [mem_singleton.mp hfield]
      exact .number _
  constructor
  · exact Json.newline_notMem_stringify _
  · exact Json.parse_stringify hprop

lemma ping_wellFormed : (Item.toon pingDocument pingFields).WellFormed pingToon := by
  have hline : '\n' ∉ pingDocument := by decide
  refine ⟨⟨'p', "ing: 1".toList, by decide, by decide, by decide⟩,
    no_blankLine_line hline, ?_⟩
  simp [pingToon]

def mixedItems : List Item :=
  [.unreadable "\x7b broken".toList, idLine, .unreadable "two lines".toList,
    .unreadable "of text".toList, .unreadable [], .toon pingDocument pingFields]

theorem mixed_costs_no_message : CostsNoMessage pingToon .json mixedItems
    ((Utf8.encode (wire mixedItems)).map fun byte => [byte]) := by
  have hwell : ∀ item ∈ mixedItems, item.WellFormed pingToon := by
    have hlin :
        ∀ line ∈ ["\x7b broken", "two lines", "of text", ""], '\n' ∉ line.toList := by
      decide
    simp only [mixedItems, forall_mem_cons]
    refine ⟨hlin _ (by decide), idLine_wellFormed _, hlin _ (by decide),
      hlin _ (by decide), hlin "" (by decide), ping_wellFormed, by simp⟩
  apply costs_no_message hwell
  · decide +kernel
  · exact flatMap_singleton' _
  · have hbrok : Json.parse ("\x7b broken".toList.dropWhile isLineEnd) = none := by
      decide +kernel
    have hfirst : withoutFirstMark mixedItems = mixedItems := by
      congr 2
    refine ⟨hbrok, ?_⟩
    exact ⟨by decide, trivial⟩

def swallowedItems : List Item := [.unreadable "oops".toList, idLine]

/-- A line that is no message takes the one behind it along. -/
theorem bad_line_costs_a_message :
    ¬ ∀ (T : Toon) (preferred : ResidentWireDialect) (items : List Item) (chunks : List (List ℕ)),
      (∀ item ∈ items, item.WellFormed T) →
        (Utf8.encode (wire items)).length < MAX_WIRE_FRAME_BYTES →
          chunks.flatten = Utf8.encode (wire items) → CostsNoMessage T preferred items chunks := by
  intro h
  have hwell : ∀ item ∈ swallowedItems, item.WellFormed pingToon := by
    simp only [swallowedItems, forall_mem_cons]
    have hline : '\n' ∉ "oops".toList := by decide
    exact ⟨hline, idLine_wellFormed _, by simp⟩
  have hcosts := h pingToon .json swallowedItems [Utf8.encode (wire swallowedItems)] hwell
    (by decide +kernel) (by simp)
  have hlength := congrArg length hcosts.enqueued
  have hnone :
      (dualDialectStream pingToon [Utf8.encode (wire swallowedItems)]).enqueued.length = 0 := by
    decide +kernel
  cases hlength

end Redskilled.Acp.DualDialect
