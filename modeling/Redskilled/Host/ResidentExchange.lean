import Redskilled.Foundation.Utf8
import Redskilled.Host.ResidentWire

/-!
# One request over a resident socket

The client connects, writes its request as one frame, and takes the first frame of what
comes back. The daemon takes one frame, calls the handler with it, and writes a frame for
each response it is given. The transport cuts the bytes of either direction as it likes.
The daemon decodes the bytes with one decoder, the client decodes each piece by itself.

A client that was given no dialect writes TOON. A response that says of another id that it
failed is taken to come from a peer that reads JSON only; the client remembers that and
asks again in JSON, over a connection of its own. No time runs out and no socket fails.
-/
namespace Redskilled.Host.ResidentWire
open Foundation List

def MAX_WIRE_FRAME_BYTES : ℕ := 8 * 1024 * 1024

structure Server where
  decoder : Utf8.Decoder
  buffer : Text
  destroyed : Bool
  /-- The frame that was taken. -/
  framed : Option ResidentWireFrame

/-- The callback of `data`, behind the decoder of the socket. -/
def Server.data (s : Server) (chunk : List ℕ) : Server :=
  if s.destroyed || s.framed.isSome then s
  else
    let r := Utf8.write s.decoder chunk
    let buffer := s.buffer ++ r.2
    match takeWireFrame buffer with
    | none =>
      { s with
        decoder := r.1
        buffer := buffer
        destroyed := decide (MAX_WIRE_FRAME_BYTES < (buffer.flatMap Text.utf16).length) }
    | some framed => { s with decoder := r.1, buffer := framed.rest, framed := some framed }

def serveWireSocket (chunks : List (List ℕ)) : Option ResidentWireFrame :=
  (chunks.foldl Server.data ⟨Utf8.clean, [], false, none⟩).framed

structure Client where
  buffer : Text
  /-- `some none` is a frame that cannot be decoded. -/
  settled : Option (Option Json)

section
variable (T : Toon)

def Client.data (s : Client) (chunk : List ℕ) : Client :=
  let buffer := s.buffer ++ Utf8.decode chunk
  match takeWireFrame buffer with
  | none => { s with buffer := buffer }
  | some framed =>
    ⟨framed.rest, s.settled.orElse fun _ => some (decodeWireFrame T framed.frame)⟩

def receive (chunks : List (List ℕ)) : Option (Option Json) :=
  (chunks.foldl (Client.data T) ⟨[], none⟩).settled

/-- A connection: what the daemon passes to `respond` in turn, and how the transport cuts
the bytes of the two directions. -/
structure Connection where
  handler : Json → List Json
  onFailure : List Json
  up : List ℕ → List (List ℕ)
  down : List ℕ → List (List ℕ)
  up_flatten : ∀ bytes, (up bytes).flatten = bytes
  down_flatten : ∀ bytes, (down bytes).flatten = bytes

structure Outcome where
  calls : List Json
  response : Option (Option Json)

def requestBytes (request : Json) (dialect : ResidentWireDialect) : List ℕ :=
  Utf8.encode (encodeWireFrame T request dialect)

def responseBytes (responses : List Json) (dialect : ResidentWireDialect) : List ℕ :=
  Utf8.encode (responses.flatMap fun response => encodeWireFrame T response dialect)

def sendFramedRequest (c : Connection) (request : Json) (dialect : ResidentWireDialect) : Outcome :=
  match serveWireSocket (c.up (requestBytes T request dialect)) with
  | none => ⟨[], none⟩
  | some framed =>
    match decodeWireFrame T framed.frame with
    | some request =>
      ⟨[request], receive T (c.down (responseBytes T (c.handler request) framed.dialect))⟩
    | none => ⟨[], receive T (c.down (responseBytes T c.onFailure framed.dialect))⟩

def residentWireDialectFor (jsonOnly : Bool) : ResidentWireDialect :=
  if jsonOnly then .json else .toon

/-- The client asks again. -/
def retries (pinned : Option ResidentWireDialect) (jsonOnly : Bool) (request response : Json) :
    Bool :=
  pinned.isNone && !jsonOnly && isUnintelligibleResponse request response

def sendLineRequest (pinned : Option ResidentWireDialect) (jsonOnly : Bool)
    (first second : Connection) (request : Json) : Outcome × Bool :=
  let dialect := pinned.getD (residentWireDialectFor jsonOnly)
  let sent := sendFramedRequest T first request dialect
  match sent.response with
  | some (some response) =>
    if pinned.isSome || dialect == .json || !isUnintelligibleResponse request response then
      (sent, jsonOnly)
    else
      let again := sendFramedRequest T second request .json
      (⟨sent.calls ++ again.calls, again.response⟩, true)
  | _ => (sent, jsonOnly)

end

variable {T : Toon} {dialect : ResidentWireDialect} {frame text : Text}

/-- What the daemon holds when a part of the text has come: the decoded part, and no frame
before the text is complete. -/
lemma foldl_server (hfram : Framed dialect frame text)
    (hsmall : (Utf8.encode text).length < MAX_WIRE_FRAME_BYTES) (chunks : List (List ℕ)) :
    ∀ before, before ++ chunks.flatten = Utf8.encode text →
      (Utf8.write Utf8.clean before).2 ≠ text →
      (chunks.foldl Server.data
        ⟨(Utf8.write Utf8.clean before).1, (Utf8.write Utf8.clean before).2, false, none⟩).framed =
          some ⟨frame, dialect, []⟩ := by
  induction chunks with
  | nil =>
    intro before hbyt hpart
    rw [flatten_nil, append_nil] at hbyt
    rw [hbyt, Utf8.write_encode] at hpart
    exact absurd rfl hpart
  | cons chunk chunks ih =>
    intro before hbyt hpart
    rw [flatten_cons, ← append_assoc] at hbyt
    have happ := Utf8.write_append Utf8.clean before chunk
    have hstart := Utf8.write_prefix hbyt
    rw [foldl_cons, Server.data]
    simp only [Option.isSome_none, Bool.or_false, Bool.false_eq_true, if_false]
    have hbuff : (Utf8.write Utf8.clean before).2 ++
        (Utf8.write (Utf8.write Utf8.clean before).1 chunk).2 =
          (Utf8.write Utf8.clean (before ++ chunk)).2 := by
      rw [happ]
    have hdecod : (Utf8.write (Utf8.write Utf8.clean before).1 chunk).1 =
        (Utf8.write Utf8.clean (before ++ chunk)).1 := by
      rw [happ]
    rw [hbuff, hdecod]
    by_cases hdone : (Utf8.write Utf8.clean (before ++ chunk)).2 = text
    · have htak := hfram.taken []
      rw [append_nil] at htak
      rw [hdone, htak]
      exact foldl_paused chunks _ rfl
    · rw [hfram.owed _ hstart hdone]
      have hunits : ((Utf8.write Utf8.clean (before ++ chunk)).2.flatMap Text.utf16).length ≤
          (Utf8.encode text).length := by
        obtain ⟨more, hmore⟩ := hstart
        have hall := Utf8.length_utf16_le text
        rw [← hmore, flatMap_append, length_append] at hall
        rw [← hmore]
        omega
      have hheld : ¬MAX_WIRE_FRAME_BYTES <
          ((Utf8.write Utf8.clean (before ++ chunk)).2.flatMap Text.utf16).length := by
        omega
      simp only [hheld, decide_false]
      exact ih _ hbyt hdone
where
  foldl_paused (chunks : List (List ℕ)) (s : Server) (h : s.framed = some ⟨frame, dialect, []⟩) :
      (chunks.foldl Server.data s).framed = some ⟨frame, dialect, []⟩ := by
    induction chunks generalizing s with
    | nil => exact h
    | cons chunk chunks ih =>
      rw [List.foldl_cons]
      apply ih
      rw [Server.data, h]
      simp [h]

lemma serveWireSocket_eq (hfram : Framed dialect frame text)
    (hsmall : (Utf8.encode text).length < MAX_WIRE_FRAME_BYTES) {chunks : List (List ℕ)}
    (hchunks : chunks.flatten = Utf8.encode text) :
    serveWireSocket chunks = some ⟨frame, dialect, []⟩ := by
  apply foldl_server hfram hsmall chunks [] hchunks
  intro hnil
  have htak := hfram.taken []
  rw [← show [] = text from hnil] at htak
  cases htak

lemma foldl_settled (chunks : List (List ℕ)) {s : Client} {value : Option Json}
    (h : s.settled = some value) :
    (chunks.foldl (Client.data T) s).settled = some value := by
  induction chunks generalizing s with
  | nil => exact h
  | cons chunk chunks ih =>
    rw [foldl_cons]
    apply ih
    rw [Client.data]
    cases takeWireFrame (s.buffer ++ Utf8.decode chunk) with
    | none => exact h
    | some framed => simp [h]

lemma foldl_client (hfram : Framed dialect frame text) {value : Json}
    (hdec : decodeWireFrame T frame = some value) (pieces : List Text) :
    ∀ before rest, before ++ pieces.flatten = text ++ rest → before <+: text → before ≠ text →
      ((pieces.map Utf8.encode).foldl (Client.data T) ⟨before, none⟩).settled =
        some (some value) := by
  induction pieces with
  | nil =>
    intro before rest htext hpart hne
    rw [flatten_nil, append_nil] at htext
    have hlong : text <+: before := ⟨rest, htext.symm⟩
    exact absurd (hpart.eq_of_length_le hlong.length_le) hne
  | cons piece pieces ih =>
    intro before rest htext hpart hne
    rw [flatten_cons, ← append_assoc] at htext
    rw [map_cons, foldl_cons, Client.data, Utf8.decode_encode]
    simp only
    have hheld : before ++ piece <+: text ++ rest := ⟨pieces.flatten, htext⟩
    have hwhole : text <+: text ++ rest := prefix_append text rest
    rcases prefix_or_prefix_of_prefix hwhole hheld with ⟨more, hmore⟩ | hshort
    · rw [← hmore, hfram.taken more]
      simp only [hdec]
      exact foldl_settled _ rfl
    · by_cases hdone : before ++ piece = text
      · have htak := hfram.taken []
        rw [append_nil] at htak
        rw [hdone, htak]
        simp only [hdec]
        exact foldl_settled _ rfl
      · rw [hfram.owed _ hshort hdone]
        exact ih _ rest htext hshort hdone

def Whole (chunks : List (List ℕ)) : Prop := ∀ chunk ∈ chunks, ∃ t, chunk = Utf8.encode t

lemma Whole.pieces {chunks : List (List ℕ)} (h : Whole chunks) :
    ∃ pieces : List Text, chunks = pieces.map Utf8.encode := by
  induction chunks with
  | nil => exact ⟨[], rfl⟩
  | cons chunk chunks ih =>
    obtain ⟨t, ht⟩ := h chunk mem_cons_self
    obtain ⟨pieces, hpiec⟩ := ih fun c hc => h c (mem_cons_of_mem _ hc)
    exact ⟨t :: pieces, by rw [ht, hpiec, map_cons]⟩

lemma receive_eq (hfram : Framed dialect frame text) {value : Json}
    (hdec : decodeWireFrame T frame = some value) {chunks : List (List ℕ)} {rest : Text}
    (hchunks : chunks.flatten = Utf8.encode (text ++ rest)) (hwhole : Whole chunks) :
    receive T chunks = some (some value) := by
  obtain ⟨pieces, rfl⟩ := hwhole.pieces
  rw [← Utf8.encode_flatten] at hchunks
  apply foldl_client hfram hdec pieces [] rest (Utf8.encode_injective hchunks)
  · exact nil_prefix
  · intro hnil
    have htak := hfram.taken []
    rw [← hnil] at htak
    cases htak

section
variable {c : Connection} {request response : Message} {more : List Json}

lemma sendFramedRequest_eq (hlaw : T.Lawful) (c : Connection)
    (hsmall : (requestBytes T request.json dialect).length < MAX_WIRE_FRAME_BYTES) :
    ∃ framed, serveWireSocket (c.up (requestBytes T request.json dialect)) = some framed ∧
      sendFramedRequest T c request.json dialect = ⟨[request.json],
        receive T (c.down (responseBytes T (c.handler request.json) framed.dialect))⟩ := by
  obtain ⟨asked, frame, hfram, hdec⟩ := carries_encodeWireFrame hlaw request dialect
  have hserve : serveWireSocket (c.up (requestBytes T request.json dialect)) =
      some ⟨frame, asked, []⟩ :=
    serveWireSocket_eq hfram hsmall (c.up_flatten _)
  refine ⟨_, hserve, ?_⟩
  rw [sendFramedRequest, hserve]
  simp only [hdec]

def Intact (T : Toon) (c : Connection) (request : Message) (dialect : ResidentWireDialect) : Prop :=
  ∀ framed, serveWireSocket (c.up (requestBytes T request.json dialect)) = some framed →
    Whole (c.down (responseBytes T (c.handler request.json) framed.dialect))

lemma sendFramedRequest_intact (hlaw : T.Lawful)
    (hsmall : (requestBytes T request.json dialect).length < MAX_WIRE_FRAME_BYTES)
    (hresp : c.handler request.json = response.json :: more)
    (hint : Intact T c request dialect) :
    sendFramedRequest T c request.json dialect = ⟨[request.json], some (some response.json)⟩ := by
  obtain ⟨framed, hserve, hsent⟩ := sendFramedRequest_eq hlaw c hsmall
  obtain ⟨answered, frame, hfram, hdec⟩ :=
    carries_encodeWireFrame hlaw response framed.dialect
  have hbyt : (c.down (responseBytes T (c.handler request.json) framed.dialect)).flatten =
      Utf8.encode (encodeWireFrame T response.json framed.dialect ++
        more.flatMap fun response => encodeWireFrame T response framed.dialect) := by
    rw [c.down_flatten, responseBytes, hresp, flatMap_cons]
  rw [hsent, receive_eq hfram hdec hbyt (hint framed hserve)]

lemma sendLineRequest_settles {pinned : Option ResidentWireDialect} {jsonOnly : Bool}
    {first second : Connection}
    (hsent : sendFramedRequest T first request.json
      (pinned.getD (residentWireDialectFor jsonOnly)) = ⟨[request.json], some (some response.json)⟩)
    (hretr : retries pinned jsonOnly request.json response.json = false) :
    sendLineRequest T pinned jsonOnly first second request.json =
      (⟨[request.json], some (some response.json)⟩, jsonOnly) := by
  have hdone : (pinned.isSome || pinned.getD (residentWireDialectFor jsonOnly) == .json ||
      !isUnintelligibleResponse request.json response.json) = true := by
    cases pinned with
    | some dialect => rfl
    | none =>
      cases jsonOnly with
      | true => rfl
      | false =>
        have hread : isUnintelligibleResponse request.json response.json = false := by
          simpa [retries] using hretr
        simp [hread]
  rw [sendLineRequest, hsent]
  simp only [hdone, if_true]

lemma sendLineRequest_retries {pinned : Option ResidentWireDialect} {jsonOnly : Bool}
    {first second : Connection} {again : Outcome}
    (hsent : sendFramedRequest T first request.json
      (pinned.getD (residentWireDialectFor jsonOnly)) = ⟨[request.json], some (some response.json)⟩)
    (hagain : sendFramedRequest T second request.json .json = again)
    (hretr : retries pinned jsonOnly request.json response.json = true) :
    sendLineRequest T pinned jsonOnly first second request.json =
      (⟨request.json :: again.calls, again.response⟩, true) := by
  rw [retries, Bool.and_eq_true, Bool.and_eq_true] at hretr
  obtain ⟨⟨hpinn, hjson⟩, hunr⟩ := hretr
  obtain rfl := Option.isNone_iff_eq_none.mp hpinn
  have hjson : jsonOnly = false := by simpa using hjson
  subst hjson
  have hagain' : (Option.isSome (none : Option ResidentWireDialect) ||
      (none : Option ResidentWireDialect).getD (residentWireDialectFor false) == .json ||
      !isUnintelligibleResponse request.json response.json) = false := by
    rw [hunr]
    rfl
  rw [sendLineRequest, hsent]
  simp only [hagain', hagain, Bool.false_eq_true, if_false, singleton_append]

/-- Over one connection the handler is called once with the request, however the bytes are cut. -/
theorem request_and_response_delivered (T : Toon) (hlaw : T.Lawful) (request : Message) :
    (∀ (c : Connection) (dialect : ResidentWireDialect),
      (requestBytes T request.json dialect).length < MAX_WIRE_FRAME_BYTES →
        (sendFramedRequest T c request.json dialect).calls = [request.json]) ∧
    ∀ (pinned : Option ResidentWireDialect) (jsonOnly : Bool) (first second : Connection)
      (response : Message) (more : List Json),
      (requestBytes T request.json (pinned.getD (residentWireDialectFor jsonOnly))).length <
        MAX_WIRE_FRAME_BYTES →
      first.handler request.json = response.json :: more →
      Intact T first request (pinned.getD (residentWireDialectFor jsonOnly)) →
        (retries pinned jsonOnly request.json response.json = false →
          sendLineRequest T pinned jsonOnly first second request.json =
            (⟨[request.json], some (some response.json)⟩, jsonOnly)) ∧
        (retries pinned jsonOnly request.json response.json = true →
          ∀ (response' : Message) (more' : List Json),
            (requestBytes T request.json .json).length < MAX_WIRE_FRAME_BYTES →
            second.handler request.json = response'.json :: more' →
            Intact T second request .json →
              sendLineRequest T pinned jsonOnly first second request.json =
                (⟨[request.json, request.json], some (some response'.json)⟩, true)) := by
  refine ⟨fun c dialect hsmall => ?_, ?_⟩
  · obtain ⟨framed, -, hsent⟩ := sendFramedRequest_eq hlaw c hsmall
    rw [hsent]
  · intro pinned jsonOnly first second response more hsmall hresp hint
    have hsent := sendFramedRequest_intact hlaw hsmall hresp hint
    refine ⟨fun hretr => sendLineRequest_settles hsent hretr, ?_⟩
    intro hretr response' more' hsmall' hresp' hint'
    have hagain := sendFramedRequest_intact hlaw hsmall' hresp' hint'
    exact sendLineRequest_retries hsent hagain hretr

end

section

/-- A package that knows the documents of a few values, and refuses the others. -/
def knowing (documents : List (Text × Text)) : Toon where
  encode v := (documents.find? fun d => d.1 == v.stringify).map Prod.snd
  decode t := (documents.find? fun d => d.2 == t || d.2 ++ ['\n'] == t).bind fun d => Json.parse d.1

/-- A document of an object does not open so. -/
def opensAstray (c : Char) : Bool := Text.isWhitespace c || c == '{' || c == '['

def Told (documents : List (Text × Text)) (d : Text × Text) : Prop :=
  (documents.find? fun e => e.2 == d.2 || e.2 ++ ['\n'] == d.2) = some d ∧
    (documents.find? fun e => e.2 == d.2 ++ ['\n'] || e.2 ++ ['\n'] == d.2 ++ ['\n']) = some d ∧
    ¬['\n', '\n'] <:+: d.2 ∧ d.2.head?.any opensAstray = false

instance (documents : List (Text × Text)) (d : Text × Text) : Decidable (Told documents d) :=
  inferInstanceAs (Decidable (_ ∧ _ ∧ _ ∧ _))

lemma knowing_lawful {documents : List (Text × Text)} (h : ∀ d ∈ documents, Told documents d) :
    (knowing documents).Lawful := by
  have hfound : ∀ {v : Json} {body : Text}, (knowing documents).encode v = some body →
      Told documents (v.stringify, body) := by
    intro v body henc
    obtain ⟨d, hd, rfl⟩ := Option.map_eq_some_iff.mp henc
    have hkey : d.1 = v.stringify := by simpa using find?_some hd
    rw [← hkey]
    exact h d (mem_of_find?_eq_some hd)
  constructor
  · intro v body hprop henc
    rw [knowing]
    simp only
    rw [(hfound henc).1, Option.bind_some]
    exact Json.parse_stringify hprop
  · intro v body hprop henc
    rw [knowing]
    simp only
    rw [(hfound henc).2.1, Option.bind_some]
    exact Json.parse_stringify hprop
  · intro fields body henc
    exact (hfound henc).2.2.1
  · intro fields body henc c hc
    have hopens := (hfound henc).2.2.2
    rw [show body.head? = some c from hc, Option.any_some, opensAstray, Bool.or_eq_false_iff,
      Bool.or_eq_false_iff, beq_eq_false_iff_ne, beq_eq_false_iff_ne] at hopens
    exact ⟨hopens.1.1, hopens.1.2, hopens.2⟩

def envelope (id : Text) (ok : Option Bool) : Message where
  fields := ("id".toList, .string id) :: (ok.map fun b => ("ok".toList, .bool b)).toList
  proper := by
    cases ok with
    | none =>
      refine .object (by simp) ?_
      intro f hf
      obtain rfl := List.mem_singleton.mp hf
      exact .string id
    | some b =>
      refine .object (by simp) ?_
      intro f hf
      rcases List.mem_cons.mp hf with rfl | hf
      · exact .string id
      · obtain rfl := List.mem_singleton.mp hf
        exact .bool b

def envelopes : Toon :=
  knowing
    [("\x7b\"id\":\"a\"\x7d".toList, "id: a".toList),
      ("\x7b\"id\":\"a\",\"ok\":true\x7d".toList, "id: a\nok: true".toList),
      ("\x7b\"id\":\"b\",\"ok\":false\x7d".toList, "id: b\nok: false".toList)]

lemma envelopes_lawful : envelopes.Lawful := knowing_lawful (by decide +kernel)

def byByte (responses : List Json) : Connection where
  handler _ := responses
  onFailure := []
  up bytes := bytes.map fun b => [b]
  down bytes := [bytes]
  up_flatten bytes := by induction bytes <;> simp_all
  down_flatten bytes := by simp

lemma byByte_intact (T : Toon) (responses : List Json) (request : Message)
    (dialect : ResidentWireDialect) : Intact T (byByte responses) request dialect := by
  intro framed _ chunk hchunk
  obtain rfl := mem_singleton.mp hchunk
  exact ⟨_, rfl⟩

lemma request_small (dialect : ResidentWireDialect) :
    (requestBytes envelopes (envelope ['a'] none).json dialect).length < MAX_WIRE_FRAME_BYTES := by
  have hlength : (requestBytes envelopes (envelope ['a'] none).json dialect).length ≤ 11 := by
    cases dialect with
    | json => decide +kernel
    | toon => decide +kernel
  have hmax : 11 < MAX_WIRE_FRAME_BYTES := by decide
  omega

theorem delivered_by_byte : envelopes.Lawful ∧
      sendLineRequest envelopes none false (byByte [(envelope ['a'] (some true)).json])
          (byByte []) (envelope ['a'] none).json =
        (⟨[(envelope ['a'] none).json], some (some (envelope ['a'] (some true)).json)⟩, false) := by
  refine ⟨envelopes_lawful, ?_⟩
  have hdel := (request_and_response_delivered envelopes envelopes_lawful
    (envelope ['a'] none)).2 none false (byByte [(envelope ['a'] (some true)).json]) (byByte [])
      (envelope ['a'] (some true)) [] (request_small _) rfl (byByte_intact _ _ _ _)
  exact hdel.1 (by decide +kernel)

/-- The response comes in two pieces. -/
def cutAt (n : ℕ) (responses : List Json) : Connection where
  handler _ := responses
  onFailure := []
  up bytes := [bytes]
  down bytes := [bytes.take n, bytes.drop n]
  up_flatten bytes := by simp
  down_flatten bytes := by simp

lemma cut_run :
    (sendLineRequest envelopes (some .json) false (cutAt 8 [(envelope ['é'] none).json]) (byByte [])
      (envelope ['a'] none).json).1.response.map (fun value => value.map Json.stringify) =
        some (some ("\x7b\"id\":\"".toList ++ [Utf8.replacement, Utf8.replacement] ++ "\"\x7d".toList)) := by
  decide +kernel

/-- A response of another id calls the handler again, and the promise has the response of the second
call. -/
theorem second_call_and_cut_letter :
    sendLineRequest envelopes none false (byByte [(envelope ['b'] (some false)).json])
        (byByte [(envelope ['a'] (some true)).json]) (envelope ['a'] none).json =
      (⟨[(envelope ['a'] none).json, (envelope ['a'] none).json],
        some (some (envelope ['a'] (some true)).json)⟩, true) ∧
    (sendLineRequest envelopes (some .json) false (cutAt 8 [(envelope ['é'] none).json]) (byByte [])
      (envelope ['a'] none).json).1.response ≠ some (some (envelope ['é'] none).json) := by
  constructor
  · have hsent := sendFramedRequest_intact envelopes_lawful
      (request_small ((none : Option ResidentWireDialect).getD (residentWireDialectFor false)))
      (show (byByte [(envelope ['b'] (some false)).json]).handler (envelope ['a'] none).json =
        (envelope ['b'] (some false)).json :: [] from rfl) (byByte_intact _ _ _ _)
    have hagain := sendFramedRequest_intact envelopes_lawful (request_small .json)
      (show (byByte [(envelope ['a'] (some true)).json]).handler (envelope ['a'] none).json =
        (envelope ['a'] (some true)).json :: [] from rfl) (byByte_intact _ _ _ _)
    exact sendLineRequest_retries hsent hagain (by decide +kernel)
  · intro hdel
    have hcut := cut_run
    rw [hdel] at hcut
    exact absurd hcut (by decide +kernel)

end
end Redskilled.Host.ResidentWire
