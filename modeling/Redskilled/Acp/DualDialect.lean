import Redskilled.Host.ResidentExchange

/-!
# The stream of two dialects

Frames of either dialect come in over one socket, and each is read in the dialect that its own
first character tells. What is handed on wears the envelope of JSON-RPC; what is written goes
out in the dialect of the last frame that could be read, or in the preferred one before any. A
frame that cannot be read is skipped, and a frame that is not terminated at the end of the
input is read all the same.

The socket hands out the bytes in chunks. One decoder turns them into text, without the byte
order mark that a stream may start with.
-/
namespace Redskilled.Acp.DualDialect
open Foundation Host.ResidentWire

def JSONRPC_ENVELOPE_VERSION : Text := "2.0".toList
def TOONRPC_ENVELOPE_VERSION : Text := "1.0".toList

def jsonrpcKey : Text := "jsonrpc".toList
def toonrpcKey : Text := "toonrpc".toList

def inboundFields (fields : List (Text × Json)) : List (Text × Json) :=
  (jsonrpcKey, .string JSONRPC_ENVELOPE_VERSION) ::
    fields.filter fun field => field.1 ≠ toonrpcKey ∧ field.1 ≠ jsonrpcKey

mutual

def inboundEnvelope : Json → Json
  | .array items => .array (inboundItems items)
  | .object fields => .object (inboundFields fields)
  | decoded =>
    .object [(jsonrpcKey, .string JSONRPC_ENVELOPE_VERSION), ("invalid".toList, decoded)]

def inboundItems : List Json → List Json
  | [] => []
  | item :: items => inboundEnvelope item :: inboundItems items

end

/-- A message is an object or a batch. -/
def outboundEnvelope (message : Json) (dialect : ResidentWireDialect) : Json :=
  match dialect, message with
  | .toon, .object fields =>
    .object (Json.addField toonrpcKey (.string TOONRPC_ENVELOPE_VERSION)
      (fields.filter fun field => field.1 ≠ jsonrpcKey))
  | _, message => message

def byteOrderMark : Char := Char.ofNat 0xfeff

def withoutMark : Text → Text
  | [] => []
  | c :: t => if c = byteOrderMark then t else c :: t

/-- `new TextDecoder()`, and whether a character has come out of it. -/
structure TextDecoder where
  decoder : Utf8.Decoder
  started : Bool

def TextDecoder.new : TextDecoder := { decoder := Utf8.clean, started := false }

def TextDecoder.decode (d : TextDecoder) (value : List ℕ) : TextDecoder × Text :=
  let r := Utf8.write d.decoder value
  ({ decoder := r.1, started := d.started || !r.2.isEmpty },
    if d.started then r.2 else withoutMark r.2)

/-- What the stream keeps, and what it has handed on. -/
structure Stream where
  textDecoder : TextDecoder
  buffer : Text
  peerDialect : Option ResidentWireDialect
  enqueued : List Json
  /-- `controller.error` was called. -/
  errored : Bool

def Stream.start : Stream :=
  { textDecoder := .new, buffer := [], peerDialect := none, enqueued := [], errored := false }

section
variable (T : Toon)

def decodeWireFrameStrict (frame : Text) : ResidentWireDialect → Option Json
  | .json => Json.parse frame
  | .toon => T.decode frame

def decodeAndEnqueue (s : Stream) (frame : Text) (dialect : ResidentWireDialect) : Stream :=
  match decodeWireFrameStrict T frame dialect with
  | none => s
  | some decoded =>
    { s with peerDialect := some dialect, enqueued := s.enqueued ++ [inboundEnvelope decoded] }

def exceedsCeiling (buffer : Text) : Bool :=
  decide (MAX_WIRE_FRAME_BYTES < (buffer.flatMap Text.utf16).length)

/-- The frames of the buffer, one after the other. Each is shorter than the buffer, whose length
bounds their number. -/
def drain : ℕ → Stream → Stream
  | 0, s => s
  | fuel + 1, s =>
    match takeWireFrame s.buffer with
    | none => { s with errored := exceedsCeiling s.buffer }
    | some taken =>
      drain fuel (decodeAndEnqueue T { s with buffer := taken.rest } taken.frame taken.dialect)

/-- One round of the loop in `start`. -/
def Stream.read (s : Stream) (value : List ℕ) : Stream :=
  if s.errored then s
  else
    let r := s.textDecoder.decode value
    let buffer := s.buffer ++ r.2
    drain T (buffer.length + 1) { s with textDecoder := r.1, buffer := buffer }

def Stream.close (s : Stream) : Stream :=
  let remainder := Text.trim s.buffer
  if s.errored ∨ remainder = [] then s
  else
    decodeAndEnqueue T s remainder
      (if remainder.head? = some '{' ∨ remainder.head? = some '[' then .json else .toon)

/-- The bytes that a message is written as. -/
def Stream.write (s : Stream) (preferred : ResidentWireDialect) (message : Json) : List ℕ :=
  let dialect := s.peerDialect.getD preferred
  Utf8.encode (encodeWireFrame T (outboundEnvelope message dialect) dialect)

def Stream.readAll (s : Stream) (chunks : List (List ℕ)) : Stream :=
  chunks.foldl (Stream.read T) s

/-- What `dualDialectStream` makes of an input. -/
def dualDialectStream (chunks : List (List ℕ)) : Stream :=
  (Stream.start.readAll T chunks).close T

end

/-- A line with a JSON object, a TOON document, or a line of anything else. -/
inductive Item where
  | json (line : Text) (fields : List (Text × Json))
  | toon (document : Text) (fields : List (Text × Json))
  | unreadable (line : Text)

def Item.text : Item → Text
  | .json line _ => line ++ ['\n']
  | .toon document _ => document ++ ['\n', '\n']
  | .unreadable line => line ++ ['\n']

def Item.message : Item → Option (ResidentWireDialect × List (Text × Json))
  | .json _ fields => some (.json, fields)
  | .toon _ fields => some (.toon, fields)
  | .unreadable _ => none

def wire (items : List Item) : Text := items.flatMap Item.text

def messages (items : List Item) : List (ResidentWireDialect × List (Text × Json)) :=
  items.filterMap Item.message

abbrev IsBracket (c : Char) : Prop := c = '{' ∨ c = '['

/-- What each item is said to be. The white space that a line starts with is none of a JSON
text, and a document starts with its first key. -/
def Item.WellFormed (T : Toon) : Item → Prop
  | .json line fields =>
    '\n' ∉ line ∧ Json.parse (line.dropWhile isLineEnd) = some (.object fields)
  | .toon document fields =>
    (∃ c t, document = c :: t ∧ Text.isWhitespace c = false ∧ ¬ IsBracket c) ∧
      ¬ ['\n', '\n'] <:+: document ++ ['\n'] ∧
        T.decode (document ++ ['\n']) = some (.object fields)
  | .unreadable line => '\n' ∉ line

end Redskilled.Acp.DualDialect
