import Redskilled.Foundation.Lines
import Redskilled.Lane.Event

/-!
# The line emitter

A lane is a text of lines. An event is one line, under a header that names the
fields of its row, and the emitter writes a header only where the fields change.
How a header and a row are spelled belongs to the format library; here it is a
parameter.
-/
namespace Redskilled.Lane
open Foundation

variable {ν : Type*}

abbrev Bytes := List UInt8

def newline : UInt8 := 10

/-- The spelling of one row: its header and its line, and how a line is read back
under a header. A line that does not fit its header is refused. -/
structure Toon (ν : Type*) where
  header : Row ν → Bytes
  line : Row ν → Bytes
  parseRecords : Bytes → Bytes → Option (List (Row ν))

/-- The header the emitter has in hand. -/
abbrev Emitter := Option Bytes

/-- `encodeToonlLines({ trailer: false })`. -/
def encodeToonlLines : Emitter := none

namespace Emitter
variable (toon : Toon ν)

def lines (emitter : Emitter) (row : Row ν) : List Bytes :=
  if emitter = some (toon.header row) then [toon.line row]
  else [toon.header row, toon.line row]

def push (emitter : Emitter) (row : Row ν) : Bytes × Emitter :=
  (unlines newline (emitter.lines toon row), some (toon.header row))

end Emitter

section
variable (toon : Toon ν) (conv : Conversions ν)

def headerOf (event : HostEvent ν) : Bytes := toon.header (toRow conv event)

def encodeFrom (emitter : Emitter) : List (HostEvent ν) → List Bytes
  | [] => []
  | event :: events =>
    emitter.lines toon (toRow conv event) ++ encodeFrom (some (headerOf toon conv event)) events

def encodeEventLane (events : List (HostEvent ν)) : Bytes :=
  unlines newline (encodeFrom toon conv encodeToonlLines events)

end
end Redskilled.Lane
