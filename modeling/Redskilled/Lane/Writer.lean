import Redskilled.Foundation.Machine
import Redskilled.Lane.Compaction
import Redskilled.Lane.PlainToon

/-!
# The lane writer

One writer appends to the lane, one event after the other. Before each append it
cuts off what a crash left behind the last newline. Then it takes the event's lines
from its emitter and either appends them or, where they would pass the ceiling,
rotates. Any of these steps may throw.

The emitter advances when it is asked for the lines, whether or not they reach the
file. A header that was lost this way is not written again, and the rows behind it
stand under the wrong header or under none.
-/
namespace Redskilled.Lane
open Foundation

variable {ν : Type*} [DecidableEq ν]

structure Writer where
  file : Bytes
  emitter : Emitter

inductive Outcome where
  /-- It throws before it has the lines, with the tail cut off or not. -/
  | stopsEarly (dropped : Bool)
  | sizeUnknown
  /-- The write throws when so many bytes are in the file. -/
  | torn (bytes : ℕ)
  | written
  /-- The rotation throws, with the new generation in place or not. -/
  | rotationFails (replaced : Bool)
  | rotated

namespace Outcome

def resolves : Outcome → Bool
  | written | rotated => true
  | _ => false

def landed : Outcome → Option ℕ
  | sizeUnknown | rotationFails false => some 0
  | torn bytes => some bytes
  | stopsEarly _ | written | rotationFails true | rotated => none

def replaces : Outcome → Bool
  | rotated | rotationFails true => true
  | _ => false

end Outcome

structure Append (ν : Type*) where
  event : HostEvent ν
  outcome : Outcome

section
variable (toon : Toon ν) (conv : Conversions ν) (maxBytes : ℕ)

def append (w : Writer) (a : Append ν) : Option Writer :=
  let file := dropIncompleteTail newline w.file
  let pushed := w.emitter.push toon (toRow conv a.event)
  let fits : Bool := file.length + pushed.1.length ≤ maxBytes
  let generation := rotateEventLane toon conv (parseEventLane toon conv file) maxBytes a.event
  match a.outcome with
  | .stopsEarly dropped => some { w with file := if dropped then file else w.file }
  | .sizeUnknown => some ⟨file, pushed.2⟩
  | .torn bytes => if fits then some ⟨file ++ pushed.1.take bytes, pushed.2⟩ else none
  | .written => if fits then some ⟨file ++ pushed.1, pushed.2⟩ else none
  | .rotationFails false => if fits then none else some ⟨file, pushed.2⟩
  | .rotationFails true =>
    match fits, generation with
    | false, .ok compact => some ⟨encodeEventLane toon conv compact, pushed.2⟩
    | _, _ => none
  | .rotated =>
    match fits, generation with
    | false, .ok compact => some ⟨encodeEventLane toon conv compact, encodeToonlLines⟩
    | _, _ => none

def createRedskilledEventLane : Machine Writer (Append ν) where
  start w := w.emitter = encodeToonlLines
  next := append toon conv maxBytes

/-- An append that throws with its lines in hand leaves their header on the lane:
it governs there already, or it is among the bytes that were written. -/
def HeaderKept (w : Writer) (a : Append ν) : Prop :=
  ∀ bytes ∈ a.outcome.landed, lastHeader w.file = some (headerOf toon conv a.event) ∨
      w.emitter ≠ some (headerOf toon conv a.event) ∧ (headerOf toon conv a.event).length < bytes

def InStep (w : Writer) : Prop := w.emitter.Agrees (lastHeader w.file)

end

section
variable {toon : Toon ν} {conv : Conversions ν} {maxBytes : ℕ} {w t : Writer} {a : Append ν}

lemma append_cases (h : append toon conv maxBytes w a = some t) :
    (a.outcome.landed = none ∧ a.outcome.resolves = false ∧ a.outcome.replaces = false ∧
      (t.file = w.file ∨ t.file = dropIncompleteTail newline w.file) ∧ t.emitter = w.emitter) ∨
    (∃ bytes, a.outcome.landed = some bytes ∧ a.outcome.resolves = false ∧
      t.file = dropIncompleteTail newline w.file ++
        (w.emitter.push toon (toRow conv a.event)).1.take bytes ∧
      t.emitter = some (headerOf toon conv a.event)) ∨
    (a.outcome = .written ∧
      t.file = dropIncompleteTail newline w.file ++ (w.emitter.push toon (toRow conv a.event)).1 ∧
      t.emitter = some (headerOf toon conv a.event)) ∨
    (a.outcome.replaces = true ∧ ∃ compact, rotateEventLane toon conv
        (parseEventLane toon conv (dropIncompleteTail newline w.file)) maxBytes a.event =
          .ok compact ∧
      t.file = encodeEventLane toon conv compact ∧
      (t.emitter = encodeToonlLines ∨ t.emitter = some (headerOf toon conv a.event))) := by
  obtain ⟨event, outcome⟩ := a
  cases outcome with
  | stopsEarly dropped =>
    cases h
    cases dropped
    · exact .inl ⟨rfl, rfl, rfl, .inl rfl, rfl⟩
    · exact .inl ⟨rfl, rfl, rfl, .inr rfl, rfl⟩
  | sizeUnknown =>
    cases h
    exact .inr (.inl ⟨0, rfl, rfl, by simp, rfl⟩)
  | torn bytes =>
    simp only [append] at h
    split at h
    · cases h
      exact .inr (.inl ⟨bytes, rfl, rfl, rfl, rfl⟩)
    · cases h
  | written =>
    simp only [append] at h
    split at h
    · cases h
      exact .inr (.inr (.inl ⟨rfl, rfl, rfl⟩))
    · cases h
  | rotationFails replaced =>
    cases replaced
    · simp only [append] at h
      split at h
      · cases h
      · cases h
        exact .inr (.inl ⟨0, rfl, rfl, by simp, rfl⟩)
    · simp only [append] at h
      split at h
      · next compact _ hok =>
        cases h
        exact .inr (.inr (.inr ⟨rfl, compact, hok, rfl, .inr rfl⟩))
      · cases h
  | rotated =>
    simp only [append] at h
    split at h
    · next compact _ hok =>
      cases h
      exact .inr (.inr (.inr ⟨rfl, compact, hok, rfl, .inl rfl⟩))
    · cases h

lemma inStep_append (law : toon.Lawful conv) (hw : InStep w) (hkept : HeaderKept toon conv w a)
    (h : append toon conv maxBytes w a = some t) : InStep t := by
  rcases append_cases h with ⟨-, -, -, hfile, hemitt⟩ | ⟨bytes, hland, -, hfile, hemitt⟩ |
    ⟨-, hfile, hemitt⟩ | ⟨-, compact, hok, hfile, hemitt⟩
  · have hheader : lastHeader t.file = lastHeader w.file := by
      rcases hfile with hfile | hfile
      · rw [hfile]
      · rw [hfile, lastHeader_drop]
    rw [InStep, hemitt, hheader]
    exact hw
  · rw [InStep, hemitt, hfile, lastHeader_append, governing_take law a.event (hkept bytes hland)]
    exact agrees_self _
  · have hlin := @newline_notMem_lines _ _ _ w.emitter law a.event
    rw [InStep, hemitt, hfile, lastHeader_append, Emitter.push, completeLines_unlines hlin,
      governing_lines law a.event hw]
    exact agrees_self _
  · obtain ⟨kept, rfl⟩ := rotate_concat hok
    rw [InStep, hfile, lastHeader_encode law]
    rcases hemitt with hemitt | hemitt
    · rw [hemitt]
      exact agrees_none
    · rw [hemitt]
      exact agrees_self _

lemma inStep_of_reach (law : toon.Lawful conv)
    (h : (createRedskilledEventLane toon conv maxBytes).Reach (HeaderKept toon conv) w) :
    InStep w := by
  refine Machine.Reach.inv InStep (fun s hs => ?_) (fun s a t hs hok hn => ?_) h
  · rw [InStep, show s.emitter = encodeToonlLines from hs]
    exact agrees_none
  · exact inStep_append law hs hok hn

lemma parse_prefix_append (h : append toon conv maxBytes w a = some t)
    (hkeeps : a.outcome.replaces = false) :
    parseEventLane toon conv w.file <+: parseEventLane toon conv t.file := by
  rcases append_cases h with ⟨-, -, -, hfile, -⟩ | ⟨bytes, -, -, hfile, -⟩ | ⟨-, hfile, -⟩ |
    ⟨hrepl, -⟩
  · rcases hfile with hfile | hfile
    · rw [hfile]
    · rw [hfile, parse_drop]
  · rw [hfile, ← parse_drop w.file]
    exact parse_prefix _ _
  · rw [hfile, ← parse_drop w.file]
    exact parse_prefix _ _
  · rw [hrepl] at hkeeps
    cases hkeeps

lemma parse_prefix_run {later : List (Append ν)}
    (h : (createRedskilledEventLane toon conv maxBytes).Run anyStep w later t)
    (hlater : ∀ b ∈ later, b.outcome.replaces = false) :
    parseEventLane toon conv w.file <+: parseEventLane toon conv t.file := by
  induction h with
  | nil => exact List.prefix_rfl
  | cons _ hn _ ih =>
    have hhead := parse_prefix_append hn (hlater _ List.mem_cons_self)
    exact hhead.trans (ih fun b hb => hlater b (List.mem_cons_of_mem _ hb))

lemma parse_resolved (law : toon.Lawful conv) (hw : InStep w)
    (h : append toon conv maxBytes w a = some t) (hresolves : a.outcome.resolves = true) :
    ∃ before, parseEventLane toon conv t.file = before ++ [readBack a.event] ∧
      (a.outcome = .written → before = parseEventLane toon conv w.file) := by
  rcases append_cases h with ⟨-, hno, -⟩ | ⟨bytes, -, hno, -⟩ | ⟨-, hfile, -⟩ |
    ⟨hrepl, compact, hok, hfile, -⟩
  · rw [hresolves] at hno
    cases hno
  · rw [hresolves] at hno
    cases hno
  · refine ⟨parseEventLane toon conv w.file, ?_, fun _ => rfl⟩
    have hlin := @newline_notMem_lines _ _ _ w.emitter law a.event
    have hgov : w.emitter.Agrees
        (governing none (completeLines newline (dropIncompleteTail newline w.file))) := by
      rw [completeLines_drop]
      exact hw
    rw [hfile, parse_append (atBoundary_drop _), parse_drop, Emitter.push,
      completeLines_unlines hlin, records_lines law a.event hgov]
    simp [hostEvent_toRow]
  · obtain ⟨kept, rfl⟩ := rotate_concat hok
    refine ⟨kept.map readBack, ?_, fun hwritt => ?_⟩
    · rw [hfile, parse_encode law, List.map_append, List.map_singleton]
    · rw [hwritt] at hrepl
      cases hrepl

/-- In a run that loses no header every append that resolves is read back, behind what was read
before, until another generation takes the lane's place. -/
theorem resolved_is_read_back (law : toon.Lawful conv) {u : Writer} {later : List (Append ν)}
    (hw : (createRedskilledEventLane toon conv maxBytes).Reach (HeaderKept toon conv) w)
    (hstep : (createRedskilledEventLane toon conv maxBytes).next w a = some u)
    (hresolves : a.outcome.resolves = true)
    (hrun : (createRedskilledEventLane toon conv maxBytes).Run anyStep u later t)
    (hlater : ∀ b ∈ later, b.outcome.replaces = false) :
    (∃ before after, parseEventLane toon conv t.file = before ++ readBack a.event :: after ∧
          (a.outcome = .written → before = parseEventLane toon conv w.file)) ∧
      (readBack a.event = withMode a.event ↔ Plain a.event) := by
  refine ⟨?_, readBack_eq_iff a.event⟩
  obtain ⟨before, hbef, hwritt⟩ := parse_resolved law (inStep_of_reach law hw) hstep hresolves
  obtain ⟨after, haft⟩ := parse_prefix_run hrun hlater
  refine ⟨before, after, ?_, hwritt⟩
  rw [← haft, hbef, List.append_assoc, List.singleton_append]

end

section
open PlainToon

def birth : HostEvent ℕ :=
  buildHostEvent { kind := .workerBirth, worker := { workerId := ['a'], pid := 7 } }

def lane : Machine Writer (Append ℕ) := createRedskilledEventLane toon conv 10000

/-- The write of a header fails, and the next row stands without one. -/
theorem lost_header : toon.Lawful conv ∧ Plain birth ∧
      ∃ w t, lane.Reach anyStep w ∧ lane.next w ⟨birth, .written⟩ = some t ∧
        parseEventLane toon conv t.file = [] := by
  refine ⟨lawful, by decide, ?_⟩
  have hstart : lane.start ⟨[], none⟩ := rfl
  have hrun : ((lane.next ⟨[], none⟩ ⟨birth, .torn 0⟩).bind fun w =>
      (lane.next w ⟨birth, .written⟩).map fun t => parseEventLane toon conv t.file) = some [] := by
    decide +kernel
  obtain ⟨w, hw, hwt⟩ := Option.bind_eq_some_iff.mp hrun
  obtain ⟨t, ht, hparse⟩ := Option.map_eq_some_iff.mp hwt
  exact ⟨w, t, (Machine.Reach.of_start hstart).step trivial hw, ht, hparse⟩

theorem read_back_after_torn : ∃ w u, lane.next ⟨[], none⟩ ⟨birth, .torn 70⟩ = some w ∧
      lane.next w ⟨birth, .written⟩ = some u ∧
      (∃ before after, parseEventLane toon conv u.file = before ++ readBack birth :: after ∧
          (Outcome.written = .written → before = parseEventLane toon conv w.file)) ∧
      (readBack birth = withMode birth ↔ Plain birth) := by
  have hstart : lane.start ⟨[], none⟩ := rfl
  have hrun : ((lane.next ⟨[], none⟩ ⟨birth, .torn 70⟩).bind fun w =>
      lane.next w ⟨birth, .written⟩).isSome = true := by decide +kernel
  obtain ⟨u, hu⟩ := Option.isSome_iff_exists.mp hrun
  obtain ⟨w, hw, hwu⟩ := Option.bind_eq_some_iff.mp hu
  have hlong : (headerOf toon conv birth).length < 70 := by decide +kernel
  have hkept : HeaderKept toon conv ⟨[], none⟩ ⟨birth, .torn 70⟩ := by
    intro bytes hbyt
    cases hbyt
    exact .inr ⟨nofun, hlong⟩
  have hreach : lane.Reach (HeaderKept toon conv) w :=
    (Machine.Reach.of_start hstart).step hkept hw
  exact ⟨w, u, hw, hwu, resolved_is_read_back lawful hreach hwu rfl (.nil u) (by simp)⟩

end
end Redskilled.Lane
