import Redskilled.Foundation.Machine
import Redskilled.Lane.Decode

/-!
# Following the lane

A reader follows the lane by a position: the generation it read and how many bytes
of it. The next read decodes those bytes again, counts their events and delivers the
ones behind them. Meanwhile the lane grows by appends, one of which a crash may cut
off anywhere, a writer cuts off what a crash left, and a rotation puts another
generation in the lane's place.

A position may lie inside an unfinished row. Once a writer has cut that row off,
other rows can be complete below the position, and the next read counts them as
seen. The reader skips nothing exactly if that never happens.
-/
namespace Redskilled.Lane
open Foundation List Option

variable {ε : Type*}

section
variable (event : Bytes → Bytes → ε)

def rowsFrom (header : Option Bytes) : List Bytes → List ε
  | [] => []
  | line :: lines =>
    if isHeader line then rowsFrom (some line) lines
    else
      match header with
      | none => rowsFrom none lines
      | some h => event h line :: rowsFrom (some h) lines

def decodeLane (raw : Bytes) : List ε := rowsFrom event none (completeLines newline raw)

end

section
variable {event : Bytes → Bytes → ε} {raw b x : Bytes}

lemma rowsFrom_append (header : Option Bytes) (ls ms : List Bytes) :
    rowsFrom event header (ls ++ ms) =
      rowsFrom event header ls ++ rowsFrom event (governing header ls) ms := by
  induction ls generalizing header with
  | nil => rfl
  | cons line ls ih =>
    by_cases hline : isHeader line
    · simp [rowsFrom, governing, hline, ih]
    · cases header with
      | none => simp [rowsFrom, governing, hline, ih]
      | some h => simp [rowsFrom, governing, hline, ih]

/-- The rows that came behind a boundary. -/
def rowsBehind (event : Bytes → Bytes → ε) (b x : Bytes) : List ε :=
  rowsFrom event (governing none (completeLines newline b)) (completeLines newline x)

lemma decodeLane_append (h : AtBoundary newline b) :
    decodeLane event (b ++ x) = decodeLane event b ++ rowsBehind event b x := by
  rw [decodeLane, completeLines_append h, rowsFrom_append, decodeLane, rowsBehind]

lemma decodeLane_drop (raw : Bytes) :
    decodeLane event (dropIncompleteTail newline raw) = decodeLane event raw := by
  rw [decodeLane, completeLines_drop, decodeLane]

lemma rowsBehind_take (b x : Bytes) (n : ℕ) :
    rowsBehind event b (x.take n) <+: rowsBehind event b x := by
  conv_rhs => rw [← take_append_drop n x]
  rw [rowsBehind, rowsBehind, completeLines_append_tail, rowsFrom_append]
  exact prefix_append _ _

end

structure EventLanePosition where
  generation : ℕ
  offset : ℕ

inductive ReadStatus where
  | current | rebaselineRequired
  deriving DecidableEq

structure PositionedEventRead (ε : Type*) where
  status : ReadStatus
  found : Bool
  events : List ε
  position : Option EventLanePosition

/-- The lane is a generation and its bytes, or there is no file. -/
def readPositionedEventLane (decode : Bytes → List ε) (lane : Option (ℕ × Bytes))
    (position : Option EventLanePosition) : PositionedEventRead ε :=
  match lane with
  | none =>
    { status := if position.isNone then .current else .rebaselineRequired
      found := false
      events := []
      position := none }
  | some (generation, raw) =>
    let nextPosition : EventLanePosition := ⟨generation, raw.length⟩
    match position with
    | none => ⟨.current, true, decode raw, some nextPosition⟩
    | some p =>
      if p.generation ≠ generation ∨ p.offset > raw.length then
        ⟨.rebaselineRequired, true, decode raw, some nextPosition⟩
      else
        let seen := (decode (raw.take p.offset)).length
        ⟨.current, true, (decode raw).drop seen, some nextPosition⟩

structure Following (ε : Type*) where
  lane : Option (ℕ × Bytes)
  generations : ℕ
  position : Option EventLanePosition
  lastRead : Bytes
  delivered : List ε
  /-- Some read has required a new baseline. -/
  rebaselined : Bool

inductive Move where
  /-- A writer cuts off what stands behind the last newline. -/
  | truncate
  /-- Bytes behind a boundary: whole rows, or as many of their bytes as a crash let through. -/
  | extend (bytes : Bytes)
  | rotate (bytes : Bytes)
  | read
  deriving DecidableEq

section
variable (event : Bytes → Bytes → ε)

def Following.read (s : Following ε) : Following ε :=
  let result := readPositionedEventLane (decodeLane event) s.lane s.position
  { s with
    position := result.position
    lastRead := (s.lane.map Prod.snd).getD []
    delivered := s.delivered ++ result.events
    rebaselined := s.rebaselined || result.status = .rebaselineRequired }

def follow (s : Following ε) (move : Move) : Option (Following ε) :=
  match move with
  | .truncate =>
    some { s with lane := s.lane.map fun (g, raw) => (g, dropIncompleteTail newline raw) }
  | .extend bytes =>
    match s.lane with
    | none => some { s with lane := some (s.generations, bytes), generations := s.generations + 1 }
    | some (g, raw) =>
      if AtBoundary newline raw then some { s with lane := some (g, raw ++ bytes) } else none
  | .rotate bytes =>
    if AtBoundary newline bytes then
      some { s with lane := some (s.generations, bytes), generations := s.generations + 1 }
    else none
  | .read => some (s.read event)

def following : Machine (Following ε) Move where
  start s :=
    (∀ g raw, s.lane = some (g, raw) → g < s.generations) ∧ s.position = none ∧
      s.lastRead = [] ∧ s.delivered = [] ∧ s.rebaselined = false
  next := follow event

/-- Nothing is missing and nothing twice: what was delivered is what the lane held at
the last read. -/
def SkipsNothing (s : Following ε) : Prop :=
  s.rebaselined = false → s.delivered = decodeLane event s.lastRead

def Following.settled (s : Following ε) : Bytes := dropIncompleteTail newline s.lastRead

/-- Behind what was complete at the last read, no row has been completed up to the
position of that read. -/
def NoneCompleted (s : Following ε) : Prop :=
  ∀ raw p, s.lane = some (p.generation, raw) → s.position = some p → p.offset ≤ raw.length →
    rowsBehind event s.settled ((raw.take p.offset).drop s.settled.length) = []

def readsGuarded (s : Following ε) (move : Move) : Prop :=
  move = .read → NoneCompleted event s

end

section
variable {event : Bytes → Bytes → ε} {s t : Following ε}

/-- What holds between reads: the complete part of the last read still begins the
generation that the position is in. -/
structure Tracks (event : Bytes → Bytes → ε) (s : Following ε) : Prop where
  fresh : ∀ g raw, s.lane = some (g, raw) → g < s.generations
  known : ∀ p, s.position = some p → p.generation < s.generations
  found : ∀ p, s.position = some p → s.lane.isSome
  silent : s.position = none → s.lastRead = [] ∧ s.delivered = []
  inside : ∀ p, s.position = some p → s.settled.length ≤ p.offset
  kept : ∀ p raw, s.position = some p → s.lane = some (p.generation, raw) → s.settled <+: raw

lemma settled_length (s : Following ε) : s.settled.length ≤ s.lastRead.length := by
  have h := congrArg length (@drop_append_tail _ _ newline s.lastRead)
  rw [length_append] at h
  exact Nat.le.intro h

lemma Tracks.of_start (h : (following event).start s) : Tracks event s := by
  obtain ⟨hfresh, hpos, hlast, hdel, -⟩ := h
  refine ⟨hfresh, ?_, ?_, fun _ => ⟨hlast, hdel⟩, ?_, ?_⟩ <;> simp [hpos]

lemma Tracks.truncate (h : Tracks event s) (hstep : follow event s .truncate = some t) :
    Tracks event t := by
  cases hstep
  refine ⟨?_, h.known, ?_, h.silent, h.inside, ?_⟩
  · intro g raw hlane
    obtain ⟨⟨g', raw'⟩, hlane', heq⟩ := map_eq_some_iff.mp hlane
    obtain ⟨rfl, -⟩ := Prod.mk.inj heq
    exact h.fresh g' raw' hlane'
  · intro p hp
    simpa using h.found p hp
  · intro p raw hp hlane
    obtain ⟨⟨g', raw'⟩, hlane', heq⟩ := map_eq_some_iff.mp hlane
    obtain ⟨rfl, rfl⟩ := Prod.mk.inj heq
    obtain ⟨rest, hrest⟩ := h.kept p raw' hp hlane'
    have hsettl : AtBoundary newline s.settled := atBoundary_drop _
    rw [← hrest, hsettl.drop_append]
    exact prefix_append _ _

lemma Tracks.extend (h : Tracks event s) {bytes : Bytes}
    (hstep : follow event s (.extend bytes) = some t) : Tracks event t := by
  simp only [follow] at hstep
  cases hlane : s.lane with
  | none =>
    rw [hlane] at hstep
    cases hstep
    refine ⟨?_, ?_, fun _ _ => rfl, h.silent, h.inside, ?_⟩
    · intro g raw hnew
      obtain ⟨rfl, -⟩ := Prod.mk.inj (some.inj hnew)
      exact Nat.lt_succ_self _
    · intro p hp
      exact Nat.lt_succ_of_lt (h.known p hp)
    · intro p raw hp
      have hfound := h.found p hp
      rw [hlane] at hfound
      cases hfound
  | some lane =>
    obtain ⟨g, raw⟩ := lane
    simp only [hlane] at hstep
    split at hstep
    · cases hstep
      refine ⟨?_, h.known, fun _ _ => rfl, h.silent, h.inside, ?_⟩
      · intro g' raw' hnew
        obtain ⟨rfl, -⟩ := Prod.mk.inj (some.inj hnew)
        exact h.fresh g raw hlane
      · intro p raw' hp hnew
        obtain ⟨hg, rfl⟩ := Prod.mk.inj (some.inj hnew)
        exact (h.kept p raw hp (hg ▸ hlane)).trans (prefix_append _ _)
    · cases hstep

lemma Tracks.rotate (h : Tracks event s) {bytes : Bytes}
    (hstep : follow event s (.rotate bytes) = some t) : Tracks event t := by
  simp only [follow] at hstep
  split at hstep
  · cases hstep
    refine ⟨?_, ?_, fun _ _ => rfl, h.silent, h.inside, ?_⟩
    · intro g raw hnew
      obtain ⟨rfl, -⟩ := Prod.mk.inj (some.inj hnew)
      exact Nat.lt_succ_self _
    · intro p hp
      exact Nat.lt_succ_of_lt (h.known p hp)
    · intro p raw hp hnew
      have hold := h.known p hp
      obtain ⟨hg, -⟩ := Prod.mk.inj (some.inj hnew)
      omega
  · cases hstep

lemma position_read (s : Following ε) :
    (s.read event).position = s.lane.map fun (g, raw) => ⟨g, raw.length⟩ := by
  unfold Following.read readPositionedEventLane
  cases s.lane with
  | none => rfl
  | some lane =>
    cases s.position with
    | none => rfl
    | some p =>
      dsimp only
      split <;> rfl

lemma read_current (h : (s.read event).rebaselined = false) : s.rebaselined = false ∧
      ((s.position = none ∧
          (s.read event).delivered = s.delivered ++ decodeLane event (s.read event).lastRead) ∨
        ∃ p raw, s.position = some p ∧ s.lane = some (p.generation, raw) ∧
          p.offset ≤ raw.length ∧ (s.read event).lastRead = raw ∧
          (s.read event).delivered = s.delivered ++
            (decodeLane event raw).drop (decodeLane event (raw.take p.offset)).length) := by
  have hbef : s.rebaselined = false := by
    simp only [Following.read, Bool.or_eq_false_iff] at h
    exact h.1
  refine ⟨hbef, ?_⟩
  unfold Following.read readPositionedEventLane at h ⊢
  cases hlane : s.lane with
  | none =>
    cases hpos : s.position with
    | none => exact Or.inl ⟨rfl, rfl⟩
    | some p => simp [hlane, hpos] at h
  | some lane =>
    obtain ⟨g, raw⟩ := lane
    cases hpos : s.position with
    | none => exact Or.inl ⟨rfl, rfl⟩
    | some p =>
      by_cases hrot : p.generation ≠ g ∨ p.offset > raw.length
      · simp [hlane, hpos, hrot] at h
      · have hstays := hrot
        push Not at hstays
        obtain ⟨rfl, hoffs⟩ := hstays
        refine Or.inr ⟨p, raw, rfl, rfl, hoffs, rfl, ?_⟩
        simp [Nat.not_lt.mpr hoffs]

lemma lastRead_read (s : Following ε) :
    (s.read event).lastRead = (s.lane.map Prod.snd).getD [] := rfl

lemma Tracks.read (h : Tracks event s) : Tracks event (s.read event) := by
  have hpos := @position_read _ event s
  refine ⟨h.fresh, ?_, ?_, ?_, ?_, ?_⟩
  · intro p hp
    rw [hpos] at hp
    obtain ⟨⟨g, raw⟩, hlane, rfl⟩ := map_eq_some_iff.mp hp
    exact h.fresh g raw hlane
  · intro p hp
    rw [hpos] at hp
    obtain ⟨lane, hlane, -⟩ := map_eq_some_iff.mp hp
    exact isSome_iff_exists.mpr ⟨lane, hlane⟩
  · intro hnone
    rw [hpos, map_eq_none_iff] at hnone
    have hunr : s.position = none := by
      by_contra hsome
      obtain ⟨p, hp⟩ := ne_none_iff_exists'.mp hsome
      have hfound := h.found p hp
      rw [hnone] at hfound
      cases hfound
    refine ⟨by simp [lastRead_read, hnone], ?_⟩
    simp [Following.read, readPositionedEventLane, hnone, (h.silent hunr).2]
  · intro p hp
    rw [hpos] at hp
    obtain ⟨⟨g, raw⟩, hlane, rfl⟩ := map_eq_some_iff.mp hp
    have hlength := settled_length (s.read event)
    simpa [lastRead_read, hlane] using hlength
  · intro p raw hp hlane
    have hlast : (s.read event).lastRead = raw := by
      rw [lastRead_read, show s.lane = some (p.generation, raw) from hlane]
      rfl
    rw [Following.settled, hlast]
    exact rdropWhile_prefix _ _

lemma Tracks.step (h : Tracks event s) {move : Move} (hstep : follow event s move = some t) :
    Tracks event t := by
  cases move with
  | truncate => exact h.truncate hstep
  | extend bytes => exact h.extend hstep
  | rotate bytes => exact h.rotate hstep
  | read =>
    cases hstep
    exact h.read

lemma read_skipsNothing_iff (h : Tracks event s) (hbef : SkipsNothing event s)
    (hcurr : (s.read event).rebaselined = false) :
    SkipsNothing event (s.read event) ↔ NoneCompleted event s := by
  obtain ⟨hbase, ⟨hpos, hdel⟩ | ⟨p, raw, hpos, hlane, hoffs, hlast, hdel⟩⟩ :=
    read_current hcurr
  · have hsil := (h.silent hpos).2
    refine iff_of_true (fun _ => ?_) (fun raw p _ hp => ?_)
    · rw [hdel, hsil, nil_append]
    · rw [hpos] at hp
      cases hp
  · -- the lane is the settled part and what came behind it
    obtain ⟨rest, hrest⟩ := h.kept p raw hpos hlane
    have hsettl : AtBoundary newline s.settled := atBoundary_drop _
    have hins := h.inside p hpos
    have htold : s.delivered = decodeLane event s.settled := by
      rw [hbef hbase, Following.settled, decodeLane_drop]
    have htake : raw.take p.offset = s.settled ++ rest.take (p.offset - s.settled.length) := by
      rw [← hrest, take_append, take_of_length_le hins]
    have hseen : rowsBehind event s.settled ((raw.take p.offset).drop s.settled.length) =
        rowsBehind event s.settled (rest.take (p.offset - s.settled.length)) := by
      rw [htake, drop_left]
    have hall : decodeLane event raw = s.delivered ++ rowsBehind event s.settled rest := by
      rw [← hrest, decodeLane_append hsettl, htold]
    have hcount : (decodeLane event (raw.take p.offset)).length = s.delivered.length +
        (rowsBehind event s.settled (rest.take (p.offset - s.settled.length))).length := by
      rw [htake, decodeLane_append hsettl, htold, length_append]
    have hpref := @rowsBehind_take _ event s.settled rest (p.offset - s.settled.length)
    constructor
    · intro hskips raw' p' hlane' hpos' _
      obtain rfl := some.inj (hpos.symm.trans hpos')
      obtain rfl := (Prod.mk.inj (some.inj (hlane.symm.trans hlane'))).2
      have hsame := hskips hcurr
      rw [hdel, hlast, hall, hcount, drop_append, drop_eq_nil_of_le (by omega),
        nil_append, append_cancel_left_eq] at hsame
      have hlength := congrArg length hsame
      have hle := hpref.length_le
      rw [length_drop] at hlength
      rw [hseen]
      apply eq_nil_of_length_eq_zero
      omega
    · intro hnone _
      have hempty := hnone raw p hlane hpos hoffs
      rw [hseen] at hempty
      rw [hdel, hlast, hall, hcount, hempty]
      simp

lemma skipsNothing_of_silent {move : Move} (hmove : move ≠ .read) (h : SkipsNothing event s)
    (hstep : follow event s move = some t) : SkipsNothing event t := by
  have hsame : t.delivered = s.delivered ∧ t.lastRead = s.lastRead ∧
      t.rebaselined = s.rebaselined := by
    cases move with
    | truncate =>
      cases hstep
      exact ⟨rfl, rfl, rfl⟩
    | extend bytes =>
      simp only [follow] at hstep
      split at hstep
      · cases hstep
        exact ⟨rfl, rfl, rfl⟩
      · split at hstep
        · cases hstep
          exact ⟨rfl, rfl, rfl⟩
        · cases hstep
    | rotate bytes =>
      simp only [follow] at hstep
      split at hstep
      · cases hstep
        exact ⟨rfl, rfl, rfl⟩
      · cases hstep
    | read => exact absurd rfl hmove
  obtain ⟨hdel, hlast, hbase⟩ := hsame
  intro hcurr
  rw [hdel, hlast]
  exact h (hbase ▸ hcurr)

lemma skipsNothing_of_reach (h : (following event).Reach (readsGuarded event) s) :
    Tracks event s ∧ SkipsNothing event s := by
  refine Machine.Reach.inv (fun s => Tracks event s ∧ SkipsNothing event s) (fun s hs => ?_)
    (fun s move t hs hguard hstep => ⟨hs.1.step hstep, ?_⟩) h
  · refine ⟨Tracks.of_start hs, fun _ => ?_⟩
    obtain ⟨-, -, hlast, hdel, -⟩ := hs
    rw [hlast, hdel]
    rfl
  · by_cases hread : move = .read
    · subst hread
      cases hstep
      intro hcurr
      exact (read_skipsNothing_iff hs.1 hs.2 hcurr).mpr (hguard rfl) hcurr
    · exact skipsNothing_of_silent hread hs.2 hstep

/-- In a run where no read finds a row completed below its position, what was
delivered is what the lane held at the last read; and the first read that finds one
breaks that. -/
theorem follows_lane (h : (following event).Reach (readsGuarded event) s) : SkipsNothing event s ∧
      ((s.read event).rebaselined = false →
        (SkipsNothing event (s.read event) ↔ NoneCompleted event s)) := by
  obtain ⟨htracks, hskips⟩ := skipsNothing_of_reach h
  exact ⟨hskips, read_skipsNothing_iff htracks hskips⟩

end

section

/-- The event of a line is the line. -/
def lineEvent (_ line : Bytes) : Bytes := line

def sampleHeader : Bytes := "[]{a}:\n".toUTF8.toList

def unfollowed : Following Bytes := ⟨none, 0, none, [], [], false⟩

lemma start_unfollowed : (following lineEvent).start unfollowed :=
  ⟨nofun, rfl, rfl, rfl, rfl⟩

theorem follows_unfinished : ∃ s, (following lineEvent).exec unfollowed
        [.extend (sampleHeader ++ [49, 10, 49, 50]), .read] = some s ∧
      (SkipsNothing lineEvent s ∧ ((s.read lineEvent).rebaselined = false →
          (SkipsNothing lineEvent (s.read lineEvent) ↔ NoneCompleted lineEvent s))) := by
  refine ⟨_, rfl, follows_lane ?_⟩
  have hstart : (following lineEvent).Reach (readsGuarded lineEvent) unfollowed :=
    .of_start start_unfollowed
  have hext := hstart.step (a := .extend (sampleHeader ++ [49, 10, 49, 50])) nofun rfl
  refine hext.step (a := .read) (fun _ raw p _ hpos => ?_) rfl
  cases hpos

/-- A read ends inside the row `123`. -/
theorem skips_a_row : ∃ s, (following lineEvent).Reach anyStep s ∧ s.rebaselined = false ∧
      s.delivered = [[50]] ∧ decodeLane lineEvent s.lastRead = [[49], [50]] := by
  have hrun : ((following lineEvent).exec unfollowed
      [.extend sampleHeader, .extend [49, 50, 51], .read, .truncate, .extend [49, 10, 50, 10],
        .read]).map (fun s => (s.rebaselined, s.delivered, decodeLane lineEvent s.lastRead)) =
      some (false, [[50]], [[49], [50]]) := by
    decide +kernel
  obtain ⟨s, hs, heq⟩ := map_eq_some_iff.mp hrun
  obtain ⟨hbase, hrest⟩ := Prod.mk.inj heq
  obtain ⟨hdel, hlast⟩ := Prod.mk.inj hrest
  exact ⟨s, Machine.reach_of_exec start_unfollowed hs, hbase, hdel, hlast⟩

end
end Redskilled.Lane
