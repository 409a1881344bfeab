import Redskilled.Lane.Writer

/-!
# Booting from a lane

A daemon that boots rehydrates its Workers from the lane. However often the lane was rotated, and
whatever its throws and crashes left of an append, these are the Workers of a log that is never
cut and has each event whole or not at all.
-/
namespace Redskilled.Lane
open Foundation List

variable {ν : Type*} {events events' : List (HostEvent ν)} {event : HostEvent ν}

lemma nonEmpty_nonEmpty (value : Option Text) : nonEmpty (nonEmpty value) = nonEmpty value := by
  rcases value with _ | _ | _ <;> rfl

lemma readBack_readBack (event : HostEvent ν) : readBack (readBack event) = readBack event := by
  simp only [readBack, nonEmpty_nonEmpty, Option.join_some]

def BootsAs (events events' : List (HostEvent ν)) : Prop :=
  ∀ id, (aliveWorkers events).lookup id = (aliveWorkers events').lookup id

lemma BootsAs.concat (h : BootsAs events events') (event : HostEvent ν) :
    BootsAs (events ++ [event]) (events' ++ [event]) := by
  intro id
  have hid := h id
  simp only [aliveWorkers, foldl_append, foldl_cons, foldl_nil, rehydrateStep_eq,
    Word.lookup_write] at hid ⊢
  rw [hid]

lemma BootsAs.append (h : BootsAs events events') (later : List (HostEvent ν)) :
    BootsAs (events ++ later) (events' ++ later) := by
  induction later using reverseRecOn with
  | nil => simpa using h
  | append_singleton later event ih =>
    rw [← append_assoc, ← append_assoc]
    exact ih.concat event

lemma BootsAs.readLast (h : BootsAs (events ++ [event]) (events' ++ [event])) :
    BootsAs (events ++ [readBack event]) (events' ++ [readBack event]) := by
  intro id
  have hid := h id
  have hkey : (word (readBack event)).key = (word event).key := by
    unfold word
    cases hkind : event.kind <;> simp [readBack, hkind, Word.key]
  simp only [aliveWorkers, foldl_append, foldl_cons, foldl_nil, rehydrateStep_eq,
    Word.lookup_write, hkey] at hid ⊢
  split_ifs at hid ⊢ with hsame
  · rfl
  · exact hid

variable {toon : Toon ν} {conv : Conversions ν} {compact history : List (HostEvent ν)}
  {maxBytes : ℕ} {incoming : HostEvent ν}

lemma bootsAs_rotate (h : rotateEventLane toon conv history maxBytes incoming = .ok compact) :
    BootsAs compact (history ++ [incoming]) ∧ compact.Sublist (history ++ [incoming]) := by
  obtain ⟨target, -, hcomp⟩ := rotate_spec h
  obtain ⟨-, start, rfl⟩ := compact_spec hcomp
  exact ⟨alive_selectedEvents (by simp) start, selectedEvents_sublist ..⟩

variable [DecidableEq ν] {w t : Writer} {a : Append ν}

/-- A row that is torn is read whole or not at all. -/
lemma parse_torn (law : toon.Lawful conv) (hw : InStep w) (event : HostEvent ν) (bytes : ℕ) :
    ∃ landed : List (HostEvent ν), landed.Sublist [event] ∧
      parseEventLane toon conv (dropIncompleteTail newline w.file ++
          (w.emitter.push toon (toRow conv event)).1.take bytes) =
        parseEventLane toon conv w.file ++ landed.map readBack := by
  obtain ⟨j, hj, -⟩ :=
    completeLines_take_unlines (@newline_notMem_lines _ _ _ w.emitter law event) bytes
  have hgov : w.emitter.Agrees
      (governing none (completeLines newline (dropIncompleteTail newline w.file))) := by
    rw [completeLines_drop]
    exact hw
  rw [parse_append (atBoundary_drop _), parse_drop, Emitter.push, hj]
  by_cases hall : (w.emitter.lines toon (toRow conv event)).length ≤ j
  · rw [take_of_length_le hall, records_lines law event hgov]
    exact ⟨[event], .refl _, by simp [hostEvent_toRow]⟩
  · refine ⟨[], nil_sublist _, ?_⟩
    unfold Emitter.lines at hall ⊢
    split_ifs at hall ⊢ with hsame
    · obtain rfl : j = 0 := by simpa using hall
      simp [decodeFrom]
    · have hshort : j = 0 ∨ j = 1 := by
        simp only [length_cons, length_nil] at hall
        omega
      rcases hshort with rfl | rfl
      · simp [decodeFrom]
      · simp [decodeFrom, law.header_isHeader]

def Stable (toon : Toon ν) (conv : Conversions ν) (w : Writer) : Prop :=
  ∀ event ∈ parseEventLane toon conv w.file, readBack event = event

lemma boots_append (law : toon.Lawful conv) (hw : InStep w) (hstable : Stable toon conv w)
    (h : append toon conv maxBytes w a = some t) :
    ∃ landed : List (HostEvent ν), landed.Sublist [a.event] ∧
      (a.outcome.resolves = true → landed = [a.event]) ∧ Stable toon conv t ∧
        BootsAs (parseEventLane toon conv t.file)
          (parseEventLane toon conv w.file ++ landed.map readBack) := by
  have hback : ∀ landed : List (HostEvent ν), ∀ event ∈ landed.map readBack,
      readBack event = event := by
    intro landed event hevent
    obtain ⟨written, -, rfl⟩ := mem_map.mp hevent
    exact readBack_readBack written
  -- all but a rotation put what has landed behind what was read
  have hbeh : ∀ landed : List (HostEvent ν), parseEventLane toon conv t.file =
      parseEventLane toon conv w.file ++ landed.map readBack → Stable toon conv t ∧
        BootsAs (parseEventLane toon conv t.file)
          (parseEventLane toon conv w.file ++ landed.map readBack) := by
    intro landed hparse
    rw [Stable, hparse]
    exact ⟨forall_mem_append.mpr ⟨hstable, hback landed⟩, fun _ => rfl⟩
  rcases append_cases h with ⟨-, hno, -, hfile, -⟩ | ⟨bytes, -, hno, hfile, -⟩ |
    ⟨hwritt, -⟩ | ⟨-, compact, hok, hfile, -⟩
  · refine ⟨[], nil_sublist _, by simp [hno], hbeh [] ?_⟩
    rw [map_nil, append_nil]
    rcases hfile with hfile | hfile
    · rw [hfile]
    · rw [hfile, parse_drop]
  · obtain ⟨landed, hland, hparse⟩ := parse_torn law hw a.event bytes
    exact ⟨landed, hland, by simp [hno], hbeh landed (hfile ▸ hparse)⟩
  · obtain ⟨before, hparse, hbef⟩ := parse_resolved law hw h (by rw [hwritt]; rfl)
    rw [hbef hwritt] at hparse
    exact ⟨[a.event], .refl _, fun _ => rfl, hbeh [a.event] hparse⟩
  · obtain ⟨kept, rfl⟩ := rotate_concat hok
    obtain ⟨hboots, hsub⟩ := bootsAs_rotate hok
    rw [parse_drop] at hboots hsub
    have hkept : kept.map readBack = kept := by
      have hpart := (append_sublist_append_right [a.event]).mp hsub
      conv_rhs => rw [← map_id kept]
      exact map_congr_left fun event hevent => hstable event (hpart.subset hevent)
    refine ⟨[a.event], .refl _, fun _ => rfl, ?_⟩
    rw [Stable, hfile, parse_encode law]
    refine ⟨hback _, ?_⟩
    rw [map_append, hkept]
    exact hboots.readLast

lemma boots_run (law : toon.Lawful conv) {as : List (Append ν)} (hw : InStep w)
    (hstable : Stable toon conv w)
    (h : (createRedskilledEventLane toon conv maxBytes).Run (HeaderKept toon conv) w as t) :
    ∃ landed : List (HostEvent ν), ((as.filter (·.outcome.resolves)).map (·.event)).Sublist landed ∧
        landed.Sublist (as.map (·.event)) ∧ BootsAs (parseEventLane toon conv t.file)
            (parseEventLane toon conv w.file ++ landed.map readBack) := by
  induction h with
  | nil => exact ⟨[], nil_sublist _, nil_sublist _, by simp [BootsAs]⟩
  | cons hkept hn _ ih =>
    obtain ⟨landed, hsub, hres, hu, hboots⟩ := boots_append law hw hstable hn
    obtain ⟨later, hall, hlat, hrest⟩ := ih (inStep_append law hw hkept hn) hu
    refine ⟨landed ++ later, ?_, hsub.append hlat, fun id => ?_⟩
    · rw [filter_cons]
      split_ifs with hresolv
      · rw [hres hresolv]
        exact hall.cons_cons _
      · exact hall.trans (sublist_append_right _ _)
    · rw [map_append, ← append_assoc]
      exact (hrest id).trans (hboots.append _ id)

/-- In a run that loses no header the lane boots the Workers of a log with all events whose
append resolved, and of the others only such as were appended, in the order of the appends. -/
theorem lane_boots_as_log (law : toon.Lawful conv) {as : List (Append ν)}
    (h : (createRedskilledEventLane toon conv maxBytes).Run (HeaderKept toon conv)
      ⟨[], encodeToonlLines⟩ as t) :
    ∃ landed : List (HostEvent ν), ((as.filter (·.outcome.resolves)).map (·.event)).Sublist landed ∧
        landed.Sublist (as.map (·.event)) ∧
          ∀ view, view ∈ rehydrateWorkers (parseEventLane toon conv t.file) ↔
            view ∈ rehydrateWorkers (landed.map readBack) := by
  have hempty : parseEventLane toon conv [] = [] := rfl
  have hstart : InStep ⟨[], encodeToonlLines⟩ := fun _ h => nomatch h
  obtain ⟨landed, hall, hland, hboots⟩ :=
    boots_run law hstart (by simp [Stable, hempty]) h
  rw [hempty, nil_append] at hboots
  refine ⟨landed, hall, hland, fun view => ?_⟩
  rw [mem_rehydrateWorkers, mem_rehydrateWorkers, hboots]

/-- The row of a birth is torn, and the birth appended again. -/
theorem torn_lane_boots :
    ∃ t, lane.Run (HeaderKept PlainToon.toon PlainToon.conv) ⟨[], encodeToonlLines⟩
        [⟨birth, .torn 70⟩, ⟨birth, .written⟩] t ∧
      ∃ landed : List (HostEvent ℕ), [birth].Sublist landed ∧ landed.Sublist [birth, birth] ∧
        ∀ view, view ∈ rehydrateWorkers (parseEventLane PlainToon.toon PlainToon.conv t.file) ↔
          view ∈ rehydrateWorkers (landed.map readBack) := by
  have hrun : ((lane.next ⟨[], none⟩ ⟨birth, .torn 70⟩).bind fun w =>
      lane.next w ⟨birth, .written⟩).isSome = true := by decide +kernel
  obtain ⟨t, ht⟩ := Option.isSome_iff_exists.mp hrun
  obtain ⟨w, hw, hwt⟩ := Option.bind_eq_some_iff.mp ht
  have hlong : (headerOf PlainToon.toon PlainToon.conv birth).length < 70 := by decide +kernel
  have hkept : HeaderKept PlainToon.toon PlainToon.conv ⟨[], none⟩ ⟨birth, .torn 70⟩ := by
    intro bytes hbyt
    cases hbyt
    exact .inr ⟨nofun, hlong⟩
  have hrun : lane.Run (HeaderKept PlainToon.toon PlainToon.conv) ⟨[], encodeToonlLines⟩
      [⟨birth, .torn 70⟩, ⟨birth, .written⟩] t :=
    .cons hkept hw (.single (fun _ => nofun) hwt)
  exact ⟨t, hrun, lane_boots_as_log PlainToon.lawful hrun⟩

end Redskilled.Lane
