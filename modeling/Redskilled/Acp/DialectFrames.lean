import Redskilled.Acp.DualDialect

/-!
# The frames of two dialects

A line that starts with a bracket is a frame by itself, readable or not. Any other line that
cannot be read opens a frame that goes on to the next blank line, over whatever is sent in
between. Under white space alone it is not told yet which of the two a frame will be.
-/
namespace Redskilled.Acp.DualDialect
open Foundation Host.ResidentWire List Option

def Blank (t : Text) : Prop := ∀ c ∈ t, Text.isWhitespace c = true

instance : DecidablePred Blank := fun t => List.decidableBAll (Text.isWhitespace · = true) t

def LineEnds (t : Text) : Prop := ∀ c ∈ t, isLineEnd c = true

abbrev blankLine : Text := ['\n', '\n']

section
variable {t u : Text} {c : Char}

lemma blank_append : Blank (t ++ u) ↔ Blank t ∧ Blank u := by
  simp only [Blank, mem_append, or_imp, forall_and]

lemma isWhitespace_of_isLineEnd (h : isLineEnd c = true) : Text.isWhitespace c = true := by
  rw [isLineEnd, Bool.or_eq_true, beq_iff_eq, beq_iff_eq] at h
  rcases h with rfl | rfl
  · rfl
  · rfl

lemma LineEnds.blank (h : LineEnds t) : Blank t :=
  fun c hc => isWhitespace_of_isLineEnd (h c hc)

lemma lineEnds_takeWhile (t : Text) : LineEnds (t.takeWhile isLineEnd) :=
  fun _ hc => mem_takeWhile_imp hc

lemma sniff_of_blank (h : Blank t) : sniffWireDialect t = .toon := by
  rw [sniffWireDialect, dropWhile_eq_nil_iff.mpr h]
  rfl

lemma sniff_append_of_blank (h : Blank t) : sniffWireDialect (t ++ u) = sniffWireDialect u := by
  rw [sniffWireDialect, sniffWireDialect, dropWhile_append_of_pos h]

lemma sniff_append_of_ink (h : ¬ Blank t) : sniffWireDialect (t ++ u) = sniffWireDialect t := by
  have hne : t.dropWhile Text.isWhitespace ≠ [] := fun hnil =>
    h (dropWhile_eq_nil_iff.mp hnil)
  have hdrop : (t ++ u).dropWhile Text.isWhitespace = t.dropWhile Text.isWhitespace ++ u := by
    rw [dropWhile_append, if_neg (by simpa using hne)]
  rw [sniffWireDialect, sniffWireDialect, hdrop, head?_append_of_ne_nil _ hne]

lemma sniff_dropWhile (t : Text) :
    sniffWireDialect (t.dropWhile isLineEnd) = sniffWireDialect t := by
  calc sniffWireDialect (t.dropWhile isLineEnd)
      = sniffWireDialect (t.takeWhile isLineEnd ++ t.dropWhile isLineEnd) :=
        (sniff_append_of_blank (lineEnds_takeWhile t).blank).symm
    _ = sniffWireDialect t := by rw [takeWhile_append_dropWhile]

lemma not_blank_of_sniff (h : sniffWireDialect t = .json) : ¬ Blank t := fun hblank => by
  rw [sniff_of_blank hblank] at h
  cases h

lemma split_of_sniff (h : sniffWireDialect t = .json) :
    ∃ space c rest, t = space ++ c :: rest ∧ Blank space ∧ IsBracket c := by
  have hspl := takeWhile_append_dropWhile (p := Text.isWhitespace) (l := t)
  unfold sniffWireDialect at h
  cases hdrop : t.dropWhile Text.isWhitespace with
  | nil =>
    rw [hdrop] at h
    cases h
  | cons c rest =>
    rw [hdrop] at h hspl
    refine ⟨_, c, rest, hspl.symm, fun d hd => mem_takeWhile_imp hd, ?_⟩
    by_contra hc
    simp only [head?_cons] at h
    rw [if_neg hc] at h
    cases h

lemma sniff_of_split {space rest : Text} (h : Blank space) (hc : IsBracket c) :
    sniffWireDialect (space ++ c :: rest) = .json := by
  have hspace : Text.isWhitespace c = false := by
    rcases hc with rfl | rfl
    · rfl
    · rfl
  rw [sniff_append_of_blank h, sniff_of_head hspace, if_pos hc]

end

section
variable {sep t u x r : Text}

lemma breakOn_some (h : breakOn sep t = some (x, r)) : t = x ++ sep ++ r := by
  induction t generalizing x with
  | nil => cases h
  | cons c t ih =>
    rw [breakOn] at h
    split_ifs at h with hstart
    · cases h
      obtain ⟨more, hmore⟩ := isPrefixOf_iff_prefix.mp hstart
      rw [← hmore, drop_left, nil_append]
    · obtain ⟨y, hy, heq⟩ := map_eq_some_iff.mp h
      cases heq
      rw [ih hy]
      simp

lemma breakOn_ne_none (hsep : sep ≠ []) (h : sep <:+: t) : breakOn sep t ≠ none := by
  induction t with
  | nil => exact absurd (infix_nil.mp h) hsep
  | cons c t ih =>
    rw [breakOn]
    split_ifs with hstart
    · simp
    · rcases infix_cons_iff.mp h with hwith | hinn
      · exact absurd (List.isPrefixOf_iff_prefix.mpr hwith) hstart
      · simpa using ih hinn

lemma breakOn_append_right (h : breakOn sep t = some (x, r)) (w : Text) :
    breakOn sep (t ++ w) = some (x, r ++ w) := by
  induction t generalizing x with
  | nil => cases h
  | cons c t ih =>
    rw [breakOn] at h
    rw [cons_append, breakOn]
    split_ifs at h with hstart
    · cases h
      have hwith := isPrefixOf_iff_prefix.mp hstart
      have hlong : sep.isPrefixOf (c :: (t ++ w)) = true :=
        isPrefixOf_iff_prefix.mpr (hwith.trans (prefix_append (c :: t) w))
      rw [if_pos hlong, ← cons_append, drop_append_of_le_length hwith.length_le]
    · obtain ⟨y, hy, heq⟩ := map_eq_some_iff.mp h
      cases heq
      have hshort : ¬ sep.isPrefixOf (c :: (t ++ w)) = true := by
        intro hlong
        apply hstart
        rw [List.isPrefixOf_iff_prefix] at hlong ⊢
        have hlength : sep.length ≤ (c :: t).length := by
          have := congrArg length (breakOn_some hy)
          simp only [length_append, length_cons] at this ⊢
          omega
        exact prefix_of_prefix_length_le hlong (prefix_append (c :: t) w) hlength
      rw [if_neg hshort, ih hy]
      rfl

lemma breakOn_line (h : '\n' ∉ t) (rest : Text) :
    breakOn ['\n'] (t ++ ['\n'] ++ rest) = some (t, rest) := by
  apply breakOn_append (by simp)
  intro u hu hinn
  rcases prefix_concat_iff.mp hu with rfl | hstart
  · rfl
  · exact absurd (hstart.subset (hinn.subset mem_cons_self)) h

lemma breakOn_blankLine (h : ¬ blankLine <:+: t ++ ['\n']) (rest : Text) :
    breakOn blankLine (t ++ blankLine ++ rest) = some (t, rest) := by
  apply breakOn_append (by simp)
  intro u hu hinn
  have hconc : t ++ blankLine = t ++ ['\n'] ++ ['\n'] := by simp
  rw [hconc] at hu ⊢
  rcases prefix_concat_iff.mp hu with rfl | hstart
  · rfl
  · exact absurd (hinn.trans hstart.isInfix) h

lemma no_blankLine_append (ht : ¬ blankLine <:+: t) (hu : ¬ blankLine <:+: u)
    (hhead : u.head? ≠ some '\n') : ¬ blankLine <:+: t ++ u := by
  induction t with
  | nil => exact hu
  | cons c t ih =>
    rw [infix_cons_iff, not_or] at ht
    rw [cons_append, infix_cons_iff, not_or]
    constructor
    · intro hstart
      apply ht.1
      rw [cons_prefix_cons] at hstart ⊢
      refine ⟨hstart.1, ?_⟩
      cases t with
      | nil =>
        obtain ⟨more, hmore⟩ := hstart.2
        rw [nil_append] at hmore
        exact absurd (by rw [← hmore]; rfl) hhead
      | cons d t =>
        have hrest := hstart.2
        rw [cons_append, cons_prefix_cons] at hrest
        rw [cons_prefix_cons]
        exact ⟨hrest.1, nil_prefix⟩
    · exact ih ht.2

lemma no_blankLine_of_notMem (h : '\n' ∉ t) : ¬ blankLine <:+: t :=
  fun hinn => h (hinn.subset mem_cons_self)

lemma no_blankLine_line (h : '\n' ∉ t) : ¬ blankLine <:+: t ++ ['\n'] := by
  intro hinn
  rcases infix_concat_iff.mp hinn with hsuff | hinn
  · obtain ⟨front, hfront⟩ := hsuff
    have happ : (front ++ ['\n']) ++ ['\n'] = t ++ ['\n'] := by
      rw [← hfront]
      simp
    apply h
    rw [← append_cancel_right happ]
    simp
  · exact h (hinn.subset mem_cons_self)

end

section
variable {b w : Text} {taken : ResidentWireFrame}

lemma take_of_json (h : sniffWireDialect b = .json) : takeWireFrame b =
    (breakOn ['\n'] (b.dropWhile isLineEnd)).map fun r => ⟨r.1, .json, r.2⟩ := by
  have hne : b.dropWhile isLineEnd ≠ [] := by
    intro hnil
    rw [← sniff_dropWhile, hnil] at h
    cases h
  unfold takeWireFrame
  simp only [sniff_dropWhile, h, if_neg hne]

lemma take_of_toon (h : sniffWireDialect b = .toon) : takeWireFrame b =
    (breakOn blankLine (b.dropWhile isLineEnd)).map fun r => ⟨r.1 ++ ['\n'], .toon, r.2⟩ := by
  unfold takeWireFrame
  simp only [sniff_dropWhile, h]
  split_ifs with hnil
  · rw [hnil]
    rfl
  · rfl

lemma take_shorter (h : takeWireFrame b = some taken) :
    ∃ front, b = front ++ taken.rest ∧ front ≠ [] := by
  have hspl := takeWhile_append_dropWhile (p := isLineEnd) (l := b)
  cases hsniff : sniffWireDialect b with
  | json =>
    rw [take_of_json hsniff] at h
    obtain ⟨⟨x, r⟩, hbreak, rfl⟩ := map_eq_some_iff.mp h
    refine ⟨b.takeWhile isLineEnd ++ (x ++ ['\n']), ?_, by simp⟩
    rw [append_assoc, ← breakOn_some hbreak, hspl]
  | toon =>
    rw [take_of_toon hsniff] at h
    obtain ⟨⟨x, r⟩, hbreak, rfl⟩ := map_eq_some_iff.mp h
    refine ⟨b.takeWhile isLineEnd ++ (x ++ blankLine), ?_, by simp⟩
    rw [append_assoc, ← breakOn_some hbreak, hspl]

lemma dropWhile_append_of_ne {front : Text} (hne : b.dropWhile isLineEnd ≠ [])
    (h : b ++ w = front) : b.dropWhile isLineEnd ++ w = front.dropWhile isLineEnd := by
  rw [← h, dropWhile_append, if_neg (by simpa using hne)]

lemma dropWhile_line {line more : Text} (h : line.dropWhile isLineEnd ≠ []) :
    (line ++ ['\n'] ++ more).dropWhile isLineEnd = line.dropWhile isLineEnd ++ ['\n'] ++ more := by
  rw [append_assoc, dropWhile_append, if_neg (by simpa using h), append_assoc]

lemma dropWhile_ends {line more : Text} (h : line.dropWhile isLineEnd = []) :
    (line ++ ['\n'] ++ more).dropWhile isLineEnd = more.dropWhile isLineEnd := by
  have hblank : ∀ c ∈ line ++ ['\n'], isLineEnd c = true := by
    intro c hc
    rcases mem_append.mp hc with hc | hc
    · exact dropWhile_eq_nil_iff.mp h c hc
    · rw [mem_singleton.mp hc]
      rfl
  rw [dropWhile_append_of_pos hblank]

lemma dropWhile_cons_append (front rest : Text) {c : Char} (h : isLineEnd c = false) :
    ∃ left, (front ++ c :: rest).dropWhile isLineEnd = left ++ c :: rest := by
  rw [dropWhile_append]
  split_ifs
  · exact ⟨[], dropWhile_cons_of_neg (by simp [h])⟩
  · exact ⟨_, rfl⟩

end

lemma sniff_of_parse {t : Text} {fields : List (Text × Json)}
    (h : Json.parse t = some (.object fields)) : sniffWireDialect t = .json := by
  obtain ⟨rest, hskip⟩ := Json.skip_of_parse h
  have hspl := takeWhile_append_dropWhile (p := Json.isSpace) (l := t)
  have hdrop : t.dropWhile Json.isSpace = '{' :: rest := hskip
  rw [← hspl, hdrop]
  apply sniff_of_split _ (.inl rfl)
  intro c hc
  have hspace := mem_takeWhile_imp hc
  simp only [Json.isSpace, Bool.or_eq_true, beq_iff_eq] at hspace
  rcases hspace with ((rfl | rfl) | rfl) | rfl <;> rfl

lemma sniff_json_line {line : Text} {fields : List (Text × Json)}
    (h : Json.parse (line.dropWhile isLineEnd) = some (.object fields)) :
    sniffWireDialect line = .json := by
  rw [← sniff_dropWhile]
  exact sniff_of_parse h

/-- The lines of a frame that is not closed yet. -/
structure OpenText (f : Text) : Prop where
  ends : ∃ g, f = g ++ ['\n']
  noBlank : ¬ blankLine <:+: f
  head : ∃ c t, f = c :: t ∧ isLineEnd c = false
  plain : sniffWireDialect f = .toon

/-- What keeps a message from being lost, behind the lines of a frame that is open. -/
def Passes (T : Toon) : Option Text → List Item → Prop
  | none, [] => True
  | some f, [] => Text.trim f = [] ∨ T.decode (Text.trim f) = none
  | none, .json _ _ :: items => Passes T none items
  | some f, .json _ _ :: items => Blank f ∧ Passes T none items
  | none, .toon _ _ :: items => Passes T none items
  | some f, .toon document _ :: items =>
    T.decode (f ++ document ++ ['\n']) = T.decode (document ++ ['\n']) ∧ Passes T none items
  | none, .unreadable line :: items =>
    if line.dropWhile isLineEnd = [] then Passes T none items
    else if sniffWireDialect line = .json then
      Json.parse (line.dropWhile isLineEnd) = none ∧ Passes T none items
    else Passes T (some (line.dropWhile isLineEnd ++ ['\n'])) items
  | some f, .unreadable line :: items =>
    if line = [] then T.decode f = none ∧ Passes T none items
    else if Blank f ∧ sniffWireDialect line = .json then
      Json.parse (line.dropWhile isLineEnd) = none ∧ Passes T none items
    else Passes T (some (f ++ line ++ ['\n'])) items

def withoutFirstMark : List Item → List Item
  | .unreadable line :: items => .unreadable (withoutMark line) :: items
  | items => items

/-- No line that is bad costs a message. -/
def Harmless (T : Toon) (items : List Item) : Prop := Passes T none (withoutFirstMark items)

section
variable {T : Toon}

def Held : Option Text → Prop
  | none => True
  | some f => OpenText f

lemma openText_line {line : Text} (hline : '\n' ∉ line) (hne : line.dropWhile isLineEnd ≠ [])
    (hsniff : sniffWireDialect line ≠ .json) : OpenText (line.dropWhile isLineEnd ++ ['\n']) := by
  have hmem : '\n' ∉ line.dropWhile isLineEnd := fun hin =>
    hline ((dropWhile_sublist _).mem hin)
  obtain ⟨c, t, hc⟩ := exists_cons_of_ne_nil hne
  constructor
  · exact ⟨_, rfl⟩
  · exact no_blankLine_line hmem
  · refine ⟨c, t ++ ['\n'], by rw [hc]; rfl, ?_⟩
    have hhead := head_dropWhile_not isLineEnd hne
    simpa [hc] using hhead
  · have htoon : sniffWireDialect (line.dropWhile isLineEnd) = .toon := by
      rw [sniff_dropWhile]
      cases hs : sniffWireDialect line
      · exact absurd hs hsniff
      · rfl
    by_cases hblank : Blank (line.dropWhile isLineEnd)
    · apply sniff_of_blank
      rw [blank_append]
      exact ⟨hblank, by simp [Blank, Text.isWhitespace]⟩
    · rw [sniff_append_of_ink hblank, htoon]

lemma OpenText.line {f line : Text} (h : OpenText f) (hline : '\n' ∉ line) (hne : line ≠ [])
    (hsniff : ¬ (Blank f ∧ sniffWireDialect line = .json)) : OpenText (f ++ line ++ ['\n']) := by
  obtain ⟨c, t, hc, hend⟩ := h.head
  obtain ⟨d, u, hd⟩ := exists_cons_of_ne_nil hne
  constructor
  · exact ⟨_, rfl⟩
  · rw [append_assoc]
    apply no_blankLine_append h.noBlank (no_blankLine_line hline)
    rw [hd] at hline ⊢
    intro hhead
    have heq : d = '\n' := by simpa using hhead
    exact hline (by simp [heq])
  · exact ⟨c, t ++ line ++ ['\n'], by rw [hc]; rfl, hend⟩
  · by_cases hf : Blank f
    · rw [append_assoc, sniff_append_of_blank hf]
      by_cases hl : Blank line
      · apply sniff_of_blank
        rw [blank_append]
        exact ⟨hl, by simp [Blank, Text.isWhitespace]⟩
      · rw [sniff_append_of_ink hl]
        cases hs : sniffWireDialect line
        · exact absurd ⟨hf, hs⟩ hsniff
        · rfl
    · rw [append_assoc, sniff_append_of_ink hf, h.plain]

end

/-- What is to come, behind line ends and the lines of an open frame. -/
def Waiting (T : Toon) (text : Text) (rest : List Item) : Prop :=
  ∃ ends held, LineEnds ends ∧ text = ends ++ held.getD [] ++ wire rest ∧ Held held ∧
    Passes T held rest

def Blanked (T : Toon) (text : Text) (rest : List Item) : Prop :=
  ∃ space item more, rest = item :: more ∧ Blank space ∧
    (LineEnds space ∨ ∃ front, space = front ++ ['\n']) ∧ text = space ++ wire rest ∧
      sniffWireDialect item.text = .json ∧ Passes T none rest

/-- A frame is read as the one message of the items, or is not read and they have none. -/
def Yields (T : Toon) (frame : Text) (dialect : ResidentWireDialect) (items : List Item) : Prop :=
  (decodeWireFrameStrict T frame dialect = none ∧ messages items = []) ∨
    ∃ fields, decodeWireFrameStrict T frame dialect = some (.object fields) ∧
      messages items = [(dialect, fields)]

section
variable {T : Toon} {b w p x r : Text} {rest : List Item} {taken : ResidentWireFrame}

lemma wire_nil : wire [] = [] := rfl

lemma messages_append (front more : List Item) :
    messages (front ++ more) = messages front ++ messages more := List.filterMap_append

lemma wire_cons (item : Item) (items : List Item) :
    wire (item :: items) = item.text ++ wire items :=
  flatMap_cons

/-- No blank line is read where only white space with a line that looks like JSON is to come. -/
lemma no_blankLine_of_toon {f line more : Text} (h : p ++ w = f ++ line ++ more)
    (hf : Blank f) (hno : ¬ blankLine <:+: f) (hline : '\n' ∉ line)
    (hsniff : sniffWireDialect line = .json) (hp : sniffWireDialect p = .toon) :
    ¬ blankLine <:+: p := by
  obtain ⟨space, c, tail, rfl, hspace, hc⟩ := split_of_sniff hsniff
  have hclean : ¬ blankLine <:+: f ++ space := by
    apply no_blankLine_append hno
    · exact no_blankLine_of_notMem fun hin => hline (mem_append_left _ hin)
    · intro hhead
      exact hline (mem_append_left _ (mem_of_mem_head? hhead))
  have hshape : p ++ w = (f ++ space) ++ c :: (tail ++ more) := by
    rw [h]
    simp
  have hblank : Blank (f ++ space) := blank_append.mpr ⟨hf, hspace⟩
  rcases append_eq_append_iff.mp hshape with ⟨a, ha, -⟩ | ⟨a, ha, hw⟩
  · intro hinn
    exact hclean (ha ▸ hinn.trans (prefix_append p a).isInfix)
  · cases a with
    | nil =>
      rw [append_nil] at ha
      rwa [ha]
    | cons d a =>
      obtain ⟨rfl, -⟩ := cons.inj hw
      rw [ha, sniff_of_split hblank hc] at hp
      cases hp

lemma dropWhile_of_head {f more : Text} (h : ∃ c t, f = c :: t ∧ isLineEnd c = false) :
    (f ++ more).dropWhile isLineEnd = f ++ more := by
  obtain ⟨c, t, rfl, hc⟩ := h
  exact dropWhile_cons_of_neg (by simp [hc])

lemma yields_blankLine {held : Option Text} (hbreak : breakOn blankLine p = some (x, r))
    (hsniff : sniffWireDialect p = .toon)
    (h : p ++ w = (held.getD [] ++ wire rest).dropWhile isLineEnd) (hheld : Held held)
    (hpass : Passes T held rest) (hwell : ∀ item ∈ rest, item.WellFormed T) :
    ∃ front more, rest = front ++ more ∧ r ++ w = wire more ∧ Passes T none more ∧
      Yields T (x ++ ['\n']) .toon front := by
  have hins : blankLine <:+: p := by
    rw [breakOn_some hbreak]
    exact ⟨x, r, rfl⟩
  have hlong := breakOn_append_right hbreak w
  -- by the next item, for a frame that is closed and for one that is open
  induction rest generalizing held with
  | nil =>
    cases held with
    | none =>
      obtain ⟨rfl, -⟩ := append_eq_nil_iff.mp h
      cases hbreak
    | some f =>
      have hf : OpenText f := hheld
      rw [getD_some, dropWhile_of_head hf.head] at h
      have hp : p <+: f := ⟨w, by rw [h]; simp [wire]⟩
      exact absurd (hins.trans hp.isInfix) hf.noBlank
  | cons item items ih =>
    have hitems : ∀ item ∈ items, item.WellFormed T := fun i hi =>
      hwell i (mem_cons_of_mem _ hi)
    have hitem := hwell item mem_cons_self
    rw [wire_cons] at h
    cases item with
    | json line fields =>
      obtain ⟨hline, hparse⟩ := hitem
      cases held with
      | none =>
        have hne : line.dropWhile isLineEnd ≠ [] := by
          intro hnil
          rw [hnil] at hparse
          cases hparse
        rw [getD_none, nil_append, Item.text, dropWhile_line hne] at h
        have hshape : p ++ w = [] ++ line.dropWhile isLineEnd ++ (['\n'] ++ wire items) := by
          rw [h]
          simp
        have hmem : '\n' ∉ line.dropWhile isLineEnd := fun hin =>
          hline ((dropWhile_sublist _).mem hin)
        exact absurd hins (no_blankLine_of_toon hshape (by simp [Blank])
          (by simp [blankLine]) hmem (sniff_of_parse hparse) hsniff)
      | some f =>
        have hf : OpenText f := hheld
        rw [getD_some, dropWhile_of_head hf.head] at h
        have hshape : p ++ w = f ++ line ++ (['\n'] ++ wire items) := by
          rw [h]
          simp [Item.text]
        exact absurd hins (no_blankLine_of_toon hshape hpass.1 hf.noBlank hline
          (sniff_json_line hparse) hsniff)
    | toon document fields =>
      obtain ⟨⟨c, t, hc, hspace, hbrack⟩, hno, hdec⟩ := hitem
      have hend : isLineEnd c = false := isLineEnd_of_space hspace
      cases held with
      | none =>
        have hshape : p ++ w = document ++ blankLine ++ wire items := by
          rw [h, getD_none, nil_append, Item.text, append_assoc, dropWhile_of_head ⟨c, t, hc, hend⟩]
        rw [hshape, breakOn_blankLine hno] at hlong
        obtain ⟨rfl, hw⟩ := Prod.mk.inj (some.inj hlong)
        exact ⟨[_], items, rfl, hw.symm, hpass, .inr ⟨fields, hdec, rfl⟩⟩
      | some f =>
        have hf : OpenText f := hheld
        rw [getD_some, dropWhile_of_head hf.head] at h
        have hshape : p ++ w = (f ++ document) ++ blankLine ++ wire items := by
          rw [h]
          simp [Item.text]
        have hno' : ¬ blankLine <:+: (f ++ document) ++ ['\n'] := by
          rw [append_assoc]
          apply no_blankLine_append hf.noBlank hno
          rw [hc]
          intro hhead
          have heq : c = '\n' := by simpa using hhead
          rw [heq] at hspace
          cases hspace
        rw [hshape, breakOn_blankLine hno'] at hlong
        obtain ⟨rfl, hw⟩ := Prod.mk.inj (some.inj hlong)
        refine ⟨[_], items, rfl, hw.symm, hpass.2, .inr ⟨fields, ?_, rfl⟩⟩
        exact hpass.1.trans hdec
    | unreadable line =>
      have hline : '\n' ∉ line := hitem
      cases held with
      | none =>
        rw [Passes] at hpass
        split_ifs at hpass with hnil hjson
        · -- line ends alone
          rw [getD_none, nil_append, Item.text, dropWhile_ends hnil] at h
          obtain ⟨front, more, hrest, hw, hmore, hyields⟩ :=
            ih (by exact h) (show Held none from trivial) hpass hitems
          exact ⟨.unreadable line :: front, more, by rw [hrest]; rfl, hw, hmore, hyields⟩
        · rw [getD_none, nil_append, Item.text, dropWhile_line hnil] at h
          have hshape :
              p ++ w = [] ++ line.dropWhile isLineEnd ++ (['\n'] ++ wire items) := by
            rw [h]
            simp
          have hmem : '\n' ∉ line.dropWhile isLineEnd := fun hin =>
            hline ((dropWhile_sublist _).mem hin)
          exact absurd hins (no_blankLine_of_toon hshape (by simp [Blank])
            (by simp [blankLine]) hmem (by rw [sniff_dropWhile]; exact hjson) hsniff)
        · have hopen := openText_line hline hnil hjson
          rw [getD_none, nil_append, Item.text, dropWhile_line hnil] at h
          have hshape : p ++ w = ((some (line.dropWhile isLineEnd ++ ['\n'])).getD [] ++
              wire items).dropWhile isLineEnd := by
            rw [getD_some, dropWhile_of_head hopen.head, h]
          obtain ⟨front, more, hrest, hw, hmore, hyields⟩ := ih hshape hopen hpass hitems
          exact ⟨.unreadable line :: front, more, by rw [hrest]; rfl, hw, hmore, hyields⟩
      | some f =>
        have hf : OpenText f := hheld
        rw [getD_some, dropWhile_of_head hf.head] at h
        rw [Passes] at hpass
        split_ifs at hpass with hnil hjson
        · obtain ⟨g, hg⟩ := hf.ends
          have hshape : p ++ w = g ++ blankLine ++ wire items := by
            rw [h, hnil, hg]
            simp [Item.text]
          have hno : ¬ blankLine <:+: g ++ ['\n'] := hg ▸ hf.noBlank
          rw [hshape, breakOn_blankLine hno] at hlong
          obtain ⟨rfl, hw⟩ := Prod.mk.inj (some.inj hlong)
          refine ⟨[.unreadable line], items, rfl, hw.symm, hpass.2, .inl ⟨?_, rfl⟩⟩
          rw [← hg]
          exact hpass.1
        · have hshape : p ++ w = f ++ line ++ (['\n'] ++ wire items) := by
            rw [h]
            simp [Item.text]
          exact absurd hins (no_blankLine_of_toon hshape hjson.1 hf.noBlank hline hjson.2
            hsniff)
        · have hopen := hf.line hline hnil hjson
          have hshape : p ++ w = ((some (f ++ line ++ ['\n'])).getD [] ++
              wire items).dropWhile isLineEnd := by
            rw [getD_some, dropWhile_of_head hopen.head, h]
            simp [Item.text]
          obtain ⟨front, more, hrest, hw, hmore, hyields⟩ := ih hshape hopen hpass hitems
          exact ⟨.unreadable line :: front, more, by rw [hrest]; rfl, hw, hmore, hyields⟩

lemma blanked_of_sniff {held : Option Text} {space : Text} (hspace : Blank space)
    (hends : (held = none ∧ LineEnds space) ∨ ∃ front, space = front ++ ['\n'])
    (hheld : ∀ f, held = some f → Blank f)
    (hsniff : sniffWireDialect (space ++ wire rest) = .json)
    (hpass : Passes T held rest) (hwell : ∀ item ∈ rest, item.WellFormed T) :
    ∃ front more, rest = front ++ more ∧ messages front = [] ∧
      Blanked T (space ++ wire rest) more := by
  induction rest generalizing held space with
  | nil =>
    rw [sniff_append_of_blank hspace] at hsniff
    cases hsniff
  | cons item items ih =>
    have hitems : ∀ item ∈ items, item.WellFormed T := fun i hi =>
      hwell i (mem_cons_of_mem _ hi)
    have hitem := hwell item mem_cons_self
    have hends' : LineEnds space ∨ ∃ front, space = front ++ ['\n'] :=
      hends.imp_left And.right
    cases item with
    | json line fields =>
      obtain ⟨hline, hparse⟩ := hitem
      have hjson := sniff_json_line hparse
      refine ⟨[], _, rfl, rfl, space, _, items, rfl, hspace, hends', rfl, ?_, ?_⟩
      · rw [Item.text, sniff_append_of_ink (not_blank_of_sniff hjson), hjson]
      · cases held with
        | none => exact hpass
        | some f => exact hpass.2
    | toon document fields =>
      obtain ⟨⟨c, t, hc, hink, hbrack⟩, -⟩ := hitem
      rw [sniff_append_of_blank hspace, wire_cons, Item.text, hc, cons_append,
        cons_append, sniff_of_head hink, if_neg hbrack] at hsniff
      cases hsniff
    | unreadable line =>
      have hline : '\n' ∉ line := hitem
      by_cases hblank : Blank line
      · have htoon : sniffWireDialect line ≠ .json := by
          rw [sniff_of_blank hblank]
          simp
        have hnewl : Blank ['\n'] := by simp [Blank, Text.isWhitespace]
        have hspace' : Blank (space ++ line ++ ['\n']) :=
          blank_append.mpr ⟨blank_append.mpr ⟨hspace, hblank⟩, hnewl⟩
        have hshape : space ++ wire (.unreadable line :: items) =
            space ++ line ++ ['\n'] ++ wire items := by
          rw [wire_cons, Item.text]
          simp
        rw [hshape] at hsniff ⊢
        have hnext : ∃ held', (∀ f, held' = some f → Blank f) ∧ Passes T held' items := by
          cases held with
          | none =>
            rw [Passes, if_neg htoon] at hpass
            split_ifs at hpass
            · exact ⟨none, by simp, hpass⟩
            · refine ⟨_, ?_, hpass⟩
              rintro f hf
              cases hf
              have hdrop : Blank (line.dropWhile isLineEnd) := fun c hin =>
                hblank c ((dropWhile_sublist _).mem hin)
              exact blank_append.mpr ⟨hdrop, hnewl⟩
          | some f =>
            rw [Passes] at hpass
            split_ifs at hpass with hnil hboth
            · exact ⟨none, by simp, hpass.2⟩
            · exact absurd hboth.2 htoon
            · refine ⟨_, ?_, hpass⟩
              rintro g hg
              cases hg
              exact blank_append.mpr
                ⟨blank_append.mpr ⟨hheld f rfl, hblank⟩, hnewl⟩
        obtain ⟨held', hheld', hpass'⟩ := hnext
        obtain ⟨front, more, hrest, hnone, hblanked⟩ :=
          ih hspace' (.inr ⟨_, rfl⟩) hheld' hsniff hpass' hitems
        exact ⟨.unreadable line :: front, more, by rw [hrest]; rfl, hnone, hblanked⟩
      · have hjson : sniffWireDialect line = .json := by
          rw [sniff_append_of_blank hspace, wire_cons, Item.text, append_assoc,
            sniff_append_of_ink hblank] at hsniff
          exact hsniff
        have hne : line.dropWhile isLineEnd ≠ [] := by
          intro hnil
          rw [← sniff_dropWhile, hnil] at hjson
          cases hjson
        refine ⟨[], _, rfl, rfl, space, _, items, rfl, hspace, hends', rfl, ?_, ?_⟩
        · rw [Item.text, sniff_append_of_ink hblank, hjson]
        · rw [Passes, if_neg hne, if_pos hjson]
          cases held with
          | none =>
            rw [Passes, if_neg hne, if_pos hjson] at hpass
            exact hpass
          | some f =>
            have hcons : line ≠ [] := by
              rintro rfl
              exact hne rfl
            rw [Passes, if_neg hcons, if_pos ⟨hheld f rfl, hjson⟩] at hpass
            exact hpass

lemma Waiting.blanked (h : Waiting T (b ++ w) rest) (hsniff : sniffWireDialect b = .json)
    (hwell : ∀ item ∈ rest, item.WellFormed T) :
    ∃ front more, rest = front ++ more ∧ messages front = [] ∧ Blanked T (b ++ w) more := by
  obtain ⟨ends, held, hends, htext, hheld, hpass⟩ := h
  have hjson : sniffWireDialect (b ++ w) = .json := by
    rw [sniff_append_of_ink (not_blank_of_sniff hsniff), hsniff]
  rw [htext] at hjson ⊢
  cases held with
  | none =>
    rw [getD_none, append_nil] at hjson ⊢
    exact blanked_of_sniff hends.blank (.inl ⟨rfl, hends⟩) (by simp) hjson hpass hwell
  | some f =>
    have hf : OpenText f := hheld
    have hblank : Blank f := by
      by_contra hink
      rw [getD_some, append_assoc, sniff_append_of_blank hends.blank,
        sniff_append_of_ink hink, hf.plain] at hjson
      cases hjson
    obtain ⟨g, hg⟩ := hf.ends
    apply blanked_of_sniff (blank_append.mpr ⟨hends.blank, hblank⟩) _ _ hjson hpass hwell
    · exact .inr ⟨ends ++ g, by rw [hg, append_assoc]⟩
    · rintro f' hf'
      cases hf'
      exact hblank

lemma Waiting.take (h : Waiting T (b ++ w) rest) (hsniff : sniffWireDialect b = .toon)
    (htake : takeWireFrame b = some taken) (hwell : ∀ item ∈ rest, item.WellFormed T) :
    ∃ read more, rest = read ++ more ∧ Waiting T (taken.rest ++ w) more ∧
      taken.dialect = .toon ∧ Yields T taken.frame .toon read := by
  obtain ⟨ends, held, hends, htext, hheld, hpass⟩ := h
  rw [take_of_toon hsniff] at htake
  obtain ⟨⟨x, r⟩, hbreak, rfl⟩ := map_eq_some_iff.mp htake
  have hne : b.dropWhile isLineEnd ≠ [] := by
    intro hnil
    rw [hnil] at hbreak
    cases hbreak
  have hfront := dropWhile_append_of_ne hne htext
  rw [append_assoc, dropWhile_append_of_pos hends] at hfront
  obtain ⟨read, more, hrest, hw, hmore, hyields⟩ :=
    yields_blankLine hbreak (by rw [sniff_dropWhile]; exact hsniff) hfront hheld hpass hwell
  refine ⟨read, more, hrest, ⟨[], none, by simp [LineEnds], ?_, trivial, hmore⟩, rfl, hyields⟩
  exact hw

lemma Yields.append_left {frame : Text} {dialect : ResidentWireDialect} {front items : List Item}
    (h : Yields T frame dialect items) (hfront : messages front = []) :
    Yields T frame dialect (front ++ items) := by
  unfold Yields at *
  rw [messages_append, hfront, nil_append]
  exact h

end

section
variable {T : Toon} {b w : Text} {rest : List Item} {taken : ResidentWireFrame}

lemma Blanked.take (h : Blanked T (b ++ w) rest) (hsniff : sniffWireDialect b = .json)
    (htake : takeWireFrame b = some taken) (hwell : ∀ item ∈ rest, item.WellFormed T) :
    taken.dialect = .json ∧
      ((decodeWireFrameStrict T taken.frame .json = none ∧ Blanked T (taken.rest ++ w) rest ∧
          sniffWireDialect taken.rest = .json) ∨
        ∃ item more, rest = item :: more ∧ Waiting T (taken.rest ++ w) more ∧
          Yields T taken.frame .json [item]) := by
  obtain ⟨space, item, more, rfl, hspace, hends, htext, hitem, hpass⟩ := h
  rw [take_of_json hsniff] at htake
  obtain ⟨⟨x, r⟩, hbreak, rfl⟩ := map_eq_some_iff.mp htake
  refine ⟨rfl, ?_⟩
  have hne : b.dropWhile isLineEnd ≠ [] := by
    intro hnil
    rw [hnil] at hbreak
    cases hbreak
  have hfront := dropWhile_append_of_ne hne htext
  have hlong := breakOn_append_right hbreak w
  rw [hfront, dropWhile_append] at hlong
  by_cases hdrop : space.dropWhile isLineEnd = []
  · -- the line that looks like JSON is next
    right
    rw [if_pos (by simpa using hdrop)] at hlong
    have hwellIt := hwell item mem_cons_self
    cases item with
    | json line fields =>
      obtain ⟨hline, hparse⟩ := hwellIt
      have hcons : line.dropWhile isLineEnd ≠ [] := by
        intro hnil
        rw [hnil] at hparse
        cases hparse
      have hmem : '\n' ∉ line.dropWhile isLineEnd := fun hin =>
        hline ((dropWhile_sublist _).mem hin)
      rw [wire_cons, Item.text, append_assoc, dropWhile_append,
        if_neg (by simpa using hcons), ← append_assoc, breakOn_line hmem] at hlong
      obtain ⟨rfl, hw⟩ := Prod.mk.inj (some.inj hlong)
      refine ⟨_, more, rfl, ⟨[], none, by simp [LineEnds], ?_, trivial, hpass⟩, ?_⟩
      · exact hw.symm
      · exact .inr ⟨fields, hparse, rfl⟩
    | toon document fields =>
      obtain ⟨⟨c, t, hc, hink, hbrack⟩, -⟩ := hwellIt
      rw [Item.text, hc, cons_append, sniff_of_head hink, if_neg hbrack] at hitem
      cases hitem
    | unreadable line =>
      have hline : '\n' ∉ line := hwellIt
      have hjson : sniffWireDialect line = .json := by
        by_cases hblank : Blank line
        · have hall : Blank (line ++ ['\n']) :=
            blank_append.mpr ⟨hblank, by simp [Blank, Text.isWhitespace]⟩
          exact absurd hall (not_blank_of_sniff hitem)
        · rwa [Item.text, sniff_append_of_ink hblank] at hitem
      have hcons : line.dropWhile isLineEnd ≠ [] := by
        intro hnil
        rw [← sniff_dropWhile, hnil] at hjson
        cases hjson
      have hmem : '\n' ∉ line.dropWhile isLineEnd := fun hin =>
        hline ((dropWhile_sublist _).mem hin)
      rw [Passes, if_neg hcons, if_pos hjson] at hpass
      rw [wire_cons, Item.text, append_assoc, dropWhile_append,
        if_neg (by simpa using hcons), ← append_assoc, breakOn_line hmem] at hlong
      obtain ⟨rfl, hw⟩ := Prod.mk.inj (some.inj hlong)
      refine ⟨_, more, rfl, ⟨[], none, by simp [LineEnds], ?_, trivial, hpass.2⟩, ?_⟩
      · exact hw.symm
      · exact .inl ⟨hpass.1, rfl⟩
  · -- a line of white space is next
    left
    rw [if_neg (by simpa using hdrop)] at hlong
    obtain ⟨front, hfrontEq⟩ : ∃ front, space.dropWhile isLineEnd = front ++ ['\n'] := by
      rcases hends with hends | ⟨front, hends⟩
      · exact absurd (dropWhile_eq_nil_iff.mpr hends) hdrop
      · have hsuff : space.dropWhile isLineEnd <:+ front ++ ['\n'] :=
          hends ▸ dropWhile_suffix _
        rcases suffix_concat_iff.mp hsuff with hnil | ⟨u, hu, -⟩
        · exact absurd hnil hdrop
        · exact ⟨u, hu⟩
    have hblank : Blank (space.dropWhile isLineEnd) := fun c hc =>
      hspace c ((dropWhile_sublist _).mem hc)
    have hsome : breakOn ['\n'] (space.dropWhile isLineEnd) ≠ none :=
      breakOn_ne_none (by simp) ⟨front, [], by rw [hfrontEq]; simp⟩
    obtain ⟨⟨y, z⟩, hyz⟩ := ne_none_iff_exists'.mp hsome
    rw [breakOn_append_right hyz] at hlong
    obtain ⟨rfl, hw⟩ := Prod.mk.inj (some.inj hlong)
    have hshape := breakOn_some hyz
    rw [hshape, blank_append, blank_append] at hblank
    obtain ⟨⟨hy, hnewl⟩, hz⟩ := hblank
    refine ⟨Json.parse_of_whitespace hy, ⟨z, item, more, rfl, hz, ?_, hw.symm, hitem, hpass⟩, ?_⟩
    · have hsuff : z <:+ front ++ ['\n'] := by
        rw [← hfrontEq, hshape]
        exact suffix_append _ _
      rcases suffix_concat_iff.mp hsuff with hnil | ⟨u, hu, -⟩
      · left
        simp [LineEnds, hnil]
      · exact .inr ⟨u, hu⟩
    · rw [← sniff_dropWhile, breakOn_some hbreak,
        sniff_append_of_blank (blank_append.mpr ⟨hy, hnewl⟩)] at hsniff
      exact hsniff

lemma Blanked.waiting (h : Blanked T (b ++ w) rest) (hsniff : sniffWireDialect b = .json)
    (htake : takeWireFrame b = none) : Waiting T (b ++ w) rest := by
  obtain ⟨space, item, more, rfl, hspace, hends, htext, hitem, hpass⟩ := h
  have hnone : breakOn ['\n'] (b.dropWhile isLineEnd) = none := by
    rw [take_of_json hsniff] at htake
    exact map_eq_none_iff.mp htake
  have hnewl : '\n' ∉ b.dropWhile isLineEnd := by
    intro hin
    obtain ⟨front, back, hspl⟩ := append_of_mem hin
    exact breakOn_ne_none (by simp) ⟨front, back, by rw [hspl]; simp⟩ hnone
  have hink : ¬ Blank (b.dropWhile isLineEnd) := by
    apply not_blank_of_sniff
    rw [sniff_dropWhile, hsniff]
  have hne : b.dropWhile isLineEnd ≠ [] := by
    intro hnil
    exact hink (by simp [hnil, Blank])
  have hlin : LineEnds space := by
    rcases hends with hends | ⟨front, hends⟩
    · exact hends
    · apply dropWhile_eq_nil_iff.mp
      by_contra hdrop
      have hfront := dropWhile_append_of_ne hne htext
      rw [dropWhile_append, if_neg (by simpa using hdrop)] at hfront
      rcases append_eq_append_iff.mp hfront with ⟨a, ha, -⟩ | ⟨a, ha, -⟩
      · apply hink
        intro c hc
        have hin : c ∈ space.dropWhile isLineEnd := ha ▸ mem_append_left _ hc
        exact hspace c ((dropWhile_sublist _).mem hin)
      · apply hnewl
        rw [ha]
        apply mem_append_left
        have hsuff : space.dropWhile isLineEnd <:+ front ++ ['\n'] :=
          hends ▸ dropWhile_suffix _
        rcases suffix_concat_iff.mp hsuff with hnil | ⟨u, hu, -⟩
        · exact absurd hnil hdrop
        · rw [hu]
          simp
  exact ⟨space, none, hlin, by rw [htext]; simp, trivial, hpass⟩

end

end Redskilled.Acp.DualDialect
