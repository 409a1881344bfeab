import Redskilled.Foundation.Utf8Bytes

/-!
# The retained output of a terminal

`retain` of `packages/worker/src/acp/terminal-host.ts`. What a command writes is kept from the
end, as many bytes as the caller allows, and what is cut begins with the lead byte of a
character.
-/
namespace Redskilled.Acp.TerminalOutput
open Foundation Foundation.TailWindow List
open Foundation.Utf8 (isContinuation outside_zero exists_split exists_outside)

structure HeldTerminal where
  chunks : List (List ℕ)
  bytes : ℕ
  limit : ℕ
  truncated : Bool

def retain (terminal : HeldTerminal) (chunk : List ℕ) : HeldTerminal :=
  let chunks := terminal.chunks ++ [chunk]
  let bytes := terminal.bytes + chunk.length
  if bytes ≤ terminal.limit then { terminal with chunks := chunks, bytes := bytes }
  else
    let joined := chunks.flatten
    let joined := (joined.drop (joined.length - terminal.limit)).dropWhile isContinuation
    { terminal with truncated := true, chunks := [joined], bytes := joined.length }

def opened (limit : ℕ) : HeldTerminal := ⟨[], 0, limit, false⟩

def written (limit : ℕ) (chunks : List (List ℕ)) : HeldTerminal :=
  chunks.foldl retain (opened limit)

def output (terminal : HeldTerminal) : Text × Bool :=
  (Utf8.decode terminal.chunks.flatten, terminal.truncated)

/-- The bytes are those of the longest end of the text that the limit allows. -/
def KeepsTail (limit : ℕ) (text : Text) (retained : List ℕ) : Prop :=
  ∃ dropped kept, text = dropped ++ kept ∧ retained = Utf8.encode kept ∧
    retained.length ≤ limit ∧ ∀ more less, text = more ++ less →
      (Utf8.encode less).length ≤ limit → (Utf8.encode less).length ≤ retained.length

variable {limit i : ℕ} {text : Text} {chunks : List (List ℕ)} {retained : List ℕ}

lemma limit_written (limit : ℕ) (chunks : List (List ℕ)) :
    (written limit chunks).limit = limit := by
  induction chunks using reverseRecOn with
  | nil => rfl
  | append_singleton chunks chunk ih =>
    rw [written, foldl_append, ← written, foldl_cons, foldl_nil, retain]
    split_ifs
    · exact ih
    · exact ih

lemma retain_spec {terminal : HeldTerminal} (chunk : List ℕ)
    (hbyt : terminal.bytes = terminal.chunks.flatten.length) :
    (retain terminal chunk).bytes = (retain terminal chunk).chunks.flatten.length ∧
      (retain terminal chunk).chunks.flatten =
        cut isContinuation terminal.limit (terminal.chunks.flatten ++ chunk) ∧
      ((retain terminal chunk).truncated = true ↔ terminal.truncated = true ∨
        terminal.limit < (terminal.chunks.flatten ++ chunk).length) := by
  unfold retain cut
  simp only [flatten_append, flatten_cons, flatten_nil, append_nil, length_append, hbyt]
  split_ifs with h
  · simp [-length_flatten, Nat.not_lt.mpr h]
  · simp [-length_flatten, Nat.not_le.mp h]

lemma written_spec (limit : ℕ) (chunks : List (List ℕ)) :
    (written limit chunks).bytes = (written limit chunks).chunks.flatten.length ∧
      (written limit chunks).chunks.flatten = held isContinuation limit chunks ∧
      ((written limit chunks).truncated = true ↔ limit < chunks.flatten.length) := by
  induction chunks using reverseRecOn with
  | nil => simp [written, opened, held]
  | append_singleton chunks chunk ih =>
    rcases ih with ⟨hbyt, hheld, htrunc⟩
    rcases retain_spec chunk hbyt with ⟨hbyt', hcut, htrim⟩
    have hwritt : written limit (chunks ++ [chunk]) = retain (written limit chunks) chunk := by
      simp [written]
    rw [limit_written, hheld, ← held_append] at hcut
    rw [limit_written, hheld, htrunc] at htrim
    rw [hwritt]
    refine ⟨hbyt', hcut, htrim.trans ?_⟩
    simp only [length_append, flatten_append, flatten_cons, flatten_nil, append_nil]
    rcases Nat.lt_or_ge limit chunks.flatten.length with hlong | hfits
    · omega
    · rw [held_eq_flatten hfits]
      omega

lemma keepsTail_cut (limit : ℕ) (text : Text) :
    KeepsTail limit text (cut isContinuation limit (Utf8.encode text)) := by
  rcases exists_cut limit (outside_zero text) with ⟨n, hn, hshort, hcut, hbel, hat⟩
  rcases exists_split hn hat with ⟨dropped, kept, rfl, rfl⟩
  rw [Utf8.encode_append, drop_left, ← Utf8.encode_append] at hcut
  refine ⟨dropped, kept, rfl, hcut, ?_, ?_⟩
  · rw [hcut]
    rw [Utf8.encode_append, length_append] at hshort
    omega
  · intro more less hspl hless
    have hlengt := congrArg (fun t => (Utf8.encode t).length) hspl
    rw [hcut]
    simp only [Utf8.encode_append, length_append] at hlengt hbel
    by_contra hlonger
    have hin := hbel (Utf8.encode more).length (by omega) (by omega)
    rw [← Utf8.encode_append, hspl, Utf8.encode_append] at hin
    exact outside_zero less (inside_append (i := 0) |>.mp hin)

lemma KeepsTail.eq (h : KeepsTail limit text retained) :
    retained = cut isContinuation limit (Utf8.encode text) := by
  rcases h with ⟨dropped, kept, hspl, rfl, hfits, hlonge⟩
  rcases keepsTail_cut limit text with ⟨dropped', kept', hspl', hcut, hfits', hlong'⟩
  rw [hcut] at hfits' hlong' ⊢
  have hle := hlonge _ _ hspl' hfits'
  have hge := hlong' _ _ hspl hfits
  have henc := congrArg Utf8.encode (hspl.symm.trans hspl')
  rw [Utf8.encode_append, Utf8.encode_append] at henc
  exact (append_inj' henc (by omega)).2

/-- The longest end of a text is retained exactly where the text is not torn, and that bytes
were dropped is always told. -/
theorem retains_tail_iff (limit : ℕ) (text : Text) (chunks : List (List ℕ))
    (h : chunks.flatten = Utf8.encode text) :
    (KeepsTail limit text (written limit chunks).chunks.flatten ∧
      ((written limit chunks).truncated = true ↔
        (written limit chunks).chunks.flatten.length < (Utf8.encode text).length)) ↔
      ¬ Torn isContinuation limit (Utf8.encode text) chunks := by
  have hspec := written_spec limit chunks
  have hle := length_held_le isContinuation limit chunks
  have htrunc : limit < chunks.flatten.length ↔
      (held isContinuation limit chunks).length < chunks.flatten.length := by
    constructor
    · omega
    · intro hdropp
      by_contra hfits
      rw [held_eq_flatten (by omega)] at hdropp
      omega
  have hout := outside_zero text
  have hruns : limit ≠ 0 → ∀ i, ∃ j ≤ 2 * limit + 1,
      ¬ Inside isContinuation chunks.flatten (i + j) := by
    intro hlim i
    rcases exists_outside text i with ⟨j, hj, hj'⟩
    exact ⟨j, by omega, h ▸ hj'⟩
  rw [hspec.2.1, hspec.2.2, ← h, and_iff_left htrunc, ← held_eq_cut_iff (h ▸ hout) hruns, h]
  constructor
  · exact KeepsTail.eq
  · intro heq
    rw [heq]
    exact keepsTail_cut limit text

lemma not_torn (h : 3 ≤ limit) (text : Text) (chunks : List (List ℕ)) :
    ¬ Torn isContinuation limit (Utf8.encode text) chunks := by
  rintro ⟨i, -, hdeep, -⟩
  have hlow := hdeep.1
  rcases exists_outside text (i - 3) with ⟨j, hj, hout⟩
  exact hout (hdeep.2 _ (by omega) (by omega))

/-- A character is cut in its middle, and the text is kept as far as four bytes go. -/
theorem retains_cut_character :
    KeepsTail 4 "ab€".toList (written 4 [[97, 98, 0xe2], [0x82, 0xac]]).chunks.flatten :=
  ((retains_tail_iff 4 "ab€".toList [[97, 98, 0xe2], [0x82, 0xac]] (by decide)).mpr
    (not_torn (by omega) _ _)).1

/-- A character torn between two chunks leaves its last byte. -/
theorem last_byte_is_kept : ¬ ∀ limit text chunks, chunks.flatten = Utf8.encode text →
      KeepsTail limit text (written limit chunks).chunks.flatten ∧
        ((written limit chunks).truncated = true ↔
          (written limit chunks).chunks.flatten.length < (Utf8.encode text).length) := by
  intro h
  have hkept := (h 1 ['€'] [[0xe2, 0x82], [0xac]] (by decide)).1.eq
  revert hkept
  decide

end Redskilled.Acp.TerminalOutput
