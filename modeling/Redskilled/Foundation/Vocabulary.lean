import Mathlib.Data.List.Nodup
import Redskilled.Foundation.JsText

/-!
# Closed vocabularies

A type each of whose values is spelled by one word of a fixed list. Reading a word
of the list gives the value back; any other text is none of them.
-/
namespace Redskilled.Foundation

class Vocabulary (κ : Type*) where
  all : List κ
  text : κ → Text
  mem_all : ∀ word, word ∈ all
  nodup_texts : (all.map text).Nodup

namespace Vocabulary
variable {κ : Type*} [Vocabulary κ]

/-- The word of the list that a text spells. -/
def ofText (t : Text) : Option κ := (all : List κ).find? (text · = t)

lemma text_injective : Function.Injective (text : κ → Text) := by
  intro word other h
  exact List.inj_on_of_nodup_map nodup_texts (mem_all word) (mem_all other) h

@[simp] lemma ofText_text (word : κ) : ofText (text word) = some word := by
  have hsome : (ofText (text word) : Option κ).isSome :=
    List.find?_isSome.mpr ⟨word, mem_all word, by simp⟩
  obtain ⟨found, hfound⟩ := Option.isSome_iff_exists.mp hsome
  have htext : text found = text word := by simpa using List.find?_some hfound
  rw [hfound, text_injective htext]

end Vocabulary
end Redskilled.Foundation
