import Redskilled.Foundation.JsText

/-!
# Command lines with flags

A command declares its flags: each has a long name, perhaps a letter, and either takes a value
or stands for itself. The words of a command line are read from the left. A long flag has its
value behind an equals sign or in the next word; a letter has it behind an equals sign, right
behind itself, or in the next word, and letters that take none may stand together in one word.
Two dashes end the flags. Flags and operands may come in any order.
-/
namespace Redskilled.Foundation.Flags
open Foundation

structure FlagSpec where
  long : Text
  short : Option Char
  takesValue : Bool
  deriving DecidableEq

/-- A flag that was read, by its long name. -/
structure Flag where
  name : Text
  value : Text

structure Reading where
  flags : List Flag
  operands : List Text

def Reading.empty : Reading := ⟨[], []⟩

def Reading.withFlags (r : Reading) (flags : List Flag) : Reading :=
  { r with flags := flags ++ r.flags }

def Reading.withOperand (r : Reading) (operand : Text) : Reading :=
  { r with operands := operand :: r.operands }

/-- What one word says: an operand, the end of the flags, or flags, the last of which may wait
for the next word. -/
inductive Word where
  | operand
  | terminator
  | flags (done : List Flag) (waiting : Option FlagSpec)

section
variable (table : List FlagSpec)

def FlagSpec.given (spec : FlagSpec) (value : Text) : List Flag × Option FlagSpec :=
  ([⟨spec.long, value⟩], none)

def FlagSpec.alone (spec : FlagSpec) : List Flag × Option FlagSpec :=
  if spec.takesValue then ([], some spec) else spec.given "true".toList

def lookupLong (name : Text) : Option FlagSpec := table.find? (·.long = name)

def lookupShort (c : Char) : Option FlagSpec := table.find? (·.short = some c)

def readLong (t : Text) : Option (List Flag × Option FlagSpec) :=
  (lookupLong table (t.takeWhile (· ≠ '='))).map fun spec =>
    match t.dropWhile (· ≠ '=') with
    | _ :: value => spec.given value
    | [] => spec.alone

def readShort : Text → Option (List Flag × Option FlagSpec)
  | [] => some ([], none)
  | c :: t =>
    (lookupShort table c).bind fun spec =>
      match t with
      | '=' :: d :: value => some (spec.given (d :: value))
      | t =>
        if spec.takesValue then some (if t = [] then spec.alone else spec.given t)
        else
          (readShort t).map fun r => (⟨spec.long, "true".toList⟩ :: r.1, r.2)

def readWord : Text → Option Word
  | '-' :: '-' :: t =>
    match t with
    | [] => some .terminator
    | c :: _ =>
      if c = '-' ∨ c = '=' then none
      else (readLong table t).map fun r => .flags r.1 r.2
  | '-' :: c :: t => (readShort table (c :: t)).map fun r => .flags r.1 r.2
  | _ => some .operand

def read : Option FlagSpec → List Text → Option Reading
  | none, [] => some .empty
  | some _, [] => none
  | some spec, value :: words => (read none words).map (·.withFlags [⟨spec.long, value⟩])
  | none, word :: words =>
    match readWord table word with
    | none => none
    | some .operand => (read none words).map (·.withOperand word)
    | some .terminator => some ⟨[], words⟩
    | some (.flags done waiting) => (read waiting words).map (·.withFlags done)

variable {table}

lemma read_operand {word : Text} (h : word.head? ≠ some '-') (words : List Text) :
    read table none (word :: words) = (read table none words).map (·.withOperand word) := by
  have hword : readWord table word = some .operand := by
    cases word with
    | nil => rfl
    | cons c t =>
      have hc : c ≠ '-' := fun heq => h (by simp [heq])
      unfold readWord
      split
      · rename_i heq
        exact absurd (List.cons.inj heq).1 hc
      · rename_i heq
        exact absurd (List.cons.inj heq).1 hc
      · rfl
  rw [read, hword]

lemma read_long {name value : Text} {spec : FlagSpec} (hlook : lookupLong table name = some spec)
    (hvalue : spec.takesValue = true) (hname : '=' ∉ name) (hhead : ∀ c ∈ name.head?, c ≠ '-') (hne : name ≠ [])
    (words : List Text) :
    read table none (('-' :: '-' :: name) :: value :: words) =
      (read table none words).map (·.withFlags [⟨spec.long, value⟩]) := by
  have hno : ∀ c ∈ name, c ≠ '=' := fun c hc heq => hname (heq ▸ hc)
  have htake : name.takeWhile (· ≠ '=') = name :=
    List.takeWhile_eq_self_iff.mpr fun c hc => by simpa using hno c hc
  have hdrop : name.dropWhile (· ≠ '=') = [] :=
    List.dropWhile_eq_nil_iff.mpr fun c hc => by simpa using hno c hc
  have hlong : readLong table name = some ([], some spec) := by
    rw [readLong, htake, hlook, hdrop, Option.map_some]
    simp only [FlagSpec.alone, hvalue, if_true]
  have hword : readWord table ('-' :: '-' :: name) = some (.flags [] (some spec)) := by
    obtain ⟨c, t, rfl⟩ := List.exists_cons_of_ne_nil hne
    rw [readWord, if_neg, hlong]
    · rfl
    · rintro (rfl | rfl)
      · exact hhead _ rfl rfl
      · exact hno _ List.mem_cons_self rfl
  rw [read, hword]
  simp only
  rw [read, Option.map_map]
  rfl

end

end Redskilled.Foundation.Flags
