import Redskilled.Foundation.JsMap
import Redskilled.Update.SelfUpdate

/-!
# The cache of bundles

What the operations do to the cache directory, where each of them may throw and a write
may be torn. What the cache offers a plugin are the versions of its bundles that are in
range of the installed one and newer.
-/
namespace Redskilled.Update
open Foundation Foundation.Text

namespace Semver
variable {a b c : Semver}

lemma compare_self : a.compare a = 0 := by
  simp [compare]

lemma compare_neg : b.compare a = -a.compare b := by
  unfold compare
  split_ifs <;> omega

lemma compare_le_trans (hab : a.compare b ≤ 0) (hbc : b.compare c ≤ 0) : a.compare c ≤ 0 := by
  unfold compare at *
  split_ifs at * <;> omega

end Semver

section
variable {installed a b c : Text}

lemma compareSemver_self : compareSemver a a = 0 := by
  unfold compareSemver
  cases parseSemver a with
  | none => rfl
  | some pa => exact Semver.compare_self

lemma compareSemver_neg : compareSemver b a = -compareSemver a b := by
  unfold compareSemver
  cases parseSemver a with
  | none => cases parseSemver b <;> rfl
  | some pa =>
    cases parseSemver b with
    | none => rfl
    | some pb => exact Semver.compare_neg

lemma parses_of_inRange (h : isInRange installed a = true) :
    (∃ pi, parseSemver installed = some pi) ∧ ∃ pa, parseSemver a = some pa := by
  unfold isInRange at h
  split at h
  · next pi pa hinst ha => exact ⟨⟨pi, hinst⟩, ⟨pa, ha⟩⟩
  · cases h

lemma compareSemver_le_trans {pb : Semver} (hb : parseSemver b = some pb)
    (hab : compareSemver a b ≤ 0) (hbc : compareSemver b c ≤ 0) : compareSemver a c ≤ 0 := by
  unfold compareSemver at *
  rw [hb] at hab hbc
  cases ha : parseSemver a with
  | none => simp
  | some pa =>
    cases hc : parseSemver c with
    | none => simp
    | some pc =>
      rw [ha] at hab
      rw [hc] at hbc
      exact Semver.compare_le_trans hab hbc

end

/-- A name of the cache has a version in range of the installed one, and newer. -/
def Offers (plugin installed : Text) (names : List Text) (version : Text) : Prop :=
  (∃ name ∈ names, laneVersion plugin name = some version) ∧
    isInRange installed version = true ∧ 0 < compareSemver version installed

section
variable {plugin installed : Text} {names : List Text} {version other : Text}

lemma Offers.mono {more : List Text} (h : Offers plugin installed names version)
    (hmore : ∀ name ∈ names, laneVersion plugin name = some version → name ∈ more) :
    Offers plugin installed more version := by
  obtain ⟨⟨name, hname, hvers⟩, hrange⟩ := h
  exact ⟨⟨name, hmore name hname hvers, hvers⟩, hrange⟩

lemma not_offers_nil : ¬ Offers plugin installed [] version := by
  rintro ⟨⟨name, hname, -⟩, -⟩
  cases hname

lemma offers_concat {name : Text} : Offers plugin installed (names ++ [name]) version ↔
      Offers plugin installed names version ∨ (laneVersion plugin name = some version ∧
        isInRange installed version = true ∧ 0 < compareSemver version installed) := by
  unfold Offers
  simp only [List.mem_append, List.mem_singleton, or_and_right, exists_or, exists_eq_left]

def betterOf (plugin installed : Text) (best : Option Text) (name : Text) : Option Text :=
  match laneVersion plugin name with
  | none => best
  | some version =>
    if !isInRange installed version then best
    else if compareSemver version installed ≤ 0 then best
    else
      match best with
      | none => some version
      | some newest => if 0 < compareSemver version newest then some version else best

lemma newestOf_eq : newestOf plugin installed names =
    names.foldl (betterOf plugin installed) none := rfl

lemma betterOf_eq_best {best : Option Text} {name : Text}
    (h : ∀ version, laneVersion plugin name = some version →
      ¬ (isInRange installed version = true ∧ 0 < compareSemver version installed)) :
    betterOf plugin installed best name = best := by
  unfold betterOf
  split
  · rfl
  · next version hvers =>
      have hnot := h version hvers
      split
      · rfl
      · next hrange =>
          rw [if_pos]
          by_contra hnew
          exact hnot ⟨by simpa using hrange, by omega⟩

lemma betterOf_offered {best : Option Text} {name version : Text}
    (hvers : laneVersion plugin name = some version)
    (hrange : isInRange installed version = true) (hnew : 0 < compareSemver version installed) :
    betterOf plugin installed best name =
      match best with
      | none => some version
      | some newest => if 0 < compareSemver version newest then some version else best := by
  unfold betterOf
  rw [hvers]
  simp only [hrange, Bool.not_true, Bool.false_eq_true, if_false]
  rw [if_neg (by omega)]

lemma newestOf_spec :
    (newestOf plugin installed names = none ∧ ∀ version, ¬ Offers plugin installed names version) ∨
      ∃ newest, newestOf plugin installed names = some newest ∧
        Offers plugin installed names newest ∧
          ∀ other, Offers plugin installed names other → compareSemver other newest ≤ 0 := by
  rw [newestOf_eq]
  induction names using List.reverseRecOn with
  | nil => exact .inl ⟨rfl, fun _ => not_offers_nil⟩
  | append_singleton names name ih =>
    rw [List.foldl_append, List.foldl_cons, List.foldl_nil]
    by_cases hoff : ∃ version, laneVersion plugin name = some version ∧
        isInRange installed version = true ∧ 0 < compareSemver version installed
    · obtain ⟨version, hvers, hrange, hnew⟩ := hoff
      have hconc : ∀ other, Offers plugin installed (names ++ [name]) other ↔
          Offers plugin installed names other ∨ other = version := by
        intro other
        rw [offers_concat, hvers]
        refine or_congr_right ⟨fun h => (Option.some.inj h.1).symm, ?_⟩
        rintro rfl
        exact ⟨rfl, hrange, hnew⟩
      have hself := (hconc version).mpr (.inr rfl)
      rw [betterOf_offered hvers hrange hnew]
      obtain ⟨hbest, hnone⟩ | ⟨newest, hbest, hnewest, hall⟩ := ih <;> rw [hbest]
      · refine .inr ⟨version, rfl, hself, fun other hoth => ?_⟩
        obtain hoth | rfl := (hconc other).mp hoth
        · exact absurd hoth (hnone other)
        · exact Int.le_of_eq compareSemver_self
      · by_cases hbett : 0 < compareSemver version newest
        · simp only [if_pos hbett]
          refine .inr ⟨version, rfl, hself, fun other hoth => ?_⟩
          obtain hoth | rfl := (hconc other).mp hoth
          · obtain ⟨parsed, hpars⟩ := (parses_of_inRange hnewest.2.1).2
            have hless : compareSemver newest version ≤ 0 := by
              rw [compareSemver_neg]
              omega
            exact compareSemver_le_trans hpars (hall other hoth) hless
          · exact Int.le_of_eq compareSemver_self
        · simp only [if_neg hbett]
          refine .inr ⟨newest, rfl, (hconc newest).mpr (.inl hnewest), fun other hoth => ?_⟩
          obtain hoth | rfl := (hconc other).mp hoth
          · exact hall other hoth
          · omega
    · have hnot : ∀ version, laneVersion plugin name = some version →
          ¬ (isInRange installed version = true ∧ 0 < compareSemver version installed) :=
        fun version hvers hrange => hoff ⟨version, hvers, hrange⟩
      have hconc : ∀ other, Offers plugin installed (names ++ [name]) other ↔
          Offers plugin installed names other := by
        intro other
        rw [offers_concat, or_iff_left fun h => hnot other h.1 h.2]
      simpa only [betterOf_eq_best hnot, hconc] using ih

end

structure File where
  content : Text
  whole : Bool

/-- The cache in the order of its listing, what the packages hold, and the names that were
taken out of the cache. -/
structure Disk where
  files : JsMap Text File
  packages : Text → Text → Option Text
  lost : List Text

namespace Disk

def read (disk : Disk) : Path → Option Text
  | .cache name => (disk.files.lookup name).map File.content
  | .packaged root relative => disk.packages root relative

def has (disk : Disk) (path : Path) : Bool := (disk.read path).isSome

def put (disk : Disk) (name : Text) (file : File) : Disk :=
  { disk with files := disk.files.set name file }

def remove (disk : Disk) (name : Text) : Disk :=
  { disk with files := disk.files.erase name, lost := disk.lost ++ [name] }

def names (disk : Disk) : List Text := disk.files.keys

end Disk

/-- One operation. It may throw, and a write that throws may have begun. -/
inductive FileStep : Disk → Exchange FileOp Answer → Disk → Prop
  | present (disk : Disk) (path : Path) :
      FileStep disk ⟨.present path, some (disk.has path)⟩ disk
  | readFile (disk : Disk) (path : Path) (content : Text) : disk.read path = some content →
      FileStep disk ⟨.readFile path, some content⟩ disk
  | writeFile (disk : Disk) (name content : Text) :
      FileStep disk ⟨.writeFile name content, some ()⟩ (disk.put name ⟨content, true⟩)
  | tearFile (disk : Disk) (name content : Text) (written : ℕ) :
      FileStep disk ⟨.writeFile name content, none⟩
        (disk.put name ⟨content.take written, false⟩)
  | rename (disk : Disk) (source target : Text) (file : File) :
      disk.files.lookup source = some file → FileStep disk ⟨.rename source target, some ()⟩
          ((disk.remove source).put target file)
  | readdir (disk : Disk) : FileStep disk ⟨.readdir, some disk.names⟩ disk
  | materialize (disk : Disk) (spec stagingDir root : Text)
      (packages : Text → Text → Option Text) :
      FileStep disk ⟨.materialize spec stagingDir, some root⟩ { disk with packages := packages }
  | fetchText (disk : Disk) (url text : Text) :
      FileStep disk ⟨.fetchText url, some text⟩ disk
  | throws (disk : Disk) (op : FileOp) : FileStep disk ⟨op, none⟩ disk

structure Keeps (disk next : Disk) : Prop where
  lost : ∀ name ∈ disk.lost, name ∈ next.lost
  names : ∀ name ∈ disk.names, name ∈ next.names ∨ name ∈ next.lost

lemma Keeps.refl (disk : Disk) : Keeps disk disk := ⟨fun _ h => h, fun _ h => .inl h⟩

lemma Keeps.trans {a b c : Disk} (hab : Keeps a b) (hbc : Keeps b c) : Keeps a c := by
  refine ⟨fun name h => hbc.lost name (hab.lost name h), ?_⟩
  intro name h
  rcases hab.names name h with h | h
  · exact hbc.names name h
  · exact .inr (hbc.lost name h)

lemma Keeps.put (disk : Disk) (name : Text) (file : File) : Keeps disk (disk.put name file) := by
  refine ⟨fun _ h => h, ?_⟩
  intro other h
  exact .inl (AList.mem_keys.mp (JsMap.mem_set.mpr (.inr (AList.mem_keys.mpr h))))

lemma Keeps.remove (disk : Disk) (name : Text) : Keeps disk (disk.remove name) := by
  refine ⟨fun _ h => List.mem_append_left _ h, ?_⟩
  intro other h
  by_cases hname : other = name
  · exact .inr (List.mem_append_right _ (by simp [hname]))
  · exact .inl (AList.mem_keys.mp (AList.mem_erase.mpr ⟨hname, AList.mem_keys.mpr h⟩))

lemma FileStep.keeps {disk next : Disk} {e : Exchange FileOp Answer}
    (h : FileStep disk e next) : Keeps disk next := by
  cases h with
  | writeFile name content => exact .put disk name _
  | tearFile name content written => exact .put disk name _
  | rename source target file => exact (Keeps.remove disk source).trans (.put _ target file)
  | materialize spec stagingDir root packages => exact ⟨fun _ h => h, fun _ h => .inl h⟩
  | _ => exact .refl disk

end Redskilled.Update
