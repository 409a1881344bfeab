import Redskilled.Foundation.Interference
import Redskilled.Update.Cache

/-!
# Calls on one cache

Any number of resolutions and updates run on one cache, in any order of their operations,
each of which may fail. Others may have begun to write an entry, and may take entries out of
the cache. Of a resolution it is promised that it resolves, to a version of the installed
major that is not older than the installed one, nor than what was answered before it started.
-/
namespace Redskilled.Update
open Foundation Foundation.Text Dialogue

structure ResolveCall where
  input : ResolveInput
  options : ResolveOptions
  /-- The versions that were answered before the call started. -/
  before : Set Text
  program : Program Resolution

structure UpdateCall where
  input : ResolveInput
  program : Program SelfUpdateResult

structure Launchers where
  disk : Disk
  resolvers : ℕ → Option ResolveCall
  updaters : ℕ → Option UpdateCall

/-- The plugin, its channel and its installed version are the same. -/
def ResolveInput.SameLine (a b : ResolveInput) : Prop :=
  a.plugin = b.plugin ∧ a.installedVersion = b.installedVersion ∧ a.channel = b.channel

def Launchers.answered (s : Launchers) (input : ResolveInput) : Set Text :=
  {version | (∃ id call answer, s.resolvers id = some call ∧ call.input.SameLine input ∧
      call.program = .done answer ∧ answer.version = version) ∨
    ∃ id call answer, s.updaters id = some call ∧ call.input.SameLine input ∧
      call.program = .done answer ∧ answer.version = some version}

structure Answering where
  resolve : ResolveCall → Guard FileOp Answer Resolution Disk
  update : UpdateCall → Guard FileOp Answer SelfUpdateResult Disk

namespace Launchers

def setResolver (s : Launchers) (id : ℕ) (call : ResolveCall) (disk : Disk) : Launchers :=
  { s with disk := disk, resolvers := Function.update s.resolvers id (some call) }

def setUpdater (s : Launchers) (id : ℕ) (call : UpdateCall) (disk : Disk) : Launchers :=
  { s with disk := disk, updaters := Function.update s.updaters id (some call) }

lemma resolver_cases {s : Launchers} {id other : ℕ} {call found : ResolveCall} {disk : Disk}
    (h : (s.setResolver id call disk).resolvers other = some found) :
    found = call ∨ s.resolvers other = some found := by
  simp only [setResolver, Function.update_apply] at h
  split_ifs at h
  · exact .inl (Option.some.inj h).symm
  · exact .inr h

lemma updater_cases {s : Launchers} {id other : ℕ} {call found : UpdateCall} {disk : Disk}
    (h : (s.setUpdater id call disk).updaters other = some found) :
    found = call ∨ s.updaters other = some found := by
  simp only [setUpdater, Function.update_apply] at h
  split_ifs at h
  · exact .inl (Option.some.inj h).symm
  · exact .inr h

end Launchers

/-- A call starts or asks for one operation; or somebody has begun a write, or takes an entry
out of the cache. -/
inductive Step (format : StatusFormat) (may : Answering) : Launchers → Launchers → Prop
  | callResolve (s : Launchers) (id : ℕ) (input : ResolveInput) (options : ResolveOptions) :
      s.resolvers id = none → Step format may s (s.setResolver id ⟨input, options, s.answered input,
          resolveActiveVersionDetailed input format options⟩ s.disk)
  | callUpdate (s : Launchers) (id : ℕ) (input : ResolveInput) (options : ResolveOptions)
      (error : Text) : s.updaters id = none → Step format may s (s.setUpdater id
          ⟨input, backgroundSelfUpdate input format options error⟩ s.disk)
  | resolver {s : Launchers} {id : ℕ} {call : ResolveCall} {q : FileOp}
      {next : Option (Answer q) → Program Resolution} {answer : Option (Answer q)} {disk : Disk} :
      s.resolvers id = some call → call.program = .ask q next →
      may.resolve call s.disk call.program ⟨q, answer⟩ → FileStep s.disk ⟨q, answer⟩ disk →
        Step format may s (s.setResolver id { call with program := next answer } disk)
  | updater {s : Launchers} {id : ℕ} {call : UpdateCall} {q : FileOp}
      {next : Option (Answer q) → Program SelfUpdateResult} {answer : Option (Answer q)}
      {disk : Disk} :
      s.updaters id = some call → call.program = .ask q next →
      may.update call s.disk call.program ⟨q, answer⟩ → FileStep s.disk ⟨q, answer⟩ disk →
        Step format may s (s.setUpdater id { call with program := next answer } disk)
  | begun (s : Launchers) (name content : Text) (written : ℕ) :
      Step format may s { s with disk := s.disk.put name ⟨content.take written, false⟩ }
  | removed (s : Launchers) (name : Text) :
      Step format may s { s with disk := s.disk.remove name }

/-- The states that runs from any cache reach, where every operation is answered as it may. -/
inductive Reaches (format : StatusFormat) (may : Answering) : Launchers → Prop
  | start (disk : Disk) : disk.lost = [] → Reaches format may ⟨disk, fun _ => none, fun _ => none⟩
  | step {s t : Launchers} : Reaches format may s → Step format may s t → Reaches format may t

def anyAnswer : Answering where
  resolve := fun _ _ _ _ => True
  update := fun _ _ _ _ => True

def Disk.KeepsBundles (plugin : Text) (disk : Disk) : Prop :=
  ∀ name ∈ disk.lost, laneVersion plugin name = none

/-- A version is of the installed major, and not older than the installed one. -/
structure InLine (input : ResolveInput) (version : Text) : Prop where
  inMajor : version = input.installedVersion ∨ isInRange input.installedVersion version = true
  notOlder : 0 ≤ compareSemver version input.installedVersion

structure Resolves (call : ResolveCall) (disk : Disk) : Prop where
  notRejected : call.program ≠ .fail
  inLine : ∀ answer, call.program = .done answer → InLine call.input answer.version
  monotone : ∀ answer, call.program = .done answer → disk.KeepsBundles call.input.plugin →
    ∀ version ∈ call.before, 0 ≤ compareSemver answer.version version

/-- An entry that a version keys is found in the listing with that version. -/
def Listed (plugin name : Text) : Prop :=
  ∀ version, bundleFileName plugin version .stable = some name →
    laneVersion plugin name = some (trim version)

/-- The bundles that are found or written are listed. -/
def sees (plugin : Text) : Exchange FileOp Answer → Prop
  | ⟨.present (.cache name), some true⟩ => Listed plugin name
  | ⟨.writeFile name _, some ()⟩ => Listed plugin name
  | _ => True

/-- A candidate can key a bundle; the test for a bundle, and the operations that move the
pointer, do not fail. -/
def inOrder (input : ResolveInput) : Exchange FileOp Answer → Prop
  | ⟨.readFile path, some body⟩ => path = .cache (pointerFileName input.plugin) →
      isCandidate input (readPointer body) = true →
        bundleFileName input.plugin (readPointer body) input.channel ≠ none
  | ⟨.present path, none⟩ => ∀ version name,
      bundleFileName input.plugin version input.channel = some name → path ≠ .cache name
  | ⟨.writeFile _ _, none⟩ => False
  | ⟨.rename _ _, none⟩ => False
  | _ => True

/-- The listing fails only where no bundle is newer than the pointer that was read. -/
def listsNewer (input : ResolveInput) (format : StatusFormat) (options : ResolveOptions)
    (disk : Disk) (program : Program Resolution) (e : Exchange FileOp Answer) : Prop :=
  e = ⟨.readdir, none⟩ → ∀ pointer, program = afterPointer input format options pointer →
    ∀ version, Offers input.plugin input.installedVersion disk.names version →
      compareSemver version pointer.version ≤ 0

def soundAnswer (format : StatusFormat) : Answering where
  resolve := fun call disk program e =>
    sees call.input.plugin e ∧ inOrder call.input e ∧
      listsNewer call.input format call.options disk program e
  update := fun call _ _ e => sees call.input.plugin e

/-- A version is the installed one, or that of a bundle that is or was in the cache. -/
def Backed (input : ResolveInput) (disk : Disk) (version : Text) : Prop :=
  compareSemver version input.installedVersion = 0 ∨
    input.channel = .stable ∧ ∃ offered, parseSemver offered = parseSemver version ∧
      Offers input.plugin input.installedVersion (disk.names ++ disk.lost) offered

section
variable {input : ResolveInput} {disk next : Disk} {version other : Text}

lemma Disk.KeepsBundles.of_keeps {plugin : Text} (h : next.KeepsBundles plugin)
    (hkeeps : Keeps disk next) : disk.KeepsBundles plugin :=
  fun name hname => h name (hkeeps.lost name hname)

lemma Keeps.offers (hkeeps : Keeps disk next)
    (h : Offers input.plugin input.installedVersion (disk.names ++ disk.lost) version) :
    Offers input.plugin input.installedVersion (next.names ++ next.lost) version := by
  apply h.mono
  intro name hname _
  rcases List.mem_append.mp hname with hname | hname
  · rcases hkeeps.names name hname with hname | hname
    · exact List.mem_append_left _ hname
    · exact List.mem_append_right _ hname
  · exact List.mem_append_right _ (hkeeps.lost name hname)

lemma offers_names (hkept : disk.KeepsBundles input.plugin)
    (h : Offers input.plugin input.installedVersion (disk.names ++ disk.lost) version) :
    Offers input.plugin input.installedVersion disk.names version := by
  apply h.mono
  intro name hname hvers
  rcases List.mem_append.mp hname with hname | hname
  · exact hname
  · rw [hkept name hname] at hvers
    cases hvers

lemma Backed.of_keeps (h : Backed input disk version) (hkeeps : Keeps disk next) :
    Backed input next version := by
  rcases h with h | ⟨hchann, offered, hparse, hoff⟩
  · exact .inl h
  · exact .inr ⟨hchann, offered, hparse, hkeeps.offers hoff⟩

lemma backed_installed : Backed input disk input.installedVersion := .inl compareSemver_self

lemma inLine_installed : InLine input input.installedVersion :=
  ⟨.inl rfl, Int.le_of_eq compareSemver_self.symm⟩

lemma parseSemver_trim : parseSemver (trim version) = parseSemver version := by
  rw [parseSemver, parseSemver, trim_trim]

lemma compareSemver_congr (h : parseSemver version = parseSemver other) (c : Text) :
    compareSemver version c = compareSemver other c := by
  unfold compareSemver
  rw [h]

lemma isInRange_congr (h : parseSemver version = parseSemver other) (c : Text) :
    isInRange c version = isInRange c other := by
  unfold isInRange
  rw [h]

lemma backed_of_bundle {name : Text} (hchann : input.channel = .stable)
    (hname : bundleFileName input.plugin version input.channel = some name)
    (hlist : Listed input.plugin name) (hmem : name ∈ disk.names)
    (hrange : isInRange input.installedVersion version = true)
    (hnot : 0 ≤ compareSemver version input.installedVersion) :
    Backed input disk version := by
  by_cases hnew : 0 < compareSemver version input.installedVersion
  · rw [hchann] at hname
    refine .inr ⟨hchann, trim version, parseSemver_trim, ⟨?_, ?_, ?_⟩⟩
    · exact ⟨name, List.mem_append_left _ hmem, hlist version hname⟩
    · rw [isInRange_congr parseSemver_trim]
      exact hrange
    · rw [compareSemver_congr parseSemver_trim]
      exact hnew
  · exact .inl (by omega)

lemma backed_of_offers (hchann : input.channel = .stable)
    (h : Offers input.plugin input.installedVersion disk.names version) :
    Backed input disk version :=
  .inr ⟨hchann, version, rfl, h.mono fun _ hname _ => List.mem_append_left _ hname⟩

lemma inLine_of_offers {names : List Text}
    (h : Offers input.plugin input.installedVersion names version) : InLine input version :=
  ⟨.inr h.2.1, Int.le_of_lt h.2.2⟩

lemma InLine.of_installed (h : InLine input version)
    (hoth : compareSemver other input.installedVersion = 0) :
    0 ≤ compareSemver version other := by
  rcases h.inMajor with rfl | hrange
  · rw [compareSemver_neg]
    omega
  · obtain ⟨⟨installed, hinst⟩, -⟩ := parses_of_inRange hrange
    have hle : compareSemver input.installedVersion version ≤ 0 := by
      rw [compareSemver_neg]
      have hnot := h.notOlder
      omega
    have hoth' := compareSemver_le_trans hinst (Int.le_of_eq hoth) hle
    rw [compareSemver_neg]
    omega

end

end Redskilled.Update
