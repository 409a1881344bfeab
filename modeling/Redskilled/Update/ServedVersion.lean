import Redskilled.Update.Launchers

/-!
# What concurrent calls serve

Every resolution that resolves answers a version of the installed major that is not older
than the installed one.
-/
namespace Redskilled.Update
open Foundation Foundation.Text Dialogue Launchers Option

/-- What answers and updates leave behind is kept by all operations. -/
def Stands (input : ResolveInput) (version : Text) (disk : Disk) : Prop :=
  InLine input version ∧ Backed input disk version

section
variable {input : ResolveInput} {disk : Disk} {α : Type}
  {allowed : Disk → Exchange FileOp Answer → Prop}

variable {version : Text}

lemma Stands.of_keeps {next : Disk} (h : Stands input version disk)
    (hkeeps : Keeps disk next) : Stands input version next :=
  ⟨h.1, h.2.of_keeps hkeeps⟩

lemma stands_installed : Stands input input.installedVersion disk :=
  ⟨inLine_installed, backed_installed⟩

lemma mem_names_of_has {name : Text} (h : disk.has (.cache name) = true) : name ∈ disk.names := by
  rw [Disk.has, Disk.read, isSome_map] at h
  exact AList.lookup_isSome.mp h

lemma isCandidate_iff {pointed : Text} : isCandidate input pointed = true ↔
    pointed ≠ [] ∧ isInRange input.installedVersion pointed = true ∧
      0 ≤ compareSemver pointed input.installedVersion := by
  unfold isCandidate
  cases pointed <;> simp

lemma withstands_lasting {kept : Disk → Prop} (hlasts : ∀ d e, Keeps d e → kept d → kept e)
    (p : Program α) (h : kept disk) :
    p.Withstands FileStep Keeps (fun s _ e => allowed s e) (fun _ => kept) kept disk :=
  withstands_kept hlasts (fun d _ e hstep => hlasts d e hstep.keeps) p h

lemma withstands_stands (p : Program α) (h : Stands input version disk) :
    p.Withstands FileStep Keeps (fun s _ e => allowed s e) (fun _ => Stands input version)
      (fun _ => True) disk :=
  (withstands_lasting (fun _ _ hkeeps h => h.of_keeps hkeeps) p h).mono
    (fun _ _ _ h => h) (fun _ _ h => h) (fun _ _ => trivial)

lemma withstands_any (p : Program α) :
    p.Withstands FileStep Keeps (fun s _ e => allowed s e) (fun _ _ => True) (fun _ => True) disk :=
  withstands_lasting (fun _ _ _ h => h) p trivial

lemma honourPointer_stands {pointed : Text} (hchann : input.channel = .stable) :
    (honourPointer input pointed).Withstands FileStep Keeps (fun _ _ e => sees input.plugin e)
      (fun served => Stands input served.version) (fun _ => True) disk := by
  unfold honourPointer
  split_ifs with hcandidate
  · obtain ⟨-, hrange, hnotOld⟩ := isCandidate_iff.mp hcandidate
    split
    · trivial
    · next name hname =>
        have hpres : (need (FileOp.present (.cache name)) : Program Bool).Withstands FileStep Keeps
            (fun _ _ e => sees input.plugin e)
            (fun cached d => cached = true → Stands input pointed d) (fun _ => True) disk := by
          intro t answer u _ hsees hstep
          cases hstep with
          | throws => trivial
          | present =>
            intro hhas
            rw [hhas] at hsees
            exact ⟨⟨.inr hrange, hnotOld⟩, backed_of_bundle hchann hname hsees
              (mem_names_of_has hhas) hrange hnotOld⟩
        apply hpres.seq
        intro cached d hcach
        cases cached with
        | false => exact stands_installed
        | true => exact hcach rfl
  · exact stands_installed

lemma reconcile_stands {served : Served} {lane : Option Text}
    (hserv : Stands input served.version disk)
    (hlane : ∀ newest ∈ lane, Stands input newest disk) :
    (reconcile input served lane).Withstands FileStep Keeps (fun s _ e => allowed s e)
      (fun served => Stands input served.version) (fun _ => True) disk := by
  unfold reconcile
  split
  · exact hserv
  · next newest hnew =>
      have hstands := hlane newest (mem_filter_iff.mp hnew).1
      exact (withstands_stands _ hstands).seq fun _ _ h => h

variable {format : StatusFormat} {options : ResolveOptions}

lemma afterPointer_stands {pointer : Served} (hchann : input.channel = .stable)
    (hpoint : Stands input pointer.version disk) :
    (afterPointer input format options pointer).Withstands FileStep Keeps
      (fun s _ e => allowed s e) (fun answer => Stands input answer.version)
      (fun _ => True) disk := by
  refine fun t entries u ht _ hstep => ?_
  have hpoint' := (hpoint.of_keeps ht).of_keeps hstep.keeps
  have hlane : ∀ newest ∈ entries.bind fun names =>
      newestOf input.plugin input.installedVersion names, Stands input newest u := by
    intro newest hnew
    cases hstep with
    | throws => cases hnew
    | readdir =>
      rcases @newestOf_spec input.plugin input.installedVersion t.names with
        ⟨hnone, -⟩ | ⟨found, hfound, hoff, -⟩
      · rw [mem_def, bind_some, hnone] at hnew
        cases hnew
      · rw [mem_def, bind_some, hfound] at hnew
        cases hnew
        exact ⟨inLine_of_offers hoff, backed_of_offers hchann hoff⟩
  apply (reconcile_stands hpoint' hlane).seq
  intro served d hserv
  exact (withstands_stands _ hserv).seq fun _ _ h => h

lemma resolveActiveVersionDetailed_stands :
    (resolveActiveVersionDetailed input format options).Withstands FileStep Keeps
      (fun _ _ e => sees input.plugin e) (fun answer => Stands input answer.version)
      (fun _ => True) disk := by
  unfold resolveActiveVersionDetailed
  split_ifs with hplain
  · exact stands_installed
  · have hchann : input.channel = .stable := by
      by_contra h
      exact hplain (.inl h)
    apply (withstands_any _).seq
    intro pointed d _
    apply (honourPointer_stands hchann).seq
    intro pointer d hpoint
    exact afterPointer_stands hchann hpoint

variable {error : Text}

lemma writeBundles_stands {fetch : Fetch} {rest : List Fetch}
    (hstands : ∀ d : Disk, Listed input.plugin fetch.dest → fetch.dest ∈ d.names →
      Stands input version d) :
    (writeBundles (fetch :: rest)).Withstands FileStep Keeps (fun _ _ e => sees input.plugin e)
      (fun _ => Stands input version) (fun _ => True) disk := by
  unfold writeBundles
  apply (withstands_any _).seq
  intro found d _
  cases found with
  | false => trivial
  | true =>
    apply (withstands_any _).seq
    intro body d _
    have hwrite : (need (FileOp.writeFile fetch.dest body) : Program Unit).Withstands FileStep
        Keeps (fun _ _ e => sees input.plugin e) (fun _ => Stands input version)
        (fun _ => True) d := by
      intro t answer u _ hsees hstep
      cases hstep with
      | writeFile =>
        exact hstands _ hsees (AList.mem_keys.mp (JsMap.mem_set.mpr (.inl rfl)))
      | tearFile => trivial
      | throws => trivial
    apply hwrite.seq
    exact fun _ _ h => withstands_stands _ h

lemma ensureBundle_stands {target cacheDir : Text} (hchann : input.channel = .stable)
    (hrange : isInRange input.installedVersion target = true)
    (hnotOld : 0 ≤ compareSemver target input.installedVersion) :
    (ensureBundle ⟨input.plugin, target, cacheDir, none, input.channel⟩).Withstands FileStep
      Keeps (fun _ _ e => sees input.plugin e) (fun _ => Stands input target) (fun _ => True)
      disk := by
  unfold ensureBundle
  dsimp only
  split
  · next dest companionDests hdest _ =>
      have hstands : ∀ d : Disk, Listed input.plugin dest → dest ∈ d.names →
          Stands input target d := fun d hlist hmem =>
        ⟨⟨.inr hrange, hnotOld⟩, backed_of_bundle hchann hdest hlist hmem hrange hnotOld⟩
      have hcach : (isCached ⟨input.plugin, target, cacheDir, none, input.channel⟩ dest
          companionDests).Withstands FileStep Keeps (fun _ _ e => sees input.plugin e)
          (fun cached d => cached = true → Stands input target d) (fun _ => True) disk := by
        unfold isCached
        rw [if_neg (by simp [hchann])]
        intro t answer u _ hsees hstep
        cases hstep with
        | throws => trivial
        | present =>
          cases hhas : t.has (.cache dest) with
          | false =>
            intro hfalse
            cases hfalse
          | true =>
            rw [hhas] at hsees
            have hmain := hstands t hsees (mem_names_of_has hhas)
            exact (withstands_stands (allExist companionDests) hmain).mono
              (fun _ _ _ h => h) (fun _ _ h _ => h) (fun _ h => h)
      apply hcach.seq
      intro cached d hmain
      cases cached with
      | true => exact hmain rfl
      | false =>
        have hfetch : (fetchBundles ⟨input.plugin, target, cacheDir, none, input.channel⟩ dest
            ((companionBundlePlugins input.plugin).zip companionDests)).Withstands FileStep
            Keeps (fun _ _ e => sees input.plugin e) (fun _ => Stands input target)
            (fun _ => True) d := by
          unfold fetchBundles
          apply (withstands_any _).seq
          intro core d _
          apply (withstands_any _).seq
          intro root d _
          apply (withstands_any _).seq
          intro companionRoot d _
          exact writeBundles_stands hstands
        apply hfetch.seq
        intro _ d hstands
        exact (withstands_stands _ hstands).seq fun _ _ h => h
  · trivial

lemma adoptTarget_stands {target : Text} (hchann : input.channel = .stable)
    (hrange : isInRange input.installedVersion target = true)
    (hnotOld : 0 ≤ compareSemver target input.installedVersion) :
    (adoptTarget input format options target).Withstands FileStep Keeps
      (fun _ _ e => sees input.plugin e)
      (fun result d => ∀ version ∈ result.version, Stands input version d) (fun _ => True)
      disk := by
  unfold adoptTarget
  apply (ensureBundle_stands hchann hrange hnotOld).seq
  intro _ d hstands
  apply (withstands_stands _ hstands).seq
  intro _ d hstands
  apply (withstands_stands _ hstands).seq
  intro _ d hstands version hvers
  cases hvers
  exact hstands

lemma selectTarget_stands : (selectTarget input format options).Withstands FileStep Keeps
      (fun _ _ e => sees input.plugin e)
      (fun found d => Stands input found.1 d ∧ ∀ target ∈ found.2,
        isInRange input.installedVersion target = true ∧
          0 ≤ compareSemver target input.installedVersion) (fun _ => True) disk := by
  unfold selectTarget
  apply resolveActiveVersionDetailed_stands.seq
  intro current d hcurr
  apply (withstands_stands _ hcurr).seq
  intro candidate d hcurr
  refine ⟨hcurr, ?_⟩
  intro target htarg
  obtain ⟨found, -, hsel⟩ := bind_eq_some_iff.mp htarg
  unfold selectInRangeUpdate at hsel
  split_ifs at hsel with hchann hrange hnewer
  obtain rfl := some.inj hsel
  have hrange' : isInRange input.installedVersion found = true := by simpa using hrange
  refine ⟨hrange', ?_⟩
  obtain ⟨⟨installed, hinst⟩, -⟩ := parses_of_inRange hrange'
  by_contra holder
  have hle : compareSemver input.installedVersion current.version ≤ 0 := by
    rw [compareSemver_neg]
    have hnotOld := hcurr.1.notOlder
    omega
  exact hnewer (compareSemver_le_trans hinst (by omega) hle)

lemma backgroundSelfUpdate_stands :
    (backgroundSelfUpdate input format options error).Withstands FileStep Keeps
      (fun _ _ e => sees input.plugin e)
      (fun result d => ∀ version ∈ result.version, Stands input version d) (fun _ => True)
      disk := by
  unfold backgroundSelfUpdate
  split_ifs with hskipp
  · rintro _ ⟨⟩
  · have hchann : input.channel = .stable := by
      by_contra h
      exact hskipp (.inl h)
    refine @Withstands.caught_seq _ _ _ _ _ _ _ _ _ _ _
      (fun result d => ∀ version ∈ result.version, Stands input version d) (fun _ => True) _ _
      (selectTarget_stands.seq ?_)
      (fun result d (h : ∀ version ∈ result.version, Stands input version d) => h) ?_
    · rintro ⟨current, target⟩ d ⟨hcurr, htarg⟩
      cases target with
      | none =>
        apply (withstands_stands _ hcurr).seq
        intro _ d hcurr version hvers
        cases hvers
        exact hcurr
      | some target =>
        obtain ⟨hrange, hnotOld⟩ := htarg target rfl
        exact adoptTarget_stands hchann hrange hnotOld
    · intro d _
      apply (withstands_any _).seq
      rintro _ _ _ _ ⟨⟩

end

/-- Where no bundle was taken out, nothing that was offered is newer. -/
def Tops (input : ResolveInput) (since : Disk) (version : Text) (disk : Disk) : Prop :=
  disk.KeepsBundles input.plugin → ∀ other,
    Offers input.plugin input.installedVersion (since.names ++ since.lost) other →
      compareSemver other version ≤ 0

section
variable {input : ResolveInput} {disk since : Disk} {version : Text} {format : StatusFormat}
  {options : ResolveOptions}

lemma Tops.of_keeps {next : Disk} (h : Tops input since version disk)
    (hkeeps : Keeps disk next) : Tops input since version next :=
  fun hkept => h (hkept.of_keeps hkeeps)

lemma pointedVersion_keys : (pointedVersion input).Withstands FileStep Keeps
    (fun _ _ e => inOrder input e) (fun pointed _ => isCandidate input pointed = true →
      bundleFileName input.plugin pointed input.channel ≠ none) (fun _ => False) disk := by
  have hread : (do
      if ← need (FileOp.present (.cache (pointerFileName input.plugin))) then
        let body ← need (FileOp.readFile (.cache (pointerFileName input.plugin)))
        pure (readPointer body)
      else pure [] : Program Text).Withstands FileStep Keeps (fun _ _ e => inOrder input e)
      (fun pointed _ => isCandidate input pointed = true →
        bundleFileName input.plugin pointed input.channel ≠ none) (fun _ => True) disk := by
    apply (withstands_any _).seq
    intro found d _
    cases found with
    | false =>
      intro hcandidate
      cases hcandidate
    | true =>
      refine Withstands.seq ?_ (fun _ _ h => h)
      intro t body u _ hinOrd _
      cases body with
      | none => trivial
      | some body => exact hinOrd rfl
  apply hread.caught_seq
  · exact fun _ _ h => h
  · intro t _ hcandidate
    cases hcandidate

lemma honourPointer_resolves {pointed : Text} (hkeys : isCandidate input pointed = true →
      bundleFileName input.plugin pointed input.channel ≠ none) :
    (honourPointer input pointed).Withstands FileStep Keeps (fun _ _ e => inOrder input e)
      (fun _ _ => True) (fun _ => False) disk := by
  unfold honourPointer
  split_ifs with hcandidate
  · split
    · next hnone => exact hkeys hcandidate hnone
    · next name hname =>
        refine Withstands.seq ?_ (fun _ _ (_ : True) => trivial)
        intro t cached u _ hinOrd _
        cases cached with
        | none => exact hinOrd pointed name hname rfl
        | some cached => trivial
  · trivial

lemma swapPointer_resolves (h : Tops input since version disk) :
    (swapPointer input.plugin version).Withstands FileStep Keeps (fun _ _ e => inOrder input e)
      (fun _ => Tops input since version) (fun _ => False) disk := by
  unfold swapPointer
  have hwrite : (need (FileOp.writeFile (pointerTemp input.plugin version)
      (pointerContent version)) : Program Unit).Withstands FileStep Keeps
      (fun _ _ e => inOrder input e) (fun _ => Tops input since version) (fun _ => False)
      disk := by
    intro t answer u ht hinOrd hstep
    cases answer with
    | none => exact hinOrd
    | some => exact (h.of_keeps ht).of_keeps hstep.keeps
  apply hwrite.seq
  intro _ d hd t answer u ht hinOrd hstep
  cases answer with
  | none => exact hinOrd
  | some => exact (hd.of_keeps ht).of_keeps hstep.keeps

lemma readStateFile_resolves (h : Tops input since version disk) :
    (readStateFile format input.plugin).Withstands FileStep Keeps (fun _ _ e => inOrder input e)
      (fun _ => Tops input since version) (fun _ => False) disk := by
  have hkept := @withstands_lasting disk SelfUpdateState (fun _ e => inOrder input e)
    (Tops input since version) (fun _ _ hkeeps h => h.of_keeps hkeeps)
  exact (hkept _ h).caught_seq (fun _ _ h => h) (fun _ h => h)

/-- The newest bundle of the listing, or the pointer, is newer than all that is offered. -/
lemma reconcile_tops {served : Served} {lane : Option Text}
    (hserv : reconcileTo served lane = none → Tops input since served.version disk)
    (hlane : ∀ newest, reconcileTo served lane = some newest → Tops input since newest disk) :
    (reconcile input served lane).Withstands FileStep Keeps (fun _ _ e => inOrder input e)
      (fun served => Tops input since served.version) (fun _ => False) disk := by
  unfold reconcile
  split
  · next hnone => exact hserv hnone
  · next newest hnew =>
      exact (swapPointer_resolves (hlane newest hnew)).seq fun _ _ h => h

lemma afterListing_tops {pointer : Served} {lane : Option Text}
    (hpoint : reconcileTo pointer lane = none → Tops input since pointer.version disk)
    (hlane : ∀ newest, reconcileTo pointer lane = some newest → Tops input since newest disk) :
    (do
      let served ← reconcile input pointer lane
      let state ← readStateFile format input.plugin
      pure (describe options pointer served lane state) : Program Resolution).Withstands
        FileStep Keeps (fun _ _ e => inOrder input e)
        (fun answer => Tops input since answer.version) (fun _ => False) disk := by
  apply (reconcile_tops hpoint hlane).seq
  intro served d hserv
  exact (readStateFile_resolves hserv).seq fun _ _ h => h

lemma afterPointer_tops {pointer : Served} (hsince : Keeps since disk) :
    (afterPointer input format options pointer).Withstands FileStep Keeps
      (fun d p e => inOrder input e ∧ listsNewer input format options d p e)
      (fun answer => Tops input since answer.version) (fun _ => False) disk := by
  refine fun t entries u ht hguard hstep => ?_
  have hoff : u.KeepsBundles input.plugin → ∀ other,
      Offers input.plugin input.installedVersion (since.names ++ since.lost) other →
        Offers input.plugin input.installedVersion t.names other := by
    intro hkept other hoth
    exact offers_names (hkept.of_keeps hstep.keeps) ((hsince.trans ht).offers hoth)
  have htops : (reconcileTo pointer (entries.bind fun names =>
        newestOf input.plugin input.installedVersion names) = none →
          Tops input since pointer.version u) ∧
      ∀ newest, reconcileTo pointer (entries.bind fun names =>
        newestOf input.plugin input.installedVersion names) = some newest →
          Tops input since newest u := by
    cases hstep with
    | throws =>
      refine ⟨?_, by rintro _ ⟨⟩⟩
      intro _ hkept other hoth
      exact hguard.2 rfl pointer rfl other (hoff hkept other hoth)
    | readdir =>
      rcases @newestOf_spec input.plugin input.installedVersion t.names with
        ⟨hnone, hnot⟩ | ⟨found, hfound, hoffer, hnew⟩
      · rw [bind_some, hnone]
        refine ⟨?_, by rintro _ ⟨⟩⟩
        intro _ hkept other hoth
        exact absurd (hoff hkept other hoth) (hnot other)
      · obtain ⟨parsed, hpars⟩ := (parses_of_inRange hoffer.2.1).2
        rw [bind_some, hfound]
        constructor
        · intro hnone hkept other hoth
          have hle : compareSemver found pointer.version ≤ 0 := by
            simpa [reconcileTo, Option.filter] using hnone
          exact compareSemver_le_trans hpars
            (hnew other (hoff hkept other hoth)) hle
        · intro newest hsome hkept other hoth
          obtain rfl := some.inj (mem_filter_iff.mp hsome).1
          exact hnew other (hoff hkept other hoth)
  exact (afterListing_tops htops.1 htops.2).mono (fun _ _ _ h => h.1) (fun _ _ h => h)
    (fun _ h => h)

/-- In order, a resolution resolves, and to nothing older than what was offered when it
started. -/
lemma resolveActiveVersionDetailed_tops (hsince : Keeps since disk) :
    (resolveActiveVersionDetailed input format options).Withstands FileStep Keeps
      (fun d p e => inOrder input e ∧ listsNewer input format options d p e)
      (fun answer d => input.channel = .stable → Tops input since answer.version d)
      (fun _ => False) disk := by
  unfold resolveActiveVersionDetailed
  split_ifs with hplain
  · intro hchann hkept other hoth
    have hinst : input.installedVersion = [] := by
      rcases hplain with h | h
      · exact absurd hchann h
      · exact h
    obtain ⟨⟨installed, hparse⟩, -⟩ := parses_of_inRange hoth.2.1
    rw [hinst] at hparse
    cases hparse
  · apply Withstands.bind (fun _ _ e => inOrder input e) (fun _ _ _ _ h => h.1)
    have hkeeps := @withstands_lasting disk Text (fun _ e => inOrder input e) (Keeps since)
      (fun _ _ hkeeps h => h.trans hkeeps)
    apply (pointedVersion_keys.and (hkeeps _ hsince)).mono (fun _ _ _ h => h)
    · rintro pointed d ⟨hkeys, hsince⟩
      apply Withstands.bind (fun _ _ e => inOrder input e) (fun _ _ _ _ h => h.1)
      have hkeeps := @withstands_lasting d Served (fun _ e => inOrder input e) (Keeps since)
        (fun _ _ hkeeps h => h.trans hkeeps)
      apply ((honourPointer_resolves hkeys).and (hkeeps _ hsince)).mono (fun _ _ _ h => h)
      · rintro pointer e ⟨-, hsince⟩
        exact (afterPointer_tops hsince).mono (fun _ _ _ h => h) (fun _ _ h _ => h) (fun _ h => h)
      · exact fun _ h => h.1
    · exact fun _ h => h.1

end

def ResolveCall.Kept (format : StatusFormat) (call : ResolveCall) (disk : Disk) : Prop :=
  call.program.Withstands FileStep Keeps ((soundAnswer format).resolve call)
    (fun answer d => Stands call.input answer.version d ∧
      (d.KeepsBundles call.input.plugin → ∀ version ∈ call.before,
        0 ≤ compareSemver answer.version version)) (fun _ => False) disk

def UpdateCall.Kept (format : StatusFormat) (call : UpdateCall) (disk : Disk) : Prop :=
  call.program.Withstands FileStep Keeps ((soundAnswer format).update call)
    (fun result d => ∀ version ∈ result.version, Stands call.input version d)
    (fun _ => True) disk

structure Launchers.Kept (format : StatusFormat) (s : Launchers) : Prop where
  resolvers : ∀ id call, s.resolvers id = some call → call.Kept format s.disk
  updaters : ∀ id call, s.updaters id = some call → call.Kept format s.disk

section
variable {format : StatusFormat} {s t : Launchers} {disk next : Disk}

variable {call : ResolveCall} {id : ℕ}

lemma ResolveCall.Kept.of_keeps (h : call.Kept format disk)
    (hkeeps : Keeps disk next) : call.Kept format next := by
  unfold Kept at *
  refine Withstands.moved h hkeeps (fun _ _ _ => Keeps.trans) ?_ ?_
  · rintro answer d e hkeeps ⟨hstands, hmon⟩
    exact ⟨hstands.of_keeps hkeeps, fun hkept => hmon (hkept.of_keeps hkeeps)⟩
  · exact fun _ _ _ h => h

lemma UpdateCall.Kept.of_keeps {call : UpdateCall} (h : call.Kept format disk)
    (hkeeps : Keeps disk next) : call.Kept format next := by
  unfold Kept at *
  refine Withstands.moved h hkeeps (fun _ _ _ => Keeps.trans) ?_ ?_
  · exact fun result d e hkeeps h version hvers => (h version hvers).of_keeps hkeeps
  · exact fun _ _ _ h => h

lemma Backed.of_sameLine {a b : ResolveInput} {version : Text} (hline : a.SameLine b)
    (h : Backed a disk version) : Backed b disk version := by
  obtain ⟨hplug, hinst, hchann⟩ := hline
  unfold Backed at *
  rwa [← hplug, ← hinst, ← hchann]

lemma Launchers.Kept.answered (h : s.Kept format) {input : ResolveInput} {version : Text}
    (hansw : version ∈ s.answered input) : Backed input s.disk version := by
  rcases hansw with ⟨id, call, answer, hcall, hline, hdone, rfl⟩ |
    ⟨id, call, answer, hcall, hline, hdone, hvers⟩
  · have hkept := h.resolvers id call hcall
    rw [ResolveCall.Kept, hdone] at hkept
    exact hkept.1.2.of_sameLine hline
  · have hkept := h.updaters id call hcall
    rw [UpdateCall.Kept, hdone] at hkept
    exact (hkept version hvers).2.of_sameLine hline

lemma kept_callResolve {input : ResolveInput} {options : ResolveOptions} {before : Set Text}
    (hbef : ∀ version ∈ before, Backed input disk version) :
    (⟨input, options, before, resolveActiveVersionDetailed input format options⟩ :
      ResolveCall).Kept format disk := by
  have hstands := (@resolveActiveVersionDetailed_stands input disk format options).mono
    (fun d p e (h : (soundAnswer format).resolve ⟨input, options, before,
      resolveActiveVersionDetailed input format options⟩ d p e) => h.1)
    (fun _ _ h => h) (fun _ h => h)
  have htops := (@resolveActiveVersionDetailed_tops input disk disk format options
    (.refl disk)).mono (fun d p e (h : (soundAnswer format).resolve ⟨input, options, before,
      resolveActiveVersionDetailed input format options⟩ d p e) => h.2)
    (fun _ _ h => h) (fun _ h => h)
  apply (hstands.and htops).mono (fun _ _ _ h => h)
  · rintro answer d ⟨hstands, htops⟩
    refine ⟨hstands, ?_⟩
    intro hkept version hvers
    rcases hbef version hvers with hinst | ⟨hchann, offered, hparse, hoff⟩
    · exact hstands.1.of_installed hinst
    · have hle := htops hchann hkept offered hoff
      rw [compareSemver_congr hparse] at hle
      rw [compareSemver_neg]
      omega
  · exact fun _ h => h.2

lemma Launchers.Kept.setResolver (h : s.Kept format)
    (hcall : call.Kept format disk) (hkeeps : Keeps s.disk disk) :
    (s.setResolver id call disk).Kept format := by
  constructor
  · intro other found hfound
    rcases resolver_cases hfound with rfl | hfound
    · exact hcall
    · exact (h.resolvers other found hfound).of_keeps hkeeps
  · exact fun other found hfound => (h.updaters other found hfound).of_keeps hkeeps

lemma Launchers.Kept.setUpdater (h : s.Kept format) {call : UpdateCall}
    (hcall : call.Kept format disk) (hkeeps : Keeps s.disk disk) :
    (s.setUpdater id call disk).Kept format := by
  constructor
  · exact fun other found hfound => (h.resolvers other found hfound).of_keeps hkeeps
  · intro other found hfound
    rcases updater_cases hfound with rfl | hfound
    · exact hcall
    · exact (h.updaters other found hfound).of_keeps hkeeps

lemma Launchers.Kept.setDisk (h : s.Kept format) (hkeeps : Keeps s.disk disk) :
    ({ s with disk := disk } : Launchers).Kept format :=
  ⟨fun id call hcall => (h.resolvers id call hcall).of_keeps hkeeps,
    fun id call hcall => (h.updaters id call hcall).of_keeps hkeeps⟩

lemma Step.kept (h : Step format (soundAnswer format) s t) (hs : s.Kept format) :
    t.Kept format := by
  cases h with
  | callResolve id input options hfree =>
    apply hs.setResolver _ (.refl _)
    exact kept_callResolve fun version hvers => hs.answered hvers
  | callUpdate id input options error hfree =>
    exact hs.setUpdater backgroundSelfUpdate_stands (.refl _)
  | @resolver id call q next answer disk hcall hprogr hmay hstep =>
    refine hs.setResolver ?_ hstep.keeps
    have hkept := hs.resolvers id call hcall
    rw [ResolveCall.Kept, hprogr] at hkept
    rw [hprogr] at hmay
    exact hkept s.disk answer disk (.refl _) hmay hstep
  | @updater id call q next answer disk hcall hprogr hmay hstep =>
    refine hs.setUpdater ?_ hstep.keeps
    have hkept := hs.updaters id call hcall
    rw [UpdateCall.Kept, hprogr] at hkept
    rw [hprogr] at hmay
    exact hkept s.disk answer disk (.refl _) hmay hstep
  | begun name content written => exact hs.setDisk (.put _ _ _)
  | removed name => exact hs.setDisk (.remove _ _)

lemma Reaches.kept (h : Reaches format (soundAnswer format) s) : s.Kept format := by
  induction h with
  | start disk hlost =>
    constructor
    · rintro id call ⟨⟩
    · rintro id call ⟨⟩
  | step _ hstep ih => exact hstep.kept ih

lemma Reaches.alone {may : Answering} {p : Program Resolution}
    {trace : List (Exchange FileOp Answer)} (h : Reaches format may s)
    (hcall : s.resolvers id = some call) (hrest : call.program.rest trace = some p)
    (hleads : Leads FileStep s.disk trace disk)
    (hmay : ∀ e ∈ trace, ∀ q d, may.resolve { call with program := q } d q e) :
    ∃ t, Reaches format may t ∧ t.resolvers id = some { call with program := p } ∧
      t.disk = disk := by
  induction trace generalizing s call with
  | nil =>
    rw [rest_nil] at hrest
    cases hrest
    cases hleads
    exact ⟨s, h, hcall, rfl⟩
  | cons e trace ih =>
    cases hleads with
    | @cons _ d _ _ _ hstep hlat =>
      cases hprogr : call.program with
      | done value =>
        rw [hprogr] at hrest
        cases hrest
      | fail =>
        rw [hprogr] at hrest
        cases hrest
      | ask q next =>
        obtain ⟨question, answer⟩ := e
        rw [hprogr, rest] at hrest
        split_ifs at hrest with hq
        subst hq
        have hmayF := hmay _ List.mem_cons_self call.program s.disk
        have hreach := h.step (.resolver hcall hprogr hmayF hstep)
        have hset : (s.setResolver id { call with program := next answer } d).resolvers id =
            some { call with program := next answer } := Function.update_self ..
        have hrun := ih hreach hset hrest hlat
          fun e he => hmay e (List.mem_cons_of_mem _ he)
        exact hrun

lemma listed_of_not_suffix {plugin name : Text} (h : ¬ bundleSuffix <:+ name) :
    Listed plugin name := by
  intro version hname
  refine absurd ?_ h
  rw [bundleFileName, if_neg (by decide)] at hname
  split_ifs at hname
  cases hname
  exact List.suffix_append _ _

/-- Where the operations are in order, no resolution is rejected, and each answers a version
in line that is not older than what was answered before it started. -/
theorem resolutions_serve (h : Reaches format (soundAnswer format) s) {id : ℕ}
    {call : ResolveCall} (hcall : s.resolvers id = some call) : Resolves call s.disk := by
  have hkept := h.kept.resolvers id call hcall
  unfold ResolveCall.Kept at hkept
  constructor
  · intro hfail
    rw [hfail] at hkept
    exact hkept
  · intro answer hdone
    rw [hdone] at hkept
    exact hkept.1.1
  · intro answer hdone
    rw [hdone] at hkept
    exact hkept.2

def newerBundle : Disk where
  files := (∅ : JsMap Text File).set "p-1.2.0.bundle.min.mjs".toList ⟨[], true⟩
  packages := fun _ _ => none
  lost := []

def pluginLine : ResolveInput := ⟨"p".toList, "1.0.0".toList, "/cache".toList, .stable⟩

def plainFormat : StatusFormat := ⟨fun _ => .empty, fun _ => []⟩

def startedCall : ResolveCall where
  input := pluginLine
  options := ⟨0, 0⟩
  before := Launchers.answered ⟨newerBundle, fun _ => none, fun _ => none⟩ pluginLine
  program := resolveActiveVersionDetailed pluginLine plainFormat ⟨0, 0⟩

def started : Launchers :=
  Launchers.setResolver ⟨newerBundle, fun _ => none, fun _ => none⟩ 0 startedCall newerBundle

lemma reaches_started (may : Answering) : Reaches plainFormat may started :=
  (Reaches.start newerBundle rfl).step (.callResolve _ 0 pluginLine ⟨0, 0⟩ rfl)

lemma started_call : started.resolvers 0 = some startedCall := rfl

/-- The pointer is moved to the newer bundle, up to the answer to the rename. -/
def promotion (renamed : Option Unit) : List (Exchange FileOp Answer) :=
  [⟨.present (.cache (pointerFileName "p".toList)), some false⟩,
    ⟨.readdir, some ["p-1.2.0.bundle.min.mjs".toList]⟩,
    ⟨.writeFile (pointerTemp "p".toList "1.2.0".toList) (pointerContent "1.2.0".toList), some ()⟩,
    ⟨.rename (pointerTemp "p".toList "1.2.0".toList) (pointerFileName "p".toList), renamed⟩]

def withStatus : List (Exchange FileOp Answer) :=
  promotion (some ()) ++ [⟨.present (.cache (statusFileName "p".toList)), some false⟩]

/-- The rename of the pointer fails, and the resolution is rejected. -/
theorem failed_rename_rejects : ¬ ∀ (format : StatusFormat) (s : Launchers),
    Reaches format anyAnswer s → ∀ id call, s.resolvers id = some call → Resolves call s.disk := by
  intro hall
  have hrest : startedCall.program.rest (promotion none) = some .fail := rfl
  have hleads : Leads FileStep started.disk (promotion none)
      (newerBundle.put (pointerTemp "p".toList "1.2.0".toList)
        ⟨pointerContent "1.2.0".toList, true⟩) :=
    .cons (.present _ _) (.cons (.readdir _) (.cons (.writeFile _ _ _)
      (.cons (.throws _ _) (.nil _))))
  obtain ⟨s, hs, hcall, -⟩ := (reaches_started anyAnswer).alone started_call hrest hleads
    fun _ _ _ _ => trivial
  exact (hall _ s hs 0 _ hcall).notRejected rfl

lemma withStatus_sound : ∀ e ∈ withStatus, ∀ (q : Program Resolution) (d : Disk),
    (soundAnswer plainFormat).resolve { startedCall with program := q } d q e := by
  intro e he q d
  simp only [withStatus, promotion, List.cons_append, List.nil_append, List.mem_cons,
    List.not_mem_nil, or_false] at he
  rcases he with rfl | rfl | rfl | rfl | rfl
  · exact ⟨trivial, trivial, by rintro ⟨⟩⟩
  · exact ⟨trivial, trivial, by rintro ⟨⟩⟩
  · exact ⟨listed_of_not_suffix (by decide), trivial, by rintro ⟨⟩⟩
  · exact ⟨trivial, trivial, by rintro ⟨⟩⟩
  · exact ⟨trivial, trivial, by rintro ⟨⟩⟩

theorem promotion_serves : ∃ s call answer, Reaches plainFormat (soundAnswer plainFormat) s ∧
    s.resolvers 0 = some call ∧ call.program = .done answer ∧ answer.version = "1.2.0".toList ∧
      Resolves call s.disk := by
  obtain ⟨answer, hrest, hvers⟩ : ∃ answer : Resolution,
      startedCall.program.rest withStatus = some (.done answer) ∧
        answer.version = "1.2.0".toList := ⟨_, rfl, rfl⟩
  have hleads : Leads FileStep started.disk withStatus _ :=
    .cons (.present _ _) (.cons (.readdir _) (.cons (.writeFile _ _ _)
      (.cons (.rename _ _ _ _ rfl) (.cons (.present _ _) (.nil _)))))
  obtain ⟨s, hs, hcall, -⟩ := (reaches_started (soundAnswer plainFormat)).alone started_call
    hrest hleads withStatus_sound
  exact ⟨s, _, answer, hs, hcall, rfl, hvers, resolutions_serve hs hcall⟩

end
end Redskilled.Update
