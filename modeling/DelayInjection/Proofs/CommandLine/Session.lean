import DelayInjection.Proofs.CommandLine.Steps
import DelayInjection.Proofs.Project.State
import DelayInjection.Proofs.Seed

/-! Commands that follow one another on one project. After each of them the project is clean, or the
last injection has marked it. -/

namespace DelayInjection

open Disk (Node Path)
open Disk.Node (overlayIn)
open Discovery (fileOf)
open Text.Utf8 (Bytes encode)

namespace Surroundings

variable (s : Surroundings)

/-- What an injection comes down to. -/
def planOf (config : Config) (a : InjectArguments) : Except Failure Plan := do
  let config ← config.merge (overrides a)
  let seed ← Seed.parse s.picked (.str a.seed)
  let profile ← Profile.ofConfig config
  .ok ⟨profile, seed, included a.globs config, excluded config⟩

variable {s} {w w' : World}

/-! ## Plans -/

theorem isValid_of_planOf (hpicked : IsShort s.picked) {config : Config} {a : InjectArguments}
    {plan : Plan} (h : s.planOf config a = .ok plan) : plan.IsValid := by
  unfold planOf at h
  cases hmerged : config.merge (overrides a) with
  | error e => rw [hmerged] at h; cases h
  | ok merged =>
    cases hseed : Seed.parse s.picked (.str a.seed) with
    | error e => rw [hmerged, hseed] at h; cases h
    | ok seed =>
      cases hprofile : Profile.ofConfig merged with
      | error e => rw [hmerged, hseed] at h; simp [bind, Except.bind, hprofile] at h
      | ok profile =>
        rw [hmerged, hseed] at h
        simp only [bind, Except.bind, hprofile] at h
        cases h
        obtain ⟨hmode, hlow, hle⟩ := Profile.of_ofConfig_eq_ok hprofile
        exact ⟨hmode, hlow, hle, Seed.isShort_of_parse hpicked hseed⟩

/-- Once it is known what an injection comes down to, what is left depends on the ledger. -/
theorem inject_eq {config : Config} {a : InjectArguments} {root : Path} (hroot : s.Names a.root root)
    (hconfig : Settings.load root w = .ok config w') :
    s.inject a w = match s.planOf config a with
      | .error failure => .error failure w'
      | .ok plan => (do
        let goesOn ← match ← Ledger.load s.now root with
          | some existing => s.clear root existing a.yes
          | none => pure true
        if goesOn then s.injectInto root plan.profile plan.seed plan.included plan.excluded
        else return 1) w' := by
  rw [inject, Run.bind_of_eq_ok (resolve_eq_ok hroot), Run.bind_of_eq_ok hconfig, Run.ofExcept_bind, planOf]
  cases config.merge (overrides a) with
  | error e => rfl
  | ok merged =>
    dsimp only
    rw [Run.ofExcept_bind]
    cases hseed : Seed.parse s.picked (.str a.seed) with
    | error e => rfl
    | ok seed =>
      dsimp only
      rw [Run.ofExcept_bind]
      change _ = match (Profile.ofConfig merged >>= fun profile => Except.ok (Plan.mk profile seed _ _)) with
        | .error failure => _
        | .ok plan => _
      cases hprofile : Profile.ofConfig merged with
      | error e => rfl
      | ok profile => rfl

end Surroundings

/-- The project is clean, or marked by the last injection. -/
def Holds (last : Option Plan) (d : Disk) (above : List String) (entries : List (String × Node))
    (disk : Disk) : Prop :=
  IsClean d above entries disk ∨ ∃ plan is modules m, last = some plan ∧
    IsMarked plan d above entries disk is modules m

/-- Files that patterns reach hold nothing that looks injected. -/
def ReachesClean (d : Disk) (root : Path) (included excluded : Json) : Prop :=
  ∀ files, Discovery.discover d root included excluded = .ok files → ∀ file ∈ files, ∀ a source,
    Program.registry.forFile file = some a →
    Run.textAt (root.join (Path.ofText file)) d = .ok source → a.scan source = []

/-- Settings are no files that injection writes. -/
theorem Program.forFile_fileNames : ∀ name ∈ Config.fileNames, Program.registry.forFile name = none := by
  decide +kernel

section Project

variable {d : Disk} {root : Path} {above : List String} {entries : List (String × Node)}
  (h : IsFresh d root above entries) {last : Option Plan} {w w' : World}

include h

theorem settings_overlaid {others : List (String × Node)} {content : List String → Bytes → Bytes}
    (hcontent : ∀ name ∈ Config.fileNames, ∀ bytes, entries.lookup name = some (.file bytes) →
      content [name] bytes = bytes)
    (hothers : ∀ e ∈ others, e.1 ∉ Config.fileNames) {config : Config}
    (hconfig : ∃ w₁, Settings.load root { disk := d } = .ok config w₁)
    (hw : w.disk = d.overlaid above content entries others) :
    ∃ w₁, Settings.load root w = .ok config w₁ ∧ w₁.disk = w.disk := by
  obtain ⟨w₁, hrun⟩ := hconfig
  refine Settings.load_overlaid h.toIsProject hcontent (fun name hname => ?_) rfl hrun hw
  rw [List.lookup_eq_none_iff]
  intro e he
  simpa using fun heq : name = e.1 => hothers e he (heq ▸ hname)

omit h in
/-- Nothing that injection puts beside the entries of a project is read as settings. -/
theorem IsMarked.not_mem_fileNames {plan : Plan} {disk : Disk} {is : List Injected}
    {modules : List Adapter} {m : Manifest} (hmarked : IsMarked plan d above entries disk is modules m)
    {kept : List (String × Node)} (hbehind : IsMarked.Behind modules m kept) :
    ∀ e ∈ kept, e.1 ∉ Config.fileNames := by
  have hstate : stateFolder ∉ Config.fileNames := by decide
  have hmodule : ∀ a ∈ modules, a.moduleName ∉ Config.fileNames := by
    intro a ha
    obtain ⟨e, he, rfl⟩ := List.mem_map.mp (hmarked.mem_registry a ha)
    rcases Program.mem_registry he with hname | hname <;> rw [hname] <;> decide
  intro e he
  rcases hbehind.module e he with rfl | ⟨a, ha, rfl⟩
  · exact hstate
  · exact hmodule a ha

theorem settings_of_holds (hholds : Holds last d above entries w.disk) {config : Config}
    (hconfig : ∃ w₁, Settings.load root { disk := d } = .ok config w₁) :
    ∃ w₁, Settings.load root w = .ok config w₁ ∧ w₁.disk = w.disk := by
  rcases hholds with ⟨kept, hkept, hw⟩ | ⟨plan, is, modules, m, -, hmarked⟩
  · refine settings_overlaid h (fun _ _ _ _ => rfl) ?_ hconfig hw
    rcases hkept with rfl | rfl
    · simp
    · intro e he
      rw [List.mem_singleton.mp he]
      decide
  · obtain ⟨kept, hbehind, hw⟩ := hmarked.exists_behind
    obtain ⟨now, f, hrecords⟩ := hmarked.records
    refine settings_overlaid h (fun name hname bytes hlookup => ?_)
      (hmarked.not_mem_fileNames hbehind) hconfig hw
    refine Injected.contentOf_of_not_mem (fun hmem => ?_) bytes
    obtain ⟨i, hi, hname'⟩ := List.mem_map.mp hmem
    have hfile := (hrecords.arises i hi).forFile
    rw [Injected.file, hname', fileOf, Disk.slashed_singleton, String.ofList_toList,
      Program.forFile_fileNames name hname] at hfile
    cases hfile

/-! ## Injection -/

omit h in
theorem yields_summary (plan : Plan) (p : Injecting.Progress) : Run.Yields (do
    Run.print ("[+] Injected " ++ toString p.manifest.totalPoints ++ " delays into " ++
      toString p.manifest.files.length ++ " file(s)")
    Run.print ("Mode: " ++ plan.profile.mode ++ " | Seed: " ++ toString plan.seed)
    if !p.skipped.isEmpty then
      Run.warn ("[!] " ++ toString p.skipped.length ++ " file(s) skipped, see warnings above.")
    return 0) 0 := by
  refine Run.yields_bind (Run.yields_print _) (Run.yields_bind (Run.yields_print _) ?_)
  split
  · exact Run.yields_bind (Run.yields_warn _) (Run.yields_pure 0)
  · exact Run.yields_pure 0

section Inject

variable {s : Surroundings} (hregistry : s.registry = Program.registry)

include hregistry

omit h in
theorem injectInto_of_saved {plan : Plan} {p : Injecting.Progress} {path : Path} {w₀ w₁ w₂ : World}
    (hwarned : Run.warn ("[*] Injecting into " ++ root.text ++ " ...") w = .ok () w₀)
    (hrun : Injecting.injectAll Program.registry plan.profile s.now root plan.included plan.excluded
      plan.seed w₀ = .ok p w₁)
    (hfiles : p.manifest.files.isEmpty = false)
    (hsaved : Ledger.save root p.manifest w₁ = .ok path w₂) :
    ∃ w', s.injectInto root plan.profile plan.seed plan.included plan.excluded w = .ok 0 w' ∧
      w'.disk = w₂.disk := by
  obtain ⟨w', hend, hw'⟩ := yields_summary plan p w₂
  refine ⟨w', ?_, hw'⟩
  rw [Surroundings.injectInto, hregistry, Run.bind_of_eq_ok hwarned, Run.bind_of_eq_ok hrun]
  simp only [hfiles, Bool.false_eq_true, if_false]
  exact (Run.bind_of_eq_ok hsaved).trans hend

theorem injectInto_of_isClean {plan : Plan} (hvalid : plan.IsValid) (hsuits : plan.Suits d root)
    (hclean : IsClean d above entries w.disk) :
    (∃ e w', s.injectInto root plan.profile plan.seed plan.included plan.excluded w = .error e w' ∧
      IsClean d above entries w'.disk) ∨
    ∃ w', s.injectInto root plan.profile plan.seed plan.included plan.excluded w = .ok 0 w' ∧
      Holds (some plan) d above entries w'.disk := by
  rw [Surroundings.injectInto, hregistry]
  obtain ⟨w₁, hwarned, hw₁⟩ := Run.yields_warn ("[*] Injecting into " ++ root.text ++ " ...") w
  rw [← hw₁] at hclean
  rcases injectAll_of_isClean h hvalid hsuits hclean s.now with ⟨e, hrun⟩ |
    ⟨p, w₂, hrun, hempty, hsome⟩
  · exact .inl ⟨e, w₁, (Run.bind_of_eq_ok hwarned).trans (Run.bind_of_eq_error hrun), hclean⟩
  · right
    cases hfiles : p.manifest.files.isEmpty with
    | true =>
      obtain ⟨w', hend, hw'⟩ := Run.yields_bind (f := fun _ => pure 0)
        (Run.yields_print "[~] No injection points found. Nothing was modified.")
        (Run.yields_pure 0) w₂
      refine ⟨w', (Run.bind_of_eq_ok hwarned).trans ((Run.bind_of_eq_ok hrun).trans ?_),
        .inl (hw' ▸ hempty hfiles)⟩
      simp only [hfiles, if_true]
      exact hend
    | false =>
      obtain ⟨path, w₃, is, modules, hsaved, hmarked⟩ := hsome hfiles
      obtain ⟨w', hend, hw'⟩ := injectInto_of_saved hregistry hwarned hrun hfiles hsaved
      rw [Surroundings.injectInto, hregistry] at hend
      exact ⟨w', hend, .inr ⟨plan, is, modules, p.manifest, rfl, hw' ▸ hmarked⟩⟩

/-- An injection into a clean project fails and leaves it clean, or ends well and marks it. -/
theorem inject_of_isClean (hpicked : IsShort s.picked) {config : Config}
    (hconfig : ∃ w₁, Settings.load root { disk := d } = .ok config w₁) {a : InjectArguments}
    (hroot : s.Names a.root root)
    (hsuits : ∀ plan, s.planOf config a = .ok plan → plan.Suits d root)
    (hclean : IsClean d above entries w.disk) :
    (∃ e w', s.inject a w = .error e w' ∧ IsClean d above entries w'.disk) ∨
    ∃ plan w', s.planOf config a = .ok plan ∧ s.inject a w = .ok 0 w' ∧
      Holds (some plan) d above entries w'.disk := by
  obtain ⟨w₁, hsettings, hw₁⟩ := settings_of_holds h (.inl hclean : Holds none _ _ _ _) hconfig
  rw [← hw₁] at hclean
  rw [Surroundings.inject_eq hroot hsettings]
  cases hplan : s.planOf config a with
  | error e => exact .inl ⟨e, w₁, rfl, hclean⟩
  | ok plan =>
    dsimp only
    rw [Run.bind_of_eq_ok (hclean.load h s.now)]
    rcases injectInto_of_isClean h hregistry (Surroundings.isValid_of_planOf hpicked hplan)
      (hsuits plan hplan) hclean with ⟨e, w', hrun, hclean'⟩ | ⟨w', hrun, hholds'⟩
    · exact .inl ⟨e, w', hrun, hclean'⟩
    · exact .inr ⟨plan, w', rfl, hrun, hholds'⟩

/-- An earlier injection is taken back if the user agreed beforehand. -/
theorem clear_of_isMarked {plan : Plan} {is : List Injected} {modules : List Adapter} {m : Manifest}
    (hmarked : IsMarked plan d above entries w.disk is modules m) :
    ∃ w', s.clear root m true w = .ok true w' ∧ IsClean d above entries w'.disk := by
  obtain ⟨w₁, hprinted, hw₁⟩ := Run.yields_print ("[~] Active injection detected (seed: " ++
    m.seed.plainText ++ ", mode: " ++ m.mode.plainText ++ ", injected at: " ++
    m.createdAt.plainText ++ ").") w
  rw [← hw₁] at hmarked
  obtain ⟨summary, w₂, w₃, hrestored, hdeleted, hclean⟩ := hmarked.restore h
  obtain ⟨w', hend, hw'⟩ := Run.yields_bind (f := fun _ => pure true)
    (Run.yields_print "[+] Previous injections removed. Proceeding with fresh injection.\n")
    (Run.yields_pure true) w₃
  refine ⟨w', ?_, hw' ▸ hclean⟩
  rw [Surroundings.clear, hregistry, Run.bind_of_eq_ok hprinted]
  exact (Run.bind_of_eq_ok hrestored).trans ((Run.bind_of_eq_ok hdeleted).trans hend)

/-- An injection that the user agreed to beforehand fails and leaves the project clean or marked as it
was, or ends well and marks it by its own plan. -/
theorem inject_of_holds (hpicked : IsShort s.picked) {config : Config}
    (hconfig : ∃ w₁, Settings.load root { disk := d } = .ok config w₁) {a : InjectArguments}
    (hroot : s.Names a.root root) (hyes : a.yes = true)
    (hsuits : ∀ plan, s.planOf config a = .ok plan → plan.Suits d root)
    (hholds : Holds last d above entries w.disk) :
    (∃ e w', s.inject a w = .error e w' ∧ Holds last d above entries w'.disk) ∨
    ∃ plan w', s.planOf config a = .ok plan ∧ s.inject a w = .ok 0 w' ∧
      Holds (some plan) d above entries w'.disk := by
  rcases hholds with hclean | ⟨plan', is, modules, m, hlast, hmarked⟩
  · exact (inject_of_isClean h hregistry hpicked hconfig hroot hsuits hclean).imp_left
      fun ⟨e, w', hrun, hclean'⟩ => ⟨e, w', hrun, .inl hclean'⟩
  · obtain ⟨w₁, hsettings, hw₁⟩ :=
      settings_of_holds h (.inr ⟨plan', is, modules, m, hlast, hmarked⟩) hconfig
    rw [← hw₁] at hmarked
    rw [Surroundings.inject_eq hroot hsettings, hyes]
    cases hplan : s.planOf config a with
    | error e => exact .inl ⟨e, w₁, rfl, .inr ⟨plan', is, modules, m, hlast, hmarked⟩⟩
    | ok plan =>
      -- the earlier injection is taken back, and the new one starts from a clean project
      obtain ⟨w₂, hcleared, hclean⟩ := clear_of_isMarked h hregistry hmarked
      dsimp only
      rw [Run.bind_of_eq_ok (hmarked.load h s.now)]
      dsimp only
      rw [Run.bind_of_eq_ok hcleared]
      rcases injectInto_of_isClean h hregistry (Surroundings.isValid_of_planOf hpicked hplan)
        (hsuits plan hplan) hclean with ⟨e, w', hrun, hclean'⟩ | ⟨w', hrun, hholds'⟩
      · exact .inl ⟨e, w', hrun, .inl hclean'⟩
      · exact .inr ⟨plan, w', rfl, hrun, hholds'⟩

end Inject

/-! ## Restoration -/

section Restore

variable {s : Surroundings} (hregistry : s.registry = Program.registry) {config : Config}
  (hconfig : ∃ w₁, Settings.load root { disk := d } = .ok config w₁)

omit h in
/-- A listing reads all files of the project that records name. -/
theorem scanListed_eq_ok {registry : Registry} (h : IsProject d root above entries)
    {content : List String → Bytes → Bytes} {others : List (String × Node)}
    {files : List (String × FileRecord)}
    (hfiles : ∀ f ∈ files, Restoring.NamesAdapter registry f.2 ∧ ∃ names bytes,
      (Node.folder entries).at? names = some (.file bytes) ∧ f.1 = fileOf names)
    (hw : w.disk = d.overlaid above content entries others) :
    ∃ scans, Restoring.scanListed registry root files w = .ok scans w := by
  induction files with
  | nil => exact ⟨[], rfl⟩
  | cons f files ih =>
    obtain ⟨scans, hrest⟩ := ih fun f hf => hfiles f (List.mem_cons_of_mem _ hf)
    obtain ⟨⟨a, ha⟩, names, bytes, hat, hname⟩ := hfiles f List.mem_cons_self
    obtain ⟨first, hfirst⟩ : ∃ first, Restoring.scanFile a root f.1 w = .ok first w := by
      rw [hname]
      have htext := Restoring.textOf?_eq_ok h hat hw
      cases hdecode : Text.Utf8.decode (content names bytes) with
      | error e =>
        rw [hdecode] at htext
        exact ⟨_, (Run.bind_of_eq_ok htext).trans rfl⟩
      | ok text =>
        rw [hdecode] at htext
        exact ⟨_, (Run.bind_of_eq_ok htext).trans rfl⟩
    refine ⟨first ++ scans, ?_⟩
    have hscanner := Restoring.scannerOf_of_adapterOf f.1 ha
    refine (Run.bind_of_eq_ok (Run.ofExcept_eq_ok.mpr ⟨hscanner, rfl⟩)).trans ?_
    exact (Run.bind_of_eq_ok hfirst).trans ((Run.bind_of_eq_ok hrest).trans rfl)

omit h hregistry in
include hconfig in
/-- Settings that are valid by themselves are valid with the mode of the ledger. -/
theorem ofConfig_mode {profile : Profile} (hprofile : Profile.ofConfig config = .ok profile)
    {plan : Plan} {is : List Injected} {modules : List Adapter} {m : Manifest} {disk : Disk}
    (hmarked : IsMarked plan d above entries disk is modules m) :
    Profile.ofConfig (config.overlay [("mode", m.mode)]) =
      .ok { profile with mode := plan.profile.mode } := by
  obtain ⟨w₁, hsettings⟩ := hconfig
  obtain ⟨now, f, hrecords⟩ := hmarked.records
  have hmode : m.mode = .str plan.profile.mode := by rw [hrecords.manifest]; rfl
  rw [hmode]
  exact Profile.ofConfig_overlay_mode (Settings.nodup_of_loadFrom hsettings) hprofile hmarked.mode

include hregistry

theorem restoreListed_of_isMarked {plan : Plan} {is : List Injected} {modules : List Adapter}
    {m : Manifest} (hmarked : IsMarked plan d above entries w.disk is modules m) :
    ∃ w', s.restoreListed root m w = .ok 0 w' ∧ IsClean d above entries w'.disk := by
  obtain ⟨summary, w₁, w₂, hrestored, hdeleted, hclean⟩ := hmarked.restore h
  obtain ⟨w', hrun, hdisk⟩ := Surroundings.restoreListed_eq_ok (hregistry ▸ hrestored) hdeleted
  exact ⟨w', hrun, hdisk ▸ hclean⟩

section Clean

variable (hclean : IsClean d above entries w.disk) {included excluded : Json}
  (hreached : ReachesClean d root included excluded)

include hclean hreached

/-- Patterns find nothing in a clean project. -/
theorem scanByGlobs_of_isClean :
    (∃ e, Restoring.scanByGlobs s.registry root included excluded w = .error e w) ∨
      Restoring.scanByGlobs s.registry root included excluded w = .ok [] w := by
  obtain ⟨kept, hkept, hw⟩ := hclean
  have hdiscover := h.discover_kept hw (unselected_kept hkept) included excluded
  have hget : (get : Run World) w = .ok w w := rfl
  rw [Restoring.scanByGlobs, Restoring.scanByGlobsUnless, Run.bind_of_eq_ok hget, Run.ofExcept_bind,
    hdiscover, hregistry]
  cases hfilter : Discovery.filterOf included excluded with
  | error e => exact .inl ⟨e, rfl⟩
  | ok f =>
    refine .inr ?_
    have hfiles : Discovery.discover d root included excluded = .ok (Discovery.found f entries) := by
      rw [Discovery.discover_eq, hfilter, h.entriesAt]
      rfl
    have hnothing : ∀ file ∈ Discovery.found f entries,
        Restoring.scanOf Program.registry root w.disk file = [] := by
      intro file hfile
      obtain ⟨names, bytes, hat, rfl⟩ := h.exists_names_of_found file hfile
      rw [Restoring.scanOf, hw, h.textAt hat, ← h.textAt_self hat]
      split
      next a text hadapter htext =>
        rw [hreached _ hfiles _ hfile a text hadapter htext]
        rfl
      next => rfl
    refine (Restoring.scanFound_eq_ok h.toIsProject
      (fun file hfile => .inr (h.exists_names_of_found file hfile)) hw).trans ?_
    rw [List.flatMap_eq_nil_iff.mpr hnothing]

/-- Recovery by patterns leaves a clean project as it is. -/
theorem recoverByGlobs_of_isClean (a : RestoreArguments)
    (hincluded : included = Surroundings.included a.globs config)
    (hexcluded : excluded = Surroundings.excluded config) :
    (Run.left (s.recoverByGlobs a config root) w).disk = w.disk := by
  unfold Surroundings.recoverByGlobs
  cases hprofile : Profile.ofConfig config with
  | error e => rfl
  | ok profile =>
    obtain ⟨w₁, hprinted, hw₁⟩ :=
      Run.yields_print "[*] No manifest found, scanning by glob for injected lines..." w
    rw [← hw₁] at hclean
    rw [Run.left_bind_of_eq_ok (Run.ofExcept_eq_ok.mpr ⟨rfl, rfl⟩), Run.left_bind_of_eq_ok hprinted]
    rcases scanByGlobs_of_isClean h hregistry hclean hreached with ⟨e, hscan⟩ | hscan
    · rw [hincluded, hexcluded] at hscan
      rw [Run.left_bind_of_eq_error hscan, hw₁]
    · rw [hincluded, hexcluded] at hscan
      rw [Run.left_bind_of_eq_ok hscan, ← hw₁]
      exact Run.keeps_of_yields Surroundings.yields_nothingFound w₁

end Clean

include hconfig

/-- Restoration without a scan takes back what was injected. -/
theorem restore_of_holds {profile : Profile} (hprofile : Profile.ofConfig config = .ok profile)
    {a : RestoreArguments} (hroot : s.Names a.root root) (hfolder : a.folder.isEmpty = true)
    (hplain : a.recover = false) (hholds : Holds last d above entries w.disk) :
    ∃ w', s.restore a w = .ok 0 w' ∧ IsClean d above entries w'.disk := by
  obtain ⟨w₁, hsettings, hw₁⟩ := settings_of_holds h hholds hconfig
  rw [← hw₁] at hholds
  rcases hholds with hclean | ⟨plan, is, modules, m, -, hmarked⟩
  · rw [Surroundings.restore_eq hroot hfolder hsettings, Run.bind_of_eq_ok (hclean.load h s.now)]
    simp only [hplain, Bool.false_eq_true, if_false]
    obtain ⟨w', hrun, hw'⟩ := Run.yields_bind (f := fun _ => _)
      (Run.yields_print "No manifest found. Nothing to restore.")
      (Run.yields_bind (f := fun _ => pure 0)
        (Run.yields_print ("Looked in: " ++ (Ledger.folder root).text)) (Run.yields_pure 0)) w₁
    exact ⟨w', hrun, hw' ▸ hclean⟩
  · rw [Surroundings.restore_of_ledger hroot hfolder hplain hsettings (hmarked.load h s.now),
      ofConfig_mode hconfig hprofile hmarked]
    exact restoreListed_of_isMarked h hregistry hmarked

/-- Recovery takes back what was injected, or it leaves the project as it is. -/
theorem recover_of_holds {profile : Profile} (hprofile : Profile.ofConfig config = .ok profile)
    {a : RestoreArguments} (hroot : s.Names a.root root) (hfolder : a.folder.isEmpty = true)
    (hrecover : a.recover = true) (hyes : a.yes = true)
    (hreached : ReachesClean d root (Surroundings.included a.globs config) (Surroundings.excluded config))
    (hholds : Holds last d above entries w.disk) :
    Holds last d above entries (Run.left (s.restore a) w).disk := by
  obtain ⟨w₁, hsettings, hw₁⟩ := settings_of_holds h hholds hconfig
  rw [← hw₁] at hholds
  rw [Run.left, Surroundings.restore_eq hroot hfolder hsettings, ← Run.left]
  rcases hholds with hclean | ⟨plan, is, modules, m, hlast, hmarked⟩
  · rw [Run.left_bind_of_eq_ok (hclean.load h s.now)]
    simp only [hrecover, if_true]
    rw [recoverByGlobs_of_isClean h hregistry hclean hreached a rfl rfl]
    exact .inl hclean
  · rw [Run.left_bind_of_eq_ok (hmarked.load h s.now)]
    simp only [hrecover, if_true]
    rw [Run.left_bind_of_eq_ok (Run.ofExcept_eq_ok.mpr ⟨ofConfig_mode hconfig hprofile hmarked, rfl⟩)]
    obtain ⟨w₂, hprinted, hw₂⟩ :=
      Run.yields_print "[*] Recovery mode: scanning for injected lines..." w₁
    rw [← hw₂] at hmarked
    obtain ⟨now, f, hrecords⟩ := hmarked.records
    obtain ⟨kept, -, hw⟩ := hmarked.exists_behind
    obtain ⟨scans, hscanned⟩ : ∃ scans, Restoring.scanAll s.registry root m w₂ = .ok scans w₂ := by
      refine scanListed_eq_ok h.toIsProject (fun e he => ?_) hw
      rw [hrecords.manifest] at he
      obtain ⟨i, hi, rfl⟩ := List.mem_map.mp he
      have harises := hrecords.arises i hi
      refine ⟨⟨i.adapter, congrArg Except.ok ?_⟩, i.names, _, harises.at_eq, rfl⟩
      rw [hregistry]
      exact Program.consistent_registry.get i.adapter (List.mem_of_find?_eq_some harises.forFile)
    rw [Run.left_bind_of_eq_ok hprinted, Run.left_bind_of_eq_ok hscanned, hyes]
    have hgoOn : ∀ w₃ : World, w₃.disk = w₂.disk → ∃ w', s.restoreListed root m w₃ = .ok 0 w' ∧
        Holds last d above entries w'.disk := by
      intro w₃ hw₃
      obtain ⟨w', hrun, hclean⟩ := restoreListed_of_isMarked h hregistry (hw₃ ▸ hmarked)
      exact ⟨w', hrun, .inl hclean⟩
    obtain ⟨w', hrun, hw'⟩ := @Surroundings.afterPreview_eq_ok w₂ scans _ (Holds last d above entries)
      (.inr ⟨plan, is, modules, m, hlast, hmarked⟩) hgoOn
    rw [Run.left_of_eq_ok hrun]
    exact hw'

omit hregistry in
/-- A scan changes nothing. -/
theorem scan_of_holds {a : ScanArguments} (hroot : s.Names a.root root)
    (hholds : Holds last d above entries w.disk) : (Run.left (s.scan a) w).disk = w.disk := by
  obtain ⟨w₁, hsettings, hw₁⟩ := settings_of_holds h hholds hconfig
  rw [Surroundings.scan, Run.left_bind_of_eq_ok (Surroundings.resolve_eq_ok hroot),
    Run.left_bind_of_eq_ok hsettings, ← hw₁]
  refine Run.keeps_bind (Run.keeps_ofExcept _) (fun _ => Run.keeps_bind
    (Restoring.keeps_scanByGlobs _ _ _ _) fun scans => ?_) w₁
  split
  · exact Run.keeps_of_yields Surroundings.yields_nothingFound
  · exact Run.keeps_bind (Run.keeps_of_yields (Surroundings.yields_preview scans)) fun _ =>
      Run.keeps_pure 0

end Restore

end Project
end DelayInjection
