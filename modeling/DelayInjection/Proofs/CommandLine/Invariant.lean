import DelayInjection.Proofs.CommandLine.Session

/-! What the ledger says about a project is right after every command of a session. -/

namespace DelayInjection

open Disk (Node Path)
open Disk.Node (overlayIn)
open Discovery (fileOf)
open Text.Utf8 (Bytes encode)

/-- What a ledger lists; without a ledger nothing is listed. -/
def Manifest.listed (m? : Option Manifest) : List String :=
  (m?.map fun m => m.files.map (·.1)).getD []

def Manifest.modules (m? : Option Manifest) : List Json := (m?.map Manifest.supportFiles).getD []

/-- Files that are not listed hold their original bytes, and those that are listed hold what the last
injection makes of them. The support modules at the root are those of the ledger. -/
structure Accounts (root : Path) (entries : List (String × Node)) (last : Option Plan)
    (m? : Option Manifest) (disk : Disk) : Prop where
  files : ∀ names bytes, (Node.folder entries).at? names = some (.file bytes) →
    (fileOf names ∉ Manifest.listed m? ∧ disk.read (root.join ⟨false, names⟩) = .ok bytes) ∨
    (fileOf names ∈ Manifest.listed m? ∧ ∃ plan a source result, last = some plan ∧
      Program.registry.forFile (fileOf names) = some a ∧ bytes = encode source ∧
      a.inject source (plan.profile.options (fileOf names) plan.seed) = .ok result ∧
      disk.read (root.join ⟨false, names⟩) = .ok (encode result.source))
  listed : ∀ file ∈ Manifest.listed m?, ∃ names bytes,
    (Node.folder entries).at? names = some (.file bytes) ∧ file = fileOf names
  modules : ∀ a ∈ Program.registry.adapters.map (·.2),
    (.str a.moduleName ∈ Manifest.modules m? ∧
      disk.read (root.child a.moduleName) = .ok (encode a.moduleText)) ∨
    (.str a.moduleName ∉ Manifest.modules m? ∧ disk.isFile (root.child a.moduleName) = false)
  supportFiles : ∀ v ∈ Manifest.modules m?,
    ∃ a ∈ Program.registry.adapters.map (·.2), v = .str a.moduleName

section Project

variable {d : Disk} {root : Path} {above : List String} {entries : List (String × Node)}
  (h : IsFresh d root above entries)

include h

section Overlaid

variable {content : List String → Bytes → Bytes} {others : List (String × Node)} {disk : Disk}
  (hdisk : disk = d.overlaid above content entries others)

include hdisk

theorem read_overlaid {names : List String} {bytes : Bytes}
    (hat : (Node.folder entries).at? names = some (.file bytes)) :
    disk.read (root.join ⟨false, names⟩) = .ok (content names bytes) := by
  rw [hdisk]
  exact h.leads.read_holding Node.keeps_overlayIn (h.isProper_names hat).2 (Node.at?_overlayIn hat)

theorem read_others {name : String} (hname : Disk.Node.isProper name = true)
    (hnone : entries.lookup name = none) {bytes : Bytes} (hlookup : others.lookup name = some (.file bytes)) :
    disk.read (root.child name) = .ok bytes := by
  rw [hdisk]
  refine h.leads.read_holding Node.keeps_overlayIn (by rw [List.all_cons, hname]; rfl) ?_
  rw [Node.at?, Node.lookup_overlayIn_append_of_none hnone, hlookup]
  rfl

theorem isFile_of_none {name : String} (hname : Disk.Node.isProper name = true)
    (hnone : entries.lookup name = none) (hlookup : others.lookup name = none) :
    disk.isFile (root.child name) = false := by
  have hdots := (Disk.isProper_iff.mp hname).2.2.1
  have hlocate : disk.locate (root.child name) = .ok (above ++ [name]) := by
    rw [hdisk]
    exact h.leads.locate_child Node.keeps_overlayIn hdots
  have hat : disk.root.at? (above ++ [name]) = none := by
    rw [hdisk]
    refine (h.leads.at?_holding [name]).trans ?_
    rw [Node.at?, Node.lookup_overlayIn_append_of_none hnone, hlookup]
    rfl
  unfold Disk.isFile
  cases hread : disk.read (root.child name) with
  | error e => rfl
  | ok bytes =>
    obtain ⟨names, hlocate', hat'⟩ := Disk.read_eq_ok.mp hread
    cases hlocate.symm.trans hlocate'
    rw [hat] at hat'
    cases hat'

end Overlaid

theorem IsClean.accounts {last : Option Plan} {disk : Disk} (hclean : IsClean d above entries disk) :
    Accounts root entries last none disk := by
  obtain ⟨kept, hkept, hdisk⟩ := hclean
  refine ⟨fun names bytes hat => .inl ⟨by simp [Manifest.listed], read_overlaid h hdisk hat⟩,
    by simp [Manifest.listed], fun a ha => .inr ⟨by simp [Manifest.modules], ?_⟩,
    by simp [Manifest.modules]⟩
  have hlookup : kept.lookup a.moduleName = none := by
    rcases hkept with rfl | rfl
    · rfl
    · exact Node.lookup_cons_of_ne (Program.moduleName_ne ha) _ _
  exact isFile_of_none h hdisk (Program.consistent_registry.isProper a ha)
    (h.lookup_moduleName a ha) hlookup

theorem IsMarked.accounts {plan : Plan} {disk : Disk} {is : List Injected} {modules : List Adapter}
    {m : Manifest} (hmarked : IsMarked plan d above entries disk is modules m) :
    Accounts root entries (some plan) (some m) disk := by
  obtain ⟨now, f, hrecords⟩ := hmarked.records
  obtain ⟨kept, hbehind, hdisk⟩ := hmarked.exists_behind
  have hlisted : Manifest.listed (some m) = is.map Injected.file := by
    change m.files.map (·.1) = _
    rw [hrecords.manifest]
    exact List.map_map
  have hmodules : Manifest.modules (some m) = modules.map fun a => .str a.moduleName := by
    change m.supportFiles = _
    rw [hrecords.manifest]
  refine ⟨fun names bytes hat => ?_, fun file hfile => ?_, fun a ha => ?_, fun v hv => ?_⟩
  · rw [hlisted]
    by_cases hmem : names ∈ is.map Injected.names
    · obtain ⟨i, hi, rfl⟩ := List.mem_map.mp hmem
      have harises := hrecords.arises i hi
      have hread := read_overlaid h hdisk hat
      rw [Injected.contentOf_of_mem (Injected.nodup_names hrecords.nodup) hi] at hread
      rw [harises.at_eq] at hat
      cases hat
      exact .inr ⟨List.mem_map_of_mem hi, plan, i.adapter, i.source, i.result, rfl, harises.forFile,
        rfl, harises.inject, hread⟩
    · have hread := read_overlaid h hdisk hat
      rw [Injected.contentOf_of_not_mem hmem] at hread
      refine .inl ⟨fun hfile => hmem ?_, hread⟩
      obtain ⟨i, hi, hname⟩ := List.mem_map.mp hfile
      have hpath := h.ofText_fileOf hat
      rw [← hname, Injected.file, h.ofText_fileOf (hrecords.arises i hi).at_eq] at hpath
      cases hpath
      exact List.mem_map_of_mem hi
  · rw [hlisted] at hfile
    obtain ⟨i, hi, rfl⟩ := List.mem_map.mp hfile
    exact ⟨i.names, _, (hrecords.arises i hi).at_eq, rfl⟩
  · rw [hmodules]
    have hnone := h.lookup_moduleName a ha
    have hproper := Program.consistent_registry.isProper a ha
    by_cases hmem : a ∈ modules
    · refine .inl ⟨List.mem_map.mpr ⟨a, hmem, rfl⟩, read_others h hdisk hproper hnone ?_⟩
      exact hbehind.lookup_module (hmarked.mem_registry) hmem
    · refine .inr ⟨fun hlisted => hmem ?_, isFile_of_none h hdisk hproper hnone ?_⟩
      · obtain ⟨b, hb, hname⟩ := List.mem_map.mp hlisted
        cases Program.consistent_registry.moduleName b (hmarked.mem_registry b hb) a ha (by simpa using hname)
        exact hb
      · rw [List.lookup_eq_none_iff]
        intro e he
        rcases hbehind.module e he with rfl | ⟨b, hb, rfl⟩
        · simpa [Ledger.stateEntry] using Program.moduleName_ne ha
        · have hne : a.moduleName ≠ b.moduleName := by
            intro hname
            cases Program.consistent_registry.moduleName a ha b (hmarked.mem_registry b hb) hname
            exact hmem hb
          simpa [Adapter.supportEntry] using hne
  · rw [hmodules] at hv
    obtain ⟨a, ha, rfl⟩ := List.mem_map.mp hv
    exact ⟨a, hmarked.mem_registry a ha, rfl⟩

/-- The ledger that is there accounts for all files. -/
theorem Holds.accounts {last : Option Plan} {w : World} (hholds : Holds last d above entries w.disk) :
    ∃ m?, (∀ now, Ledger.load now root w = .ok m? w) ∧ Accounts root entries last m? w.disk := by
  rcases hholds with hclean | ⟨plan, is, modules, m, rfl, hmarked⟩
  · exact ⟨none, fun now => hclean.load h now, hclean.accounts h⟩
  · exact ⟨some m, fun now => hmarked.load h now, hmarked.accounts h⟩

end Project

/-! ## Sessions -/

/-- What a sequence of commands leads to: a world, and what the last injection that ended well came
down to. -/
structure Session where
  world : World
  last : Option Plan := none

/-- Each command has surroundings of its own. -/
def Session.after (config : Config) (x : Session) (c : Surroundings × Command) : Session where
  world := Run.left (c.1.run c.2) x.world
  last := match c.2, c.1.run c.2 x.world with
    | .inject a, .ok 0 _ => (c.1.planOf config a).toOption
    | _, _ => x.last

/-- Commands of a session that asks nothing, on files that injection suits. -/
inductive Admits (d : Disk) (root : Path) (config : Config) (s : Surroundings) : Command → Prop where
  | inject {a : InjectArguments} (names : s.Names a.root root) (yes : a.yes = true)
    (suits : ∀ plan, s.planOf config a = .ok plan → plan.Suits d root) :
    Admits d root config s (.inject a)
  | restore {a : RestoreArguments} (names : s.Names a.root root) (folder : a.folder.isEmpty = true)
    (plain : a.recover = false) : Admits d root config s (.restore a)
  | recover {a : RestoreArguments} (names : s.Names a.root root) (folder : a.folder.isEmpty = true)
    (recover : a.recover = true) (yes : a.yes = true)
    (reached : ReachesClean d root (Surroundings.included a.globs config)
      (Surroundings.excluded config)) : Admits d root config s (.restore a)
  | scan {a : ScanArguments} (names : s.Names a.root root) : Admits d root config s (.scan a)

theorem Surroundings.left_run (s : Surroundings) (command : Command) (w : World) :
    (Run.left (s.run command) w).disk = (Run.left (s.execute command) w).disk := by
  rw [Run.left, Run.left, run_eq]
  cases s.execute command w with
  | ok n w' => rfl
  | error failure w' =>
    cases hreported : failure.isReported <;> simp [hreported]

section Project

variable {d : Disk} {root : Path} {above : List String} {entries : List (String × Node)}
  (h : IsFresh d root above entries) {config : Config}
  (hconfig : ∃ w₁, Settings.load root { disk := d } = .ok config w₁) {profile : Profile}
  (hprofile : Profile.ofConfig config = .ok profile)

include h hconfig hprofile

/-- One command keeps the project clean or marked by the last injection. -/
theorem Session.holds_after {x : Session} {s : Surroundings} {c : Command}
    (hregistry : s.registry = Program.registry) (hpicked : IsShort s.picked)
    (hadmits : Admits d root config s c) (hholds : Holds x.last d above entries x.world.disk) :
    Holds (x.after config (s, c)).last d above entries (x.after config (s, c)).world.disk := by
  unfold Session.after
  simp only [Surroundings.left_run]
  cases hadmits with
  | @inject a names yes suits =>
    rcases inject_of_holds h hregistry hpicked hconfig names yes suits hholds with
      ⟨e, w', hrun, hholds'⟩ | ⟨plan, w', hplan, hrun, hholds'⟩
    · have hexecute : s.execute (.inject a) x.world = .error e w' := hrun
      have hstatus := s.run_eq (.inject a) x.world
      rw [hexecute] at hstatus
      have hlast : (match Command.inject a, s.run (.inject a) x.world with
          | .inject a, .ok 0 _ => (s.planOf config a).toOption
          | _, _ => x.last) = x.last := by
        rw [hstatus]
        cases hreported : e.isReported <;> simp [hreported]
      rw [Run.left, hexecute, hlast]
      exact hholds'
    · have hexecute : s.execute (.inject a) x.world = .ok 0 w' := hrun
      have hstatus := s.run_eq (.inject a) x.world
      rw [hexecute] at hstatus
      rw [Run.left, hexecute, hstatus]
      simp only [hplan]
      exact hholds'
  | @restore a names folder plain =>
    obtain ⟨w', hrun, hclean⟩ := restore_of_holds h hregistry hconfig hprofile names folder plain hholds
    rw [show s.execute (.restore a) = s.restore a from rfl, Run.left_of_eq_ok hrun]
    exact .inl hclean
  | @recover a names folder recover yes reached =>
    exact recover_of_holds h hregistry hconfig hprofile names folder recover yes reached hholds
  | @scan a names =>
    rw [show s.execute (.scan a) = s.scan a from rfl, scan_of_holds h hconfig names hholds]
    exact hholds

/-- So does a session. -/
theorem Session.holds_foldl {steps : List (Surroundings × Command)}
    (hsteps : ∀ c ∈ steps, c.1.registry = Program.registry ∧ IsShort c.1.picked ∧
      Admits d root config c.1 c.2) {x : Session} (hholds : Holds x.last d above entries x.world.disk) :
    Holds (steps.foldl (Session.after config) x).last d above entries
      (steps.foldl (Session.after config) x).world.disk := by
  induction steps generalizing x with
  | nil => exact hholds
  | cons c steps ih =>
    obtain ⟨hregistry, hpicked, hadmits⟩ := hsteps c List.mem_cons_self
    exact ih (fun c hc => hsteps c (List.mem_cons_of_mem _ hc))
      (Session.holds_after h hconfig hprofile hregistry hpicked hadmits hholds)

end Project

/-- Whatever commands were given, the ledger accounts for all files of the project and for the support
modules, and restoration leads back to the project as it was. -/
theorem Session.accounts_of_commands {root : Path} {above : List String} {entries : List (String × Node)}
    {w w₁ : World} (h : IsFresh w.disk root above entries) {config : Config}
    (hconfig : Settings.load root w = .ok config w₁) {profile : Profile}
    (hprofile : Profile.ofConfig config = .ok profile) {steps : List (Surroundings × Command)}
    (hsteps : ∀ c ∈ steps, c.1.registry = Program.registry ∧ IsShort c.1.picked ∧
      Admits w.disk root config c.1 c.2) :
    (∃ m?, (∀ now, Ledger.load now root (steps.foldl (Session.after config) ⟨w, none⟩).world =
        .ok m? (steps.foldl (Session.after config) ⟨w, none⟩).world) ∧
      Accounts root entries (steps.foldl (Session.after config) ⟨w, none⟩).last m?
        (steps.foldl (Session.after config) ⟨w, none⟩).world.disk) ∧
    ∀ (s : Surroundings) (a : RestoreArguments), s.registry = Program.registry → s.Names a.root root →
      a.folder.isEmpty = true → a.recover = false →
      ∃ w', s.run (.restore a) (steps.foldl (Session.after config) ⟨w, none⟩).world = .ok 0 w' ∧
        IsClean w.disk above entries w'.disk := by
  have hconfig' := Settings.exists_load_eq_ok hconfig
  have hholds := Session.holds_foldl h hconfig' hprofile hsteps (x := ⟨w, none⟩) (.inl h.isClean)
  refine ⟨hholds.accounts h, fun s a hregistry names folder plain => ?_⟩
  obtain ⟨w', hrun, hclean⟩ :=
    restore_of_holds h hregistry hconfig' hprofile names folder plain hholds
  refine ⟨w', ?_, hclean⟩
  rw [Surroundings.run_eq, show s.execute (.restore a) = s.restore a from rfl, hrun]

/-! ## A session on one file -/

section OneFile

open Restoring (oneFile oneFileRoot)

def atRoot : Surroundings := ⟨Program.registry, ⟨true, []⟩, "", 0⟩

theorem names_atRoot : atRoot.Names "/p" oneFileRoot := ⟨by decide, by decide⟩

theorem picked_atRoot : IsShort atRoot.picked := isShort_of_lt (k := 1) (by decide) (by decide)

theorem settings_oneFile {w : World} (hw : w.disk = oneFile oneSource) :
    Settings.load oneFileRoot w = .ok Config.defaults w := by
  obtain ⟨disk, typed, printed, warned⟩ := w
  cases hw
  rfl

theorem profile_defaults : Profile.ofConfig Config.defaults = .ok {} := rfl

def injectOneFile : InjectArguments := ⟨"/p", ["**/*.py"], none, "auto", none, none, none, false, true⟩

theorem planOf_oneFile : atRoot.planOf Config.defaults injectOneFile = .ok onePlan := rfl

theorem admits_oneFile : ∀ c ∈ [Command.inject injectOneFile, .scan ⟨"/p", []⟩,
    .inject injectOneFile, .restore ⟨"/p", [], true, "", true⟩, .restore ⟨"/p", [], false, "", false⟩],
    Admits (oneFile oneSource) oneFileRoot Config.defaults atRoot c := by
  intro c hc
  simp only [List.mem_cons, List.not_mem_nil, or_false] at hc
  have hinject : Admits (oneFile oneSource) oneFileRoot Config.defaults atRoot (.inject injectOneFile) := by
    refine .inject names_atRoot rfl fun plan hplan => ?_
    cases planOf_oneFile.symm.trans hplan
    exact suits_oneFile _ _
  rcases hc with rfl | rfl | rfl | rfl | rfl
  · exact hinject
  · exact .scan names_atRoot
  · exact hinject
  · refine .recover names_atRoot rfl rfl rfl fun files hfiles file hfile a source hadapter htext => ?_
    exact ((suits_oneFile _ _).files files hfiles file hfile a source hadapter htext).clean
  · exact .restore names_atRoot rfl rfl

theorem Session.accounts_of_commands_of_async_def :
    ∃ (w : World) (steps : List (Surroundings × Command)) (m? : Option Manifest), steps.length = 5 ∧
      Ledger.load "" oneFileRoot (steps.foldl (Session.after Config.defaults) ⟨w, none⟩).world =
        .ok m? (steps.foldl (Session.after Config.defaults) ⟨w, none⟩).world ∧
      Accounts oneFileRoot oneEntries (steps.foldl (Session.after Config.defaults) ⟨w, none⟩).last m?
        (steps.foldl (Session.after Config.defaults) ⟨w, none⟩).world.disk := by
  let w : World := { disk := oneFile oneSource }
  have hsteps : ∀ c ∈ [Command.inject injectOneFile, .scan ⟨"/p", []⟩, .inject injectOneFile,
      .restore ⟨"/p", [], true, "", true⟩, .restore ⟨"/p", [], false, "", false⟩].map
        fun c => (atRoot, c), c.1.registry = Program.registry ∧ IsShort c.1.picked ∧
          Admits (oneFile oneSource) oneFileRoot Config.defaults c.1 c.2 := by
    intro c hc
    obtain ⟨command, hcommand, rfl⟩ := List.mem_map.mp hc
    exact ⟨rfl, picked_atRoot, admits_oneFile command hcommand⟩
  obtain ⟨⟨m?, hload, haccounts⟩, -⟩ :=
    @Session.accounts_of_commands _ _ _ w _ isFresh_oneFile _ (settings_oneFile rfl) _ profile_defaults
      _ hsteps
  exact ⟨w, _, m?, rfl, hload "", haccounts⟩

end OneFile
end DelayInjection
