import DelayInjection.Proofs.CommandLine.Tracking

/-! Restoration after an injection: when it is refused, and what it leaves of files that were changed in
between. -/

namespace DelayInjection

open Disk (Node Path)
open Restoring (NamesAdapter Summary Unmarked oneFile oneFileRoot)
open Text.Utf8 (Bytes encode)

namespace Surroundings

variable {s : Surroundings} {w w' : World}

/-! ## Whether an injection can be taken back -/

section Refused

variable {root : Path} {above : List String} {entries : List (String × Node)} {w₀ w₁ : World}
  (h : IsFresh w₀.disk root above entries) {config : Config}
  (hconfig : Settings.load root w₀ = .ok config w₁)

include h hconfig

/-- What was injected can be taken back if and only if the settings of the project make a valid profile
with the mode of the injection. What the command line said of delays does not count. -/
theorem restore_iff_of_inject (hregistry : s.registry = Program.registry) (hpicked : IsShort s.picked)
    {a : InjectArguments} (hroot : s.Names a.root root)
    (hsuits : ∀ plan, s.planOf config a = .ok plan → plan.Suits w₀.disk root)
    (hinjected : s.run (.inject a) w₀ = .ok 0 w)
    (hsaved : ∃ now m, Ledger.load now root w = .ok (some m) w) {t : Surroundings}
    (htregistry : t.registry = Program.registry) {b : RestoreArguments} (hfolder : t.Names b.root root)
    (hempty : b.folder.isEmpty = true) (hplain : b.recover = false) :
    (∃ w', t.run (.restore b) w = .ok 0 w' ∧
      w'.disk.isFile ((Ledger.folder root).child Ledger.fileName) = false) ↔
    ∃ plan profile, s.planOf config a = .ok plan ∧
      Profile.ofConfig (config.overlay [("mode", .str plan.profile.mode)]) = .ok profile := by
  have hconfig' := Settings.exists_load_eq_ok hconfig
  obtain ⟨plan, hplan, hholds⟩ : ∃ plan, s.planOf config a = .ok plan ∧
      Holds (some plan) w₀.disk above entries w.disk := by
    have hzero := of_run_eq_zero hinjected
    rcases inject_of_isClean h hregistry hpicked hconfig' hroot hsuits h.isClean with
      ⟨e, w', herror, -⟩ | ⟨plan, w', hplan, hrun, hholds⟩
    · cases hzero.symm.trans herror
    · cases hzero.symm.trans hrun
      exact ⟨plan, hplan, hholds⟩
  obtain ⟨now, m, hload⟩ := hsaved
  -- where a ledger was saved, the injection left the project marked
  rcases hholds with hclean | ⟨plan', is, modules, m', hlast, hmarked⟩
  · cases hload.symm.trans (hclean.load h now)
  cases hlast
  cases hload.symm.trans (hmarked.load h now)
  obtain ⟨now', f, hrecords⟩ := hmarked.records
  have hmode : m.mode = .str plan.profile.mode := by rw [hrecords.manifest]; rfl
  obtain ⟨w₂, hsettings, hw₂⟩ :=
    settings_of_holds h (.inr ⟨plan, is, modules, m, rfl, hmarked⟩) hconfig'
  rw [← hw₂] at hmarked
  have hrestore := restore_of_ledger hfolder hempty hplain hsettings (hmarked.load h t.now)
  constructor
  · rintro ⟨w', hrun, -⟩
    have hzero : t.restore b w = .ok 0 w' := of_run_eq_zero hrun
    rw [hrestore] at hzero
    cases hprofile : Profile.ofConfig (config.overlay [("mode", m.mode)]) with
    | ok profile => exact ⟨plan, profile, hplan, hmode ▸ hprofile⟩
    | error e =>
      rw [hprofile] at hzero
      cases hzero
  · rintro ⟨plan', profile, hplan', hprofile⟩
    cases hplan.symm.trans hplan'
    rw [← hmode] at hprofile
    rw [hprofile] at hrestore
    obtain ⟨w', hrun, hclean⟩ := restoreListed_of_isMarked h htregistry hmarked
    refine ⟨w', ?_, hclean.isFile_eq_false h⟩
    rw [run_eq, show t.execute (.restore b) = t.restore b from rfl, hrestore, hrun]

end Refused

def restoreOneFile : RestoreArguments := ⟨"/p", [], false, "", false⟩

theorem restore_iff_of_inject_of_async_def : ∃ w w' w'', atRoot.run (.inject injectOneFile) w = .ok 0 w' ∧
    atRoot.run (.restore restoreOneFile) w' = .ok 0 w'' ∧
      w''.disk.isFile ((Ledger.folder oneFileRoot).child Ledger.fileName) = false := by
  obtain ⟨w, w', m, hw, hinjected, hload⟩ := inject_oneFile
  have hfresh : IsFresh w.disk oneFileRoot ["p"] oneEntries := hw ▸ isFresh_oneFile
  have hsuits : ∀ plan, atRoot.planOf Config.defaults injectOneFile = .ok plan →
      plan.Suits w.disk oneFileRoot := by
    intro plan hplan
    cases planOf_oneFile.symm.trans hplan
    exact hw ▸ suits_oneFile _ _
  obtain ⟨w'', hrestored, hgone⟩ := (restore_iff_of_inject hfresh (settings_oneFile hw) rfl picked_atRoot
    names_atRoot hsuits hinjected ⟨"", m, hload⟩ (t := atRoot) rfl (b := restoreOneFile) names_atRoot
    rfl rfl).mpr ⟨onePlan, onePlan.profile, planOf_oneFile, rfl⟩
  exact ⟨w, w', w'', hinjected, hrestored, hgone⟩

/-- A range of delays that only holds together with what the command line says. -/
def lateSettings : Config := Config.defaults.overlay [("min_delay_ms", .int 100)]

/-- An injection may be valid although its settings are refused afterwards. -/
theorem refused_of_lateSettings :
    (∃ plan, atRoot.planOf lateSettings { injectOneFile with maxDelay := some 200 } = .ok plan ∧
      Profile.ofConfig (lateSettings.overlay [("mode", .str plan.profile.mode)]) =
        .error .reversedRange) :=
  ⟨⟨{ minDelay := 100, maxDelay := 200 }, 0, Config.texts ["**/*.py"],
    Surroundings.excluded Config.defaults⟩, rfl, rfl⟩

/-- A restoration that takes the ledger away leaves no stamp in the texts of the files that an earlier
injection listed there, whatever became of them in between. -/
theorem unmarked_of_restore (hregistry : s.registry = Program.registry) {profile : Profile} {seed : Int}
    {now : String} {root folder : Path} {included excluded : Json} {w₀ w₁ : World}
    {p : Injecting.Progress}
    (hinjected : Injecting.injectAll s.registry profile now root included excluded seed w₀ = .ok p w₁)
    {a : RestoreArguments} (hfolder : s.Names (ledgerRoot a) folder)
    (hload : Ledger.load s.now folder w = .ok (some p.manifest) w)
    (hrun : s.run (.restore a) w = .ok 0 w')
    (hgone : w'.disk.isFile ((Ledger.folder folder).child Ledger.fileName) = false) :
    ∀ f ∈ p.manifest.files, Unmarked w'.disk (folder.join (Path.ofText f.1)) := by
  have hnames := Injecting.namesAdapter_of_injectAll (hregistry ▸ Program.consistent_registry) hinjected
  rcases of_restore_eq_ok hfolder hload (of_run_eq_zero hrun) with hsame | ⟨w₂, hdisk, hrestored⟩
  · rw [hsame, (Ledger.of_load_eq_some hload).1] at hgone
    cases hgone
  · obtain ⟨summary, w₃, w₄, hall, hdeleted, hend⟩ := of_restoreListed_eq_ok hrestored
    intro f hf
    rw [hend]
    exact (Restoring.unmarked_of_restoreAll hnames hall f hf).of_narrows
      (Restoring.narrows_of_remove hdeleted)

theorem unmarked_of_restore_of_async_def : ∃ (w w' : World) (m : Manifest), m.files.length = 1 ∧
    Ledger.load "" oneFileRoot w = .ok (some m) w ∧ atRoot.run (.restore restoreOneFile) w = .ok 0 w' ∧
      ∀ f ∈ m.files, Unmarked w'.disk (oneFileRoot.join (Path.ofText f.1)) := by
  obtain ⟨p, w₁, path, w, is, modules, hinjected, -, hone, hmarked⟩ :=
    @exists_marked_oneFile "" { disk := oneFile oneSource } rfl
  have hconfig : ∃ w₁, Settings.load oneFileRoot { disk := oneFile oneSource } =
      .ok Config.defaults w₁ := ⟨_, settings_oneFile rfl⟩
  obtain ⟨w', hrestored, hclean⟩ := restore_of_holds isFresh_oneFile (s := atRoot) rfl hconfig
    profile_defaults (a := restoreOneFile) names_atRoot rfl rfl (.inr ⟨_, is, modules, _, rfl, hmarked⟩)
  have hrun : atRoot.run (.restore restoreOneFile) w = .ok 0 w' := by
    rw [run_eq, show atRoot.execute (.restore restoreOneFile) = atRoot.restore restoreOneFile from rfl,
      hrestored]
  have hload := hmarked.load isFresh_oneFile ""
  exact ⟨w, w', p.manifest, hone, hload, hrun, unmarked_of_restore rfl hinjected names_atRoot hload hrun
    (hclean.isFile_eq_false isFresh_oneFile)⟩

end Surroundings

/-- Files that cannot be read are passed over, one by one. -/
theorem Restoring.restoreListed_of_unread {registry : Registry} {root : Path} {m : Manifest}
    {files : List (String × FileRecord)} {s : Summary} {w : World}
    (hfiles : ∀ f ∈ files, NamesAdapter registry f.2 ∧
      ∀ w' : World, w'.disk = w.disk → textOf? root f.1 w' = .ok none w') :
    ∃ w', restoreListed registry root m s files w = .ok s w' ∧ w'.disk = w.disk := by
  induction files generalizing w with
  | nil => exact ⟨w, rfl, rfl⟩
  | cons f files ih =>
    obtain ⟨⟨a, ha⟩, hnone⟩ := hfiles f List.mem_cons_self
    obtain ⟨w₁, hwarned, hw₁⟩ := Run.yields_warn ("  [!] File not found: " ++ f.1 ++ ", skipping") w
    have hrecord : restoreRecord registry root m s f.1 f.2 w = .ok s w₁ := by
      rw [restoreRecord, Run.bind_of_eq_ok (Run.ofExcept_eq_ok.mpr ⟨ha, rfl⟩)]
      refine (Run.bind_of_eq_ok (hnone w rfl)).trans ?_
      exact (Run.bind_of_eq_ok hwarned).trans rfl
    obtain ⟨w', hrest, hw'⟩ := @ih w₁ fun f hf => by
      obtain ⟨hnames, hnone⟩ := hfiles f (List.mem_cons_of_mem _ hf)
      exact ⟨hnames, fun w' hdisk => hnone w' (hdisk.trans hw₁)⟩
    exact ⟨w', (Run.bind_of_eq_ok hrecord).trans hrest, hw'.trans hw₁⟩

/-- Bytes with a stamp that are no text. -/
def stampedBytes : Bytes := encode stamp.toList ++ [0xFF]

theorem decode_stampedBytes : ∃ e, Text.Utf8.decode stampedBytes = .error e := by
  have herror : (Text.Utf8.decode stampedBytes).toOption = none := by decide +kernel
  cases hdecode : Text.Utf8.decode stampedBytes with
  | error e => exact ⟨e, rfl⟩
  | ok text =>
    rw [hdecode] at herror
    cases herror

namespace Surroundings

section Overwritten

variable {s : Surroundings} {d : Disk} {root : Path} {above : List String}
  {entries kept : List (String × Node)} (h : IsFresh d root above entries) {config : Config}
  (hconfig : ∃ w₁, Settings.load root { disk := d } = .ok config w₁) {profile : Profile}
  (hprofile : Profile.ofConfig config = .ok profile) {plan : Plan} {disk : Disk} {is : List Injected}
  {modules : List Adapter} {m : Manifest} (hmarked : IsMarked plan d above entries disk is modules m)
  (hbehind : IsMarked.Behind modules m kept) {content : List String → Bytes → Bytes} {w : World}
  (hw : w.disk = d.overlaid above content entries kept)

include h hconfig hprofile hmarked hbehind hw

/-- Listed files that are no texts any more stay as they are, and the ledger and the support modules go
all the same. -/
theorem restore_of_undecodable (hregistry : s.registry = Program.registry)
    (hcontent : ∀ name ∈ Config.fileNames, ∀ bytes, entries.lookup name = some (.file bytes) →
      content [name] bytes = bytes)
    (hundecodable : ∀ i ∈ is, ∃ e, Text.Utf8.decode (content i.names (encode i.source)) = .error e)
    {a : RestoreArguments} (hroot : s.Names a.root root) (hfolder : a.folder.isEmpty = true)
    (hplain : a.recover = false) : ∃ w', s.run (.restore a) w = .ok 0 w' ∧
      w'.disk = d.overlaid above content entries [Ledger.stateEntry []] := by
  obtain ⟨now, f, hrecords⟩ := hmarked.records
  obtain ⟨w₁, hsettings, hw₁⟩ :=
    settings_overlaid h hcontent (hmarked.not_mem_fileNames hbehind) hconfig hw
  have hunread : ∀ f ∈ m.files, NamesAdapter Program.registry f.2 ∧
      ∀ w' : World, w'.disk = w₁.disk → Restoring.textOf? root f.1 w' = .ok none w' := by
    intro f hf
    rw [hrecords.manifest] at hf
    obtain ⟨i, hi, rfl⟩ := List.mem_map.mp hf
    have harises := hrecords.arises i hi
    obtain ⟨e, hdecode⟩ := hundecodable i hi
    refine ⟨⟨i.adapter, congrArg Except.ok
      (Program.consistent_registry.get i.adapter (List.mem_of_find?_eq_some harises.forFile))⟩,
      fun w' hdisk => ?_⟩
    have htext := Restoring.textOf?_eq_ok h.toIsProject harises.at_eq (hdisk.trans (hw₁.trans hw))
    rw [hdecode] at htext
    exact htext
  -- no listed file is written, and what comes behind does not ask how many were
  obtain ⟨w₂, hlisted, hw₂⟩ := @Restoring.restoreListed_of_unread _ _ m _ {} w₁ hunread
  obtain ⟨w₃, w₄, hremoved, hdeleted, hw₄⟩ := hmarked.clear h hbehind (hw₂.trans (hw₁.trans hw))
  have hrestored : Restoring.restoreAll Program.registry root m w₁ = .ok {} w₃ :=
    (Run.bind_of_eq_ok hlisted).trans ((Run.bind_of_eq_ok hremoved).trans rfl)
  obtain ⟨w', hend, hw'⟩ := restoreListed_eq_ok (hregistry ▸ hrestored) hdeleted
  have hload : Ledger.load s.now root w₁ = .ok (some m) w₁ :=
    Ledger.load_eq_some h.toIsProject h.state (hw₁.trans hw) _ hmarked.plain hbehind.ledger
  refine ⟨w', ?_, hw'.trans hw₄⟩
  rw [run_eq, show s.execute (.restore a) = s.restore a from rfl,
    restore_of_ledger hroot hfolder hplain hsettings hload, ofConfig_mode hconfig hprofile hmarked]
  simp only [hend]

end Overwritten

/-- Without a text to restore, the stamp stays, and the ledger and the support module go. -/
theorem stamped_of_restore : ∃ (w₀ w₁ w w' : World) (p : Injecting.Progress) (bytes : Bytes),
    Injecting.injectAll Program.registry {} "" oneFileRoot onePlan.included onePlan.excluded 0 w₀ =
      .ok p w₁ ∧
    Ledger.load "" oneFileRoot w = .ok (some p.manifest) w ∧
    atRoot.run (.restore restoreOneFile) w = .ok 0 w' ∧
    w'.disk.isFile ((Ledger.folder oneFileRoot).child Ledger.fileName) = false ∧
    w'.disk.isFile (oneFileRoot.child Python.adapter.moduleName) = false ∧
    "a.py" ∈ p.manifest.files.map (·.1) ∧
    w'.disk.read (oneFileRoot.child "a.py") = .ok bytes ∧ encode stamp.toList <:+: bytes := by
  obtain ⟨p, w₁, path, w₂, is, modules, hinjected, -, hone, hmarked⟩ :=
    @exists_marked_oneFile "" { disk := oneFile oneSource } rfl
  have h := isFresh_oneFile
  obtain ⟨kept, hbehind, -⟩ := hmarked.exists_behind
  obtain ⟨now, f, hrecords⟩ := hmarked.records
  -- the file is overwritten, and all that injection left beside it stays
  let w : World := { disk :=
    (oneFile oneSource).overlaid ["p"] (fun _ _ => stampedBytes) oneEntries kept }
  have hcontent : ∀ name ∈ Config.fileNames, ∀ bytes,
      oneEntries.lookup name = some (.file bytes) → stampedBytes = bytes := by
    intro name hname bytes hlookup
    have hne : name ≠ "a.py" := by
      rintro rfl
      exact absurd hname (by decide)
    rw [oneEntries, Node.lookup_cons_of_ne hne] at hlookup
    cases hlookup
  obtain ⟨w', hrun, hend⟩ := restore_of_undecodable h ⟨_, settings_oneFile rfl⟩ profile_defaults hmarked
    hbehind (w := w) rfl (s := atRoot) rfl hcontent (fun _ _ => decode_stampedBytes)
    (a := restoreOneFile) names_atRoot rfl rfl
  have hlisted : "a.py" ∈ p.manifest.files.map (·.1) := by
    obtain ⟨e, he⟩ := List.exists_mem_of_length_pos (hone ▸ Nat.one_pos)
    refine List.mem_map.mpr ⟨e, he, ?_⟩
    rw [hrecords.manifest] at he
    obtain ⟨i, hi, rfl⟩ := List.mem_map.mp he
    rw [Injected.file, names_of_oneEntries (hrecords.arises i hi).at_eq, Restoring.fileOf_oneFile]
  have hmodule : Python.adapter ∈ Program.registry.adapters.map (·.2) := by
    simp [Program.registry]
  refine ⟨_, w₁, w, w', p, stampedBytes, hinjected, ?_, hrun, ?_, ?_, hlisted, ?_,
    List.infix_append [] _ _⟩
  · exact Ledger.load_eq_some h.toIsProject h.state rfl _ hmarked.plain hbehind.ledger
  · exact Ledger.isFile_eq_false h.toIsProject h.state hend (.inr List.lookup_cons_self)
  · exact isFile_of_none h hend (Program.consistent_registry.isProper _ hmodule)
      (h.lookup_moduleName _ hmodule) (Node.lookup_cons_of_ne (Program.moduleName_ne hmodule) _ _)
  · exact @read_overlaid _ _ _ _ h _ _ _ hend ["a.py"] _ rfl

end Surroundings
end DelayInjection
