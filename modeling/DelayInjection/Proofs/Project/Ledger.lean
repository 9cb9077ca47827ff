import DelayInjection.Project.Ledger
import DelayInjection.Proofs.Injection.Bounds
import DelayInjection.Proofs.Manifest
import DelayInjection.Proofs.Project.World

/-! The ledger on disk: it stands in a folder of its own behind the entries of the project. -/

namespace DelayInjection.Ledger

open Disk (Node Path)
open Disk.Node (isProper overlayIn putEntry)
open Text.Utf8 (Bytes encode)

/-- The folder of the ledger as an entry. -/
def stateEntry (inner : List (String × Node)) : String × Node := (stateFolder, .folder inner)

/-- A ledger as a file. -/
def fileEntry (m : Manifest) : String × Node := (fileName, .file (encode m.toJson.indented))

variable {root : Path} {w : World} {place : List String} {inner : List (String × Node)}

/-! ## In a folder of the disk -/

section Folder

variable (hzero : ∀ n ∈ root.names, '\x00' ∉ n.toList)

include hzero

theorem noZero_folder : ∀ n ∈ (folder root).names, '\x00' ∉ n.toList := by
  intro n hn
  rcases List.mem_append.mp hn with hn | hn
  · exact hzero n hn
  · rw [List.mem_singleton.mp hn]
    decide

theorem noZero_child (name : String) (hname : isProper name = true) :
    ∀ n ∈ ((folder root).child name).names, '\x00' ∉ n.toList := by
  intro n hn
  rcases List.mem_append.mp hn with hn | hn
  · exact noZero_folder hzero n hn
  · rw [List.mem_singleton.mp hn]
    exact (Disk.isProper_iff.mp hname).2.2.2.2

theorem textAt_eq {text : List Char}
    (hfile : w.disk.read ((folder root).child fileName) = .ok (encode text)) :
    Run.textAt ((folder root).child fileName) w.disk = .ok text := by
  rw [Run.textAt, Run.bytesAt, Run.checked_of_noZero _ (noZero_child hzero _ (by decide)), hfile]
  change (Text.Utf8.decode (encode text)).mapError _ = _
  rw [Text.Utf8.decode_encode]
  rfl

/-- A ledger that stands in its file is read. -/
theorem load_of_leads (now : String) {m : Manifest} (hplain : m.IsPlain)
    (hfolder : w.disk.Leads (folder root) place inner)
    (hfile : inner.lookup fileName = some (.file (encode m.toJson.indented))) :
    load now root w = .ok (some m) w := by
  have hread : w.disk.read ((folder root).child fileName) = .ok (encode m.toJson.indented) := by
    have hheld := hfolder.read_holding (fun _ i hi => ⟨i, hi⟩) (by decide : [fileName].all isProper = true)
      (by rw [Node.at?, hfile]; rfl)
    rw [hfolder.holding_self] at hheld
    exact hheld
  have hisFile : w.disk.isFile ((folder root).child fileName) = true := by rw [Disk.isFile, hread]
  have hget : (get : Run World) w = .ok w w := rfl
  have hlook : Run.look (Run.textAt ((folder root).child fileName)) w =
      .ok (.ok m.toJson.indented) w := by
    rw [← textAt_eq hzero hread]
    rfl
  rw [load, Run.bind_of_eq_ok hget]
  simp only [hisFile]
  refine (Run.bind_of_eq_ok hlook).trans ?_
  simp only [hplain.unifyNewlines, Json.parse_indented hplain.toJson]
  obtain ⟨members, hmembers⟩ : ∃ members, m.toJson = .obj members := ⟨_, rfl⟩
  have hof := Manifest.ofJson_toJson now m
  rw [hmembers] at hof ⊢
  simp only [hof]
  rfl

end Folder

/-- A folder that a ledger can be written to: its state folder is there or can be made, and neither
the file of the ledger nor the one beside it is taken by a folder. -/
structure IsWritable (d : Disk) (root : Path) (above : List String)
    (entries inner : List (String × Node)) : Prop where
  leads : d.Leads root above entries
  noZero : ∀ n ∈ root.names, '\x00' ∉ n.toList
  state : (entries.lookup stateFolder).getD (.folder []) = .folder inner
  file : ∀ below, inner.lookup fileName ≠ some (.folder below)
  temporary : ∀ below, inner.lookup temporaryName ≠ some (.folder below)

namespace IsWritable

variable {above : List String} {entries : List (String × Node)}
  (h : IsWritable w.disk root above entries inner)

include h

/-- The state folder is made, or is there already. -/
theorem makeFolder : w.disk.makeFolder (folder root) =
      .ok (w.disk.holding above (putEntry stateFolder (.folder inner) entries)) ∧
    (Node.folder entries).Keeps (.folder (putEntry stateFolder (.folder inner) entries)) := by
  have hmade := h.leads.makeFolder_holding (fun _ i hi => ⟨i, hi⟩) (by decide : stateFolder ≠ "..")
  rw [h.leads.holding_self] at hmade
  cases hlookup : entries.lookup stateFolder with
  | none =>
    have hinner := h.state
    rw [hlookup] at hinner hmade
    cases hinner
    rw [Node.putEntry_of_lookup_eq_none hlookup]
    refine ⟨hmade (fun node hnode => by cases hnode), ?_⟩
    rw [← Node.putEntry_of_lookup_eq_none hlookup]
    exact Node.keeps_putEntry (fun below hbelow => by rw [hlookup] at hbelow; cases hbelow) _
  | some node =>
    have hinner := h.state
    rw [hlookup] at hinner hmade
    cases hinner
    rw [Node.putEntry_of_lookup hlookup]
    exact ⟨hmade (fun node hnode => ⟨inner, (Option.some.inj hnode).symm⟩), fun _ i hi => ⟨i, hi⟩⟩

/-- What stands in the state folder behind a save. -/
theorem keeps_saved (node : Node) : (Node.folder inner).Keeps
    (.folder (putEntry fileName node (inner.filter fun e => e.1 ≠ temporaryName))) := by
  refine Node.keeps_of_lookup fun name below hbelow => ?_
  rw [Node.lookup_putEntry, if_neg, Node.lookup_filter_ne, if_neg, hbelow]
  · rintro rfl
    exact h.temporary below hbelow
  · rintro rfl
    exact h.file below hbelow

/-- The ledger takes the place of whatever file was there. -/
theorem save_eq_ok (m : Manifest) : ∃ path w', save root m w = .ok path w' ∧
    w'.disk = w.disk.holding above (putEntry stateFolder (.folder (putEntry fileName
      (.file (encode m.toJson.indented)) (inner.filter fun e => e.1 ≠ temporaryName))) entries) ∧
    w'.disk.Leads (folder root) (above ++ [stateFolder]) (putEntry fileName
      (.file (encode m.toJson.indented)) (inner.filter fun e => e.1 ≠ temporaryName)) := by
  obtain ⟨hmake, hkeeps⟩ := h.makeFolder
  let w₁ : World := { w with disk := w.disk.holding above (putEntry stateFolder (.folder inner) entries) }
  have hmade : Run.change (some "mkdir") (folder root) (·.makeFolder (folder root)) w = .ok () w₁ :=
    Run.change_eq_ok (noZero_folder h.noZero) hmake
  have hfolder : w₁.disk.Leads (folder root) (above ++ [stateFolder]) inner :=
    (h.leads.leads_holding hkeeps).child (by decide) (by rw [Node.lookup_putEntry, if_pos rfl])
  obtain ⟨node, hnode⟩ : ∃ node, node = Node.file (encode m.toJson.indented) := ⟨_, rfl⟩
  have hwrite : w₁.disk.write ((folder root).child temporaryName) (encode m.toJson.indented) =
      .ok (w₁.disk.holding (above ++ [stateFolder]) (putEntry temporaryName node inner)) := by
    have hwritten := hfolder.write_holding (fun _ i hi => ⟨i, hi⟩) (by decide : temporaryName ≠ "..")
      h.temporary (encode m.toJson.indented)
    rw [hfolder.holding_self, ← hnode] at hwritten
    exact hwritten
  have hmove : (w₁.disk.holding (above ++ [stateFolder]) (putEntry temporaryName node inner)).move
      ((folder root).child temporaryName) ((folder root).child fileName) =
      .ok (w₁.disk.holding (above ++ [stateFolder]) (putEntry fileName node
        (inner.filter fun e => e.1 ≠ temporaryName))) := by
    rw [hfolder.move_holding (Node.keeps_putEntry h.temporary node) (by decide) (by decide)
      (by rw [Node.lookup_putEntry, if_pos rfl])
      (fun below hbelow => by
        rw [Node.lookup_putEntry, if_neg (by decide)] at hbelow
        exact h.file below hbelow), Node.filter_putEntry]
  let w₂ : World := { w₁ with
    disk := w₁.disk.holding (above ++ [stateFolder]) (putEntry temporaryName node inner) }
  have hwritten : Run.change none ((folder root).child temporaryName)
      (·.write ((folder root).child temporaryName) (encode m.toJson.indented)) w₁ = .ok () w₂ :=
    Run.change_eq_ok (noZero_child h.noZero _ (by decide)) hwrite
  have hmoved : Run.change none ((folder root).child fileName)
      (·.move ((folder root).child temporaryName) ((folder root).child fileName)) w₂ = .ok () _ :=
    Run.change_eq_ok (noZero_child h.noZero _ (by decide)) hmove
  rw [← hnode]
  refine ⟨(folder root).child fileName, { w₁ with disk := _ }, ?_, ?_,
    hfolder.leads_holding (h.keeps_saved node)⟩
  · rw [save]
    refine (Run.bind_of_eq_ok hmade).trans ?_
    refine (Run.bind_congr (Run.tryCatch_bind hwritten) _).trans ?_
    exact Run.bind_of_eq_ok (Run.tryCatch_of_eq_ok hmoved)
  · change w₁.disk.holding _ _ = _
    rw [h.leads.holding_child, Node.putEntry_putEntry]

/-- A ledger that is saved is loaded again with all that it held, in the same order. What its file held
before does not matter. -/
theorem load_save {m : Manifest} (hplain : m.IsPlain) (now : String) :
    ∃ path w', save root m w = .ok path w' ∧ load now root w' = .ok (some m) w' := by
  obtain ⟨path, w', hsave, -, hleads⟩ := h.save_eq_ok m
  exact ⟨path, w', hsave, load_of_leads h.noZero now hplain hleads
    (by rw [Node.lookup_putEntry, if_pos rfl])⟩

end IsWritable

/-- Text that is no ledger gives way to one with a text beyond ASCII and a negative seed. -/
theorem load_save_of_broken : ∃ (w : World) (m : Manifest) (path : Path) (w' : World),
    w.disk = { root := .folder [("p", .folder [(stateFolder, .folder [(fileName, .file [0x7b])])])] } ∧
      m.seed = .int (-7) ∧ (∃ record, m.files = [("src/\u00e4😀.js", record)]) ∧
      save ⟨true, ["p"]⟩ m w = .ok path w' ∧ load "" ⟨true, ["p"]⟩ w' = .ok (some m) w' := by
  have hshort : ∀ n : Int, n.natAbs < 2 ^ 8 → (Json.int n).IsPlain := fun n hn =>
    (isShort_of_lt (k := 8) hn (by decide)).lt
  let w : World := ⟨{ root := .folder [("p", .folder [(stateFolder, .folder [(fileName, .file [0x7b])])])] },
    [], [], []⟩
  let point : PointEntry := ⟨.str "754ab319", .str "main", .int 0, .int 2, .int 4, .int 14⟩
  let record : FileRecord := ⟨.str "javascript", .str "sha256:0", .str "sha256:1", [point], true⟩
  let m : Manifest := ⟨.int 1, .str "2000-01-02T03:04:05+00:00", .int (-7), .str Mode.medium,
    [("src/\u00e4😀.js", record)], [.str "flake-monster.runtime.js"]⟩
  have hpoint : point.IsPlain := ⟨trivial, trivial, hshort _ (by decide), hshort _ (by decide),
    hshort _ (by decide), hshort _ (by decide)⟩
  have hrecord : record.IsPlain :=
    ⟨trivial, trivial, trivial, fun p hp => List.mem_singleton.mp hp ▸ hpoint⟩
  have hplain : m.IsPlain := ⟨hshort _ (by decide), trivial, hshort _ (by decide), trivial,
    List.nodup_singleton _, fun f hf => List.mem_singleton.mp hf ▸ hrecord,
    fun v hv => List.mem_singleton.mp hv ▸ trivial⟩
  have hwritable : IsWritable w.disk ⟨true, ["p"]⟩ ["p"]
      [(stateFolder, .folder [(fileName, .file [0x7b])])] [(fileName, .file [0x7b])] :=
    ⟨⟨rfl, rfl⟩, by decide, rfl, fun _ hbelow => (by cases hbelow), fun _ hbelow => (by cases hbelow)⟩
  obtain ⟨path, w', hsave, hload⟩ := hwritable.load_save hplain ""
  exact ⟨w, m, path, w', rfl, rfl, ⟨record, rfl⟩, hsave, hload⟩

theorem load_of_not_isFile (now : String)
    (hfile : w.disk.isFile ((folder root).child fileName) = false) : load now root w = .ok none w := by
  have hget : (get : Run World) w = .ok w w := rfl
  rw [load, Run.bind_of_eq_ok hget]
  simp only [hfile]
  rfl

/-! ## Behind the entries of a project -/

section Project

variable {d : Disk} {above : List String} {entries others : List (String × Node)}
  {content : List String → Bytes → Bytes} (h : IsProject d root above entries)
  (hnone : entries.lookup stateFolder = none)
  (hw : w.disk = d.overlaid above content entries others)

include h hnone hw

theorem leads_root : w.disk.Leads root above (overlayIn content entries ++ others) ∧
    (overlayIn content entries ++ others).lookup stateFolder = others.lookup stateFolder := by
  rw [hw]
  exact ⟨h.leads.leads_holding Node.keeps_overlayIn, Node.lookup_overlayIn_append_of_none hnone⟩

theorem leads_folder (hlookup : others.lookup stateFolder = some (.folder inner)) :
    w.disk.Leads (folder root) (above ++ [stateFolder]) inner := by
  obtain ⟨hleads, hstate⟩ := leads_root h hnone hw
  exact hleads.child (by decide) (hstate.trans hlookup)

theorem isFile_eq_false
    (hothers : others.lookup stateFolder = none ∨ others.lookup stateFolder = some (.folder [])) :
    w.disk.isFile ((folder root).child fileName) = false := by
  rcases hothers with hothers | hothers
  · obtain ⟨hleads, hstate⟩ := leads_root h hnone hw
    have hnames : ((folder root).child fileName).names = root.names ++ [stateFolder, fileName] := by
      simp [folder, Path.child]
    have hat : w.disk.root.at? (above ++ [stateFolder]) = none := by
      rw [Node.at?_append, hleads.folder, Option.bind_some, Node.at?, hstate, hothers]
      rfl
    have hlocate : w.disk.locate ((folder root).child fileName) =
        .error ⟨.missing, ((folder root).child fileName).text, none⟩ := by
      rw [Disk.locate, hnames, Disk.follow_append hleads.follow hleads.folder (by simp), Disk.follow,
        if_neg (by decide), if_neg (by decide), hat]
      rfl
    rw [Disk.isFile, Disk.read, hlocate]
    rfl
  · have hfolder := leads_folder h hnone hw hothers
    have hlocate : w.disk.locate ((folder root).child fileName) =
        .ok ((above ++ [stateFolder]) ++ [fileName]) := by
      have hchild := hfolder.locate_child (fun _ i hi => ⟨i, hi⟩) (by decide : fileName ≠ "..")
      rw [hfolder.holding_self] at hchild
      exact hchild
    have hat : w.disk.root.at? ((above ++ [stateFolder]) ++ [fileName]) = none := by
      rw [Node.at?_append, hfolder.folder]
      rfl
    have hread : w.disk.read ((folder root).child fileName) =
        Disk.failAt ((folder root).child fileName) .missing := by
      rw [Disk.read_of_locate hlocate, hat]
    rw [Disk.isFile, hread]
    rfl

/-- A ledger that was written is read back. -/
theorem load_eq_some (now : String) {m : Manifest} (hplain : m.IsPlain)
    (hothers : others.lookup stateFolder = some (.folder [fileEntry m])) :
    load now root w = .ok (some m) w :=
  load_of_leads h.noZero now hplain (leads_folder h hnone hw hothers) List.lookup_cons_self

/-- The ledger is the only file of its folder once it is written. -/
theorem save_eq_ok (m : Manifest)
    (hothers : others.lookup stateFolder = none ∨ others.lookup stateFolder = some (.folder [])) :
    ∃ path w', save root m w = .ok path w' ∧
      w'.disk = d.overlaid above content entries
        (putEntry stateFolder (.folder [fileEntry m]) others) := by
  obtain ⟨hleads, hstate⟩ := leads_root h hnone hw
  have hwritable : IsWritable w.disk root above (overlayIn content entries ++ others) [] :=
    ⟨hleads, h.noZero, by rw [hstate]; rcases hothers with h | h <;> rw [h] <;> rfl,
      fun _ hbelow => (by cases hbelow), fun _ hbelow => (by cases hbelow)⟩
  obtain ⟨path, w', hsave, hdisk, -⟩ := hwritable.save_eq_ok m
  refine ⟨path, w', hsave, hdisk.trans ?_⟩
  have hnone' : (overlayIn content entries).lookup stateFolder = none := by
    rw [Node.lookup_overlayIn, hnone]
    rfl
  rw [hw, Disk.overlaid, Disk.overlaid, h.leads.holding_holding, Node.putEntry_append_of_none hnone']
  rfl

/-- The folder of the ledger stays. -/
theorem delete_eq_ok {m : Manifest}
    (hothers : others.lookup stateFolder = some (.folder [fileEntry m])) :
    ∃ w', delete root w = .ok () w' ∧
      w'.disk = d.overlaid above content entries (putEntry stateFolder (.folder []) others) := by
  have hfolder := leads_folder h hnone hw hothers
  have hremove : w.disk.remove ((folder root).child fileName) =
      .ok (w.disk.holding (above ++ [stateFolder]) []) := by
    have hremoved := hfolder.remove_holding (fun _ i hi => ⟨i, hi⟩) (by decide : fileName ≠ "..")
      (fun node hnode => by
        rw [fileEntry, List.lookup_cons_self] at hnode
        cases hnode
        exact ⟨_, rfl⟩)
    rw [hfolder.holding_self, List.filter_cons_of_neg (by simp [fileEntry])] at hremoved
    exact hremoved
  have hend : w.disk.holding (above ++ [stateFolder]) [] = d.overlaid above content entries
      (putEntry stateFolder (.folder []) others) := by
    rw [hw, Disk.overlaid, h.leads.holding_child, Node.putEntry_append_of_none, Disk.overlaid]
    rw [Node.lookup_overlayIn, hnone]
    rfl
  rw [hend] at hremove
  have hdeleted : Run.change (some "unlink") ((folder root).child fileName)
      (·.remove ((folder root).child fileName)) w = .ok () _ :=
    Run.change_eq_ok (noZero_child h.noZero _ (by decide)) hremove
  exact ⟨_, hdeleted, rfl⟩

end Project
end DelayInjection.Ledger
