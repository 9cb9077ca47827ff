import DelayInjection.Proofs.Disk.Path

/-! A folder of a disk that a path leads to, while the disk holds other entries in its place. -/

namespace DelayInjection.Disk

open Node (Keeps isFormed isFormedIn isProper overlay overlayIn replaced)
open Text.Utf8 (Bytes)

/-- The path leads to the names, and there is a folder with the entries. -/
structure Leads (d : Disk) (root : Path) (above : List String) (entries : List (String × Node)) :
    Prop where
  follow : follow d.root [] root.names = .ok above
  folder : d.root.at? above = some (.folder entries)

/-- The disk with other entries in one of its folders. -/
def holding (d : Disk) (above : List String) (entries : List (String × Node)) : Disk :=
  { d with root := Node.put (.folder entries) above d.root }

/-- The file at the end of a path refuses to be rewritten. -/
def isLocked (d : Disk) (path : Path) : Bool :=
  match d.locate path with
  | .ok names => d.locked.contains names
  | .error _ => false

namespace Leads

variable {d : Disk} {root : Path} {above : List String} {entries entries' : List (String × Node)}
  (h : d.Leads root above entries)

include h

theorem holding_self : d.holding above entries = d := by
  rw [holding, Node.put_self h.folder]

theorem holding_holding (entries'' : List (String × Node)) :
    (d.holding above entries').holding above entries'' = d.holding above entries'' := by
  rw [holding, holding, holding, Node.put_put h.folder]

theorem at?_holding (names : List String) :
    (d.holding above entries').root.at? (above ++ names) = (Node.folder entries').at? names :=
  Node.at?_put h.folder names

theorem folder_holding :
    (d.holding above entries').root.at? above = some (.folder entries') := by
  have hat : _ = (Node.folder entries').at? [] := h.at?_holding []
  rw [List.append_nil] at hat
  exact hat

theorem holding_put (node : Node) {first : String} (names : List String)
    {entries'' : List (String × Node)}
    (hput : Node.put node (first :: names) (.folder entries') = .folder entries'') :
    { d.holding above entries' with
      root := Node.put node (above ++ first :: names) (d.holding above entries').root } =
      d.holding above entries'' := by
  rw [Node.put_append h.folder_holding, hput, holding, holding, Node.put_put h.folder]

section Kept

variable (hkeeps : (Node.folder entries).Keeps (.folder entries'))

include hkeeps

theorem leads_holding : (d.holding above entries').Leads root above entries' where
  follow := follow_of_keeps (Keeps.put h.folder hkeeps) h.follow
  folder := h.folder_holding

theorem entriesAt_holding : (d.holding above entries').entriesAt root = entries' := by
  have hleads := h.leads_holding hkeeps
  have hlocate : (d.holding above entries').locate root = .ok above := by
    rw [locate, hleads.follow]
    rfl
  exact entriesAt_of_locate hlocate hleads.folder

/-- A name in the folder can be asked for, whether it is there or not. -/
theorem locate_child {name : String} (hname : name ≠ "..") :
    (d.holding above entries').locate (root.join ⟨false, [name]⟩) = .ok (above ++ [name]) := by
  have hleads := h.leads_holding hkeeps
  have hfollow : Disk.follow (d.holding above entries').root [] (root.names ++ [name]) =
      .ok (above ++ [name]) := by
    rw [follow_append hleads.follow hleads.folder (by simp), Disk.follow, if_neg hname]
    rfl
  rw [locate, Path.join]
  change Except.mapError _ (Disk.follow _ [] (root.names ++ [name])) = _
  rw [hfollow]
  rfl

theorem locate_below {names : List String} {node : Node} (hne : names ≠ [])
    (hproper : names.all isProper = true)
    (hat : (Node.folder entries').at? names = some node) :
    (d.holding above entries').locate (root.join ⟨false, names⟩) = .ok (above ++ names) := by
  have hleads := h.leads_holding hkeeps
  have hfollow : Disk.follow (d.holding above entries').root [] (root.names ++ names) =
      .ok (above ++ names) := by
    rw [follow_append hleads.follow hleads.folder hne]
    exact follow_below ((h.at?_holding names).trans hat) hproper
  rw [locate, Path.join]
  change Except.mapError _ (Disk.follow _ [] (root.names ++ names)) = _
  rw [hfollow]
  rfl

theorem read_holding {names : List String} {bytes : Bytes}
    (hproper : names.all isProper = true)
    (hat : (Node.folder entries').at? names = some (.file bytes)) :
    (d.holding above entries').read (root.join ⟨false, names⟩) = .ok bytes := by
  have hne : names ≠ [] := by
    rintro rfl
    cases hat
  rw [read_of_locate (h.locate_below hkeeps hne hproper hat), h.at?_holding, hat]

theorem rewrite_holding {first : String} {names : List String} {old bytes : Bytes}
    {entries'' : List (String × Node)}
    (hproper : (first :: names).all isProper = true)
    (hat : (Node.folder entries').at? (first :: names) = some (.file old))
    (hput : Node.put (.file bytes) (first :: names) (.folder entries') = .folder entries'') :
    (d.holding above entries').rewrite (root.join ⟨false, first :: names⟩) bytes =
      if d.locked.contains (above ++ first :: names)
        then failAt (root.join ⟨false, first :: names⟩) .readOnly
        else .ok (d.holding above entries'') := by
  have hlocate := h.locate_below hkeeps (by simp) hproper hat
  rw [rewrite, hlocate]
  change (if d.locked.contains _ then _ else _) = _
  congr 1
  rw [write_of_locate hlocate, h.at?_holding, hat]
  exact congrArg Except.ok (h.holding_put _ _ hput)

/-- A file takes the place of another one, or a new one comes behind all entries. -/
theorem write_holding {name : String} (hname : name ≠ "..")
    (hfile : ∀ inner, entries'.lookup name ≠ some (.folder inner)) (bytes : Bytes) :
    (d.holding above entries').write (root.join ⟨false, [name]⟩) bytes =
      .ok (d.holding above (Node.putEntry name (.file bytes) entries')) := by
  have hat : (Node.folder entries').at? [name] = entries'.lookup name := by
    rw [Node.at?]
    cases entries'.lookup name <;> rfl
  have hput : { d.holding above entries' with
      root := Node.put (.file bytes) (above ++ [name]) (d.holding above entries').root } =
      d.holding above (Node.putEntry name (.file bytes) entries') :=
    h.holding_put _ [] (by rw [Node.put, Node.put])
  rw [write_of_locate (h.locate_child hkeeps hname), h.at?_holding, hat, hput]
  cases hlookup : entries'.lookup name with
  | none => rfl
  | some node =>
    cases node with
    | file old => rfl
    | folder inner => exact absurd hlookup (hfile inner)

theorem write_holding_of_folder {name : String} (hname : name ≠ "..") {inner : List (String × Node)}
    (hlookup : entries'.lookup name = some (.folder inner)) (bytes : Bytes) :
    (d.holding above entries').write (root.join ⟨false, [name]⟩) bytes =
      failAt (root.join ⟨false, [name]⟩) .isDirectory := by
  have hat : (Node.folder entries').at? [name] = some (.folder inner) := by
    rw [Node.at?, hlookup]
    rfl
  rw [write_of_locate (h.locate_child hkeeps hname), h.at?_holding, hat]

theorem remove_holding {name : String} (hname : name ≠ "..")
    (hfile : ∀ node, entries'.lookup name = some node → ∃ bytes, node = .file bytes) :
    (d.holding above entries').remove (root.join ⟨false, [name]⟩) =
      .ok (d.holding above (entries'.filter fun e => e.1 ≠ name)) := by
  have hlast : (root.join ⟨false, [name]⟩).names.getLast? ≠ some ".." := by
    rw [show (root.join ⟨false, [name]⟩).names = root.names ++ [name] from rfl,
      List.getLast?_concat, ne_eq, Option.some.injEq]
    exact hname
  rw [remove, h.locate_child hkeeps hname]
  simp only [if_neg hlast, h.at?_holding]
  rw [Node.at?]
  cases hlookup : entries'.lookup name with
  | none => rw [Node.filter_of_lookup_eq_none hlookup, Option.bind_none]
  | some node =>
    obtain ⟨bytes, rfl⟩ := hfile node hlookup
    rw [Option.bind_some, Node.at?]
    have hleads := h.leads_holding hkeeps
    simp only [Node.erase_append hleads.folder]
    rw [holding, Node.put_put h.folder]
    rfl

theorem makeFolder_holding {name : String} (hname : name ≠ "..")
    (hfolder : ∀ node, entries'.lookup name = some node → ∃ inner, node = .folder inner) :
    (d.holding above entries').makeFolder (root.child name) =
      .ok (d.holding above (if (entries'.lookup name).isSome then entries'
        else entries' ++ [(name, .folder [])])) := by
  have hlocate : (d.holding above entries').locate (root.child name) = .ok (above ++ [name]) :=
    h.locate_child hkeeps hname
  have hat : (d.holding above entries').root.at? (above ++ [name]) =
      (entries'.lookup name).bind (Node.at? []) := h.at?_holding [name]
  rw [makeFolder, hlocate]
  simp only [hat]
  cases hlookup : entries'.lookup name with
  | none =>
    refine congrArg Except.ok (h.holding_put _ [] ?_)
    rw [Node.put, Node.put, Node.putEntry_of_lookup_eq_none hlookup]
    rfl
  | some node =>
    obtain ⟨inner, rfl⟩ := hfolder node hlookup
    rfl

/-- A file takes the place of another one in the folder. -/
theorem move_holding {name target : String} (hname : name ≠ "..") (htarget : target ≠ "..")
    {node : Node} (hlookup : entries'.lookup name = some node)
    (hfile : ∀ inner, entries'.lookup target ≠ some (.folder inner)) :
    (d.holding above entries').move (root.child name) (root.child target) =
      .ok (d.holding above (Node.putEntry target node (entries'.filter fun e => e.1 ≠ name))) := by
  have hleads := h.leads_holding hkeeps
  have hsource : (d.holding above entries').locate (root.child name) = .ok (above ++ [name]) :=
    h.locate_child hkeeps hname
  have hplace : (d.holding above entries').locate (root.child target) = .ok (above ++ [target]) :=
    h.locate_child hkeeps htarget
  have hat : (d.holding above entries').root.at? (above ++ [name]) = some node := by
    rw [h.at?_holding [name], Node.at?, hlookup]
    rfl
  have hat' : (d.holding above entries').root.at? (above ++ [target]) =
      (entries'.lookup target).bind (Node.at? []) := h.at?_holding [target]
  have hput : Node.put node (above ++ [target]) ((d.holding above entries').root.erase (above ++ [name])) =
      Node.put (.folder (Node.putEntry target node (entries'.filter fun e => e.1 ≠ name))) above
        d.root := by
    rw [Node.erase_append hleads.folder, holding]
    simp only [Node.put_put h.folder]
    have hbelow := @Node.at?_put _ _ (.folder (entries'.filter fun e => e.1 ≠ name)) _ h.folder []
    rw [List.append_nil] at hbelow
    rw [Node.put_append hbelow, Node.put_put h.folder, Node.put, Node.put]
  rw [move_of_locate hsource hplace]
  have hdisk : ({ d.holding above entries' with
      root := Node.put node (above ++ [target])
        ((d.holding above entries').root.erase (above ++ [name])) } : Disk) =
      d.holding above (Node.putEntry target node (entries'.filter fun e => e.1 ≠ name)) := by
    rw [hput]
    rfl
  rw [hat, hat']
  cases htarget' : entries'.lookup target with
  | none => exact congrArg Except.ok hdisk
  | some other =>
    cases other with
    | file bytes => exact congrArg Except.ok hdisk
    | folder inner => exact absurd htarget' (hfile inner)

end Kept

/-! ## A folder in the folder -/

theorem child {name : String} {inner : List (String × Node)} (hname : name ≠ "..")
    (hlookup : entries.lookup name = some (.folder inner)) :
    d.Leads (root.child name) (above ++ [name]) inner where
  follow := by
    rw [show (root.child name).names = root.names ++ [name] from rfl,
      follow_append h.follow h.folder (by simp), Disk.follow, if_neg hname]
    rfl
  folder := by
    rw [Node.at?_append, h.folder, Option.bind_some, Node.at?, hlookup]
    rfl

theorem holding_child {name : String} (inner : List (String × Node)) :
    (d.holding above entries').holding (above ++ [name]) inner =
      d.holding above (Node.putEntry name (.folder inner) entries') := by
  refine h.holding_put (.folder inner) [] ?_
  rw [Node.put, Node.put]

end Leads

/-! ## Other bytes in the files of the folder, and further entries behind them -/

namespace Node

variable {content : List String → Bytes → Bytes} {entries others : List (String × Node)}

theorem lookup_overlayIn_append {name : String} {node : Node} (h : entries.lookup name = some node) :
    (overlayIn content entries ++ others).lookup name =
      some (overlay (fun names => content (name :: names)) node) := by
  rw [List.lookup_append, lookup_overlayIn, h]
  rfl

theorem lookup_overlayIn_append_of_none {name : String} (h : entries.lookup name = none) :
    (overlayIn content entries ++ others).lookup name = others.lookup name := by
  rw [List.lookup_append, lookup_overlayIn, h]
  rfl

theorem keeps_overlayIn : (folder entries).Keeps (folder (overlayIn content entries ++ others)) := by
  intro names inner hat
  cases names with
  | nil => exact ⟨_, rfl⟩
  | cons name names =>
    rw [at?] at hat ⊢
    obtain ⟨node, hnode, hat⟩ := Option.bind_eq_some_iff.mp hat
    rw [lookup_overlayIn_append hnode, Option.bind_some, at?_overlay, hat]
    exact ⟨_, rfl⟩

theorem at?_overlayIn {names : List String} {bytes : Bytes}
    (hat : (folder entries).at? names = some (file bytes)) :
    (folder (overlayIn content entries ++ others)).at? names = some (file (content names bytes)) := by
  cases names with
  | nil => cases hat
  | cons name names =>
    rw [at?] at hat ⊢
    obtain ⟨node, hnode, hat⟩ := Option.bind_eq_some_iff.mp hat
    rw [lookup_overlayIn_append hnode, Option.bind_some, at?_overlay, hat, Option.map_some, overlay,
      List.append_nil]

theorem put_overlayIn (hformed : isFormedIn entries = true) {names : List String} {old : Bytes}
    (hat : (folder entries).at? names = some (file old)) (bytes : Bytes) :
    put (file bytes) names (folder (overlayIn content entries ++ others)) =
      folder (overlayIn (replaced content names bytes) entries ++ others) := by
  cases names with
  | nil => cases hat
  | cons name names =>
    have hput : put (file bytes) (name :: names) (overlay content (folder entries)) =
        overlay (replaced content (name :: names) bytes) (folder entries) :=
      put_overlay (by rw [isFormed, hformed]) hat bytes
    rw [at?] at hat
    obtain ⟨node, hnode, hat⟩ := Option.bind_eq_some_iff.mp hat
    have hlookup : (overlayIn content entries).lookup name =
        some (overlay (fun names => content (name :: names)) node) := by
      rw [lookup_overlayIn, hnode]
      rfl
    rw [overlay, overlay, put, hlookup, folder.injEq] at hput
    rw [put, lookup_overlayIn_append hnode, putEntry_append hlookup, hput]

end Node

/-- The disk with other bytes in the files of a folder, and other entries behind them. -/
def overlaid (d : Disk) (above : List String) (content : List String → Bytes → Bytes)
    (entries others : List (String × Node)) : Disk :=
  d.holding above (overlayIn content entries ++ others)

theorem Leads.overlaid_id {d : Disk} {root : Path} {above : List String}
    {entries : List (String × Node)} (h : d.Leads root above entries) :
    d.overlaid above (fun _ bytes => bytes) entries [] = d := by
  rw [overlaid, Node.overlayIn_id, List.append_nil, h.holding_self]

/-- An entry that is not changed is read as before, whatever is known of it. -/
theorem Leads.read_child_overlaid {d : Disk} {root : Path} {above : List String}
    {entries others : List (String × Node)} {content : List String → Bytes → Bytes}
    (h : d.Leads root above entries) {name : String} (hname : name ≠ "..")
    (hcontent : ∀ bytes, entries.lookup name = some (.file bytes) → content [name] bytes = bytes)
    (hothers : others.lookup name = none) :
    (d.overlaid above content entries others).read (root.child name) = d.read (root.child name) := by
  have hlocate : (d.overlaid above content entries others).locate (root.child name) =
      .ok (above ++ [name]) := h.locate_child Node.keeps_overlayIn hname
  have hlocate' : d.locate (root.child name) = .ok (above ++ [name]) := by
    have hchild := h.locate_child (fun _ i hi => ⟨i, hi⟩) hname
    rw [h.holding_self] at hchild
    exact hchild
  have hat : (d.overlaid above content entries others).root.at? (above ++ [name]) =
      ((overlayIn content entries ++ others).lookup name).bind (Node.at? []) := h.at?_holding [name]
  have hat' : d.root.at? (above ++ [name]) = (entries.lookup name).bind (Node.at? []) := by
    rw [Node.at?_append, h.folder]
    rfl
  rw [read_of_locate hlocate, read_of_locate hlocate', hat, hat', List.lookup_append, Node.lookup_overlayIn, hothers, Option.or_none]
  cases hentry : entries.lookup name with
  | none => rfl
  | some node =>
    cases node with
    | folder inner => rfl
    | file bytes =>
      rw [Option.map_some, Node.overlay, hcontent bytes hentry]

end DelayInjection.Disk
