import DelayInjection.Proofs.Disk.Frame
import DelayInjection.Proofs.Disk.Narrowing
import DelayInjection.Proofs.Text.Utf8

/-! A disk with the texts of its files edited, each by the names that lead to the file. Paths lead where
they led before, bytes that are no text stay as they are, and to rewrite one file is such an edit. -/

namespace DelayInjection.Disk

open Node (isFormed overlay overlayIn replaced)
open Text.Utf8 (Bytes decode encode)

/-- The bytes of the edited text. -/
def editedBytes (edit : List Char → List Char) (bytes : Bytes) : Bytes :=
  match decode bytes with
  | .ok text => encode (edit text)
  | .error _ => bytes

/-- The disk with an edit for each place. -/
def edited (d : Disk) (edit : List String → List Char → List Char) : Disk :=
  { d with root := d.root.overlay fun names => editedBytes (edit names) }

section Bytes

variable {bytes : Bytes} {edit : List Char → List Char}

theorem editedBytes_of_decode {text : List Char} (h : decode bytes = .ok text) :
    editedBytes edit bytes = encode (edit text) := by
  rw [editedBytes, h]

theorem decode_editedBytes (edit : List Char → List Char) (bytes : Bytes) :
    decode (editedBytes edit bytes) = (decode bytes).map edit := by
  unfold editedBytes
  cases h : decode bytes with
  | ok text => exact Text.Utf8.decode_encode _
  | error e => exact h

theorem editedBytes_editedBytes (next edit : List Char → List Char) (bytes : Bytes) :
    editedBytes next (editedBytes edit bytes) = editedBytes (next ∘ edit) bytes := by
  cases h : decode bytes with
  | ok text =>
    rw [editedBytes_of_decode h, editedBytes_of_decode h,
      editedBytes_of_decode (Text.Utf8.decode_encode _)]
    rfl
  | error e => simp only [editedBytes, h]

theorem editedBytes_eq_self (h : ∀ text, decode bytes = .ok text → edit text = text) :
    editedBytes edit bytes = bytes := by
  cases hdecode : decode bytes with
  | ok text => rw [editedBytes_of_decode hdecode, h text hdecode, Text.Utf8.encode_of_decode hdecode]
  | error e => simp only [editedBytes, hdecode]

end Bytes

namespace Node

mutual

theorem overlay_overlay (content next : List String → Bytes → Bytes) : ∀ root : Node,
    overlay next (overlay content root) = overlay (fun names => next names ∘ content names) root
  | file _ => rfl
  | folder entries => by rw [overlay, overlay, overlay, overlayIn_overlayIn]

theorem overlayIn_overlayIn (content next : List String → Bytes → Bytes) :
    ∀ entries : List (String × Node), overlayIn next (overlayIn content entries) =
      overlayIn (fun names => next names ∘ content names) entries
  | [] => rfl
  | (name, node) :: rest => by
    rw [overlayIn, overlayIn, overlayIn, overlay_overlay, overlayIn_overlayIn]

end

end Node

theorem follow_overlay (content : List String → Bytes → Bytes) (root : Node)
    (reached names : List String) :
    follow (overlay content root) reached names = follow root reached names := by
  induction names generalizing reached with
  | nil => rfl
  | cons name names ih =>
    rw [follow, follow, ih, Node.at?_overlay]
    split
    · rfl
    · split
      · rfl
      · cases root.at? (reached ++ [name]) with
        | none => rfl
        | some node =>
          cases node with
          | file bytes => rfl
          | folder entries => exact ih _

variable {d : Disk} {path : Path} {names : List String} {edit next : List String → List Char → List Char}

theorem locate_edited (d : Disk) (edit : List String → List Char → List Char) (path : Path) :
    (d.edited edit).locate path = d.locate path := by
  rw [locate, locate, edited, follow_overlay]

theorem isLocked_edited (d : Disk) (edit : List String → List Char → List Char) (path : Path) :
    (d.edited edit).isLocked path = d.isLocked path := by
  rw [isLocked, isLocked, locate_edited]
  rfl

/-! ## One edit behind another -/

theorem edited_edited (d : Disk) (edit next : List String → List Char → List Char) :
    (d.edited edit).edited next = d.edited fun names => next names ∘ edit names := by
  rw [edited, edited, edited, Node.overlay_overlay]
  congr 2
  funext names bytes
  exact editedBytes_editedBytes (next names) (edit names) bytes

/-- Only the texts that are there matter. -/
theorem edited_congr (hformed : d.root.isFormed = true)
    (h : ∀ names bytes text, d.root.at? names = some (.file bytes) → decode bytes = .ok text →
      edit names text = next names text) : d.edited edit = d.edited next := by
  rw [edited, edited]
  congr 1
  refine Node.overlay_congr hformed fun names bytes hat => ?_
  cases hdecode : decode bytes with
  | ok text =>
    rw [editedBytes_of_decode hdecode, editedBytes_of_decode hdecode, h names bytes text hat hdecode]
  | error e => simp only [editedBytes, hdecode]

theorem edited_id (d : Disk) : (d.edited fun _ => id) = d := by
  have hbytes : (fun (_ : List String) => editedBytes id) = fun _ bytes => bytes := by
    funext names bytes
    exact editedBytes_eq_self fun text _ => rfl
  rw [edited, hbytes, Node.overlay_id]

theorem edited_eq_self (hformed : d.root.isFormed = true)
    (h : ∀ names bytes text, d.root.at? names = some (.file bytes) → decode bytes = .ok text →
      edit names text = text) : d.edited edit = d :=
  (edited_congr hformed h).trans (edited_id d)

theorem isFormed_edited (h : d.root.isFormed = true) : (d.edited edit).root.isFormed = true :=
  (Node.isFormed_overlay _ _).trans h

/-- Only files whose texts change are touched. -/
theorem agreesOff_edited {touched : List String → Prop}
    (h : ∀ names bytes text, d.root.at? names = some (.file bytes) → decode bytes = .ok text →
      ¬ touched names → edit names text = text) :
    d.root.AgreesOff touched (d.edited edit).root :=
  Node.AgreesOff.overlay fun names bytes hat hnot =>
    editedBytes_eq_self fun text hdecode => h names bytes text hat hdecode hnot

/-! ## Rewriting -/

/-- A file that is rewritten is edited in its place, unless it is locked. -/
theorem rewrite_eq_edited {bytes : Bytes} {text : List Char} (hformed : d.root.isFormed = true)
    (hlocate : d.locate path = .ok names) (hat : d.root.at? names = some (.file bytes))
    (hdecode : decode bytes = .ok text) (hothers : ∀ others, others ≠ names → edit others = id) :
    d.rewrite path (encode (edit names text)) =
      if d.isLocked path then failAt path .readOnly else .ok (d.edited edit) := by
  have hput : Node.put (.file (encode (edit names text))) names d.root =
      d.root.overlay fun names => editedBytes (edit names) := by
    have hself := @Node.put_overlay (fun _ bytes => bytes) d.root names bytes hformed hat
      (encode (edit names text))
    rw [Node.overlay_id] at hself
    rw [hself]
    refine Node.overlay_congr hformed fun others old hold => ?_
    rw [replaced]
    split
    next heq =>
      subst heq
      rw [hat] at hold
      cases hold
      exact (editedBytes_of_decode hdecode).symm
    next hne =>
      rw [hothers others hne]
      exact (editedBytes_eq_self fun _ _ => rfl).symm
  rw [rewrite, hlocate, isLocked, hlocate]
  dsimp only
  split
  · rfl
  · rw [write_of_locate hlocate, hat, edited, ← hput]

end DelayInjection.Disk
