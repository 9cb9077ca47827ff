import DelayInjection.JavaScript.Layout
import DelayInjection.Proofs.Project.Unmarking

/-! The path by which a file imports the support module. It leads out of the folders of the file, as
many as there are, and no further: to the place at the root where the module is put. -/

namespace DelayInjection

open Disk (Path pieces slashed)

namespace Disk

/-- A name between the slashes of a path that is neither empty nor made of dots alone. -/
structure IsSegment (name : String) : Prop where
  ne_empty : name ≠ ""
  ne_dot : name ≠ "."
  ne_dots : name ≠ ".."
  slash_not_mem : '/' ∉ name.toList

/-! ## Pieces -/

theorem pieces_upward (n : Nat) (rest : List Char) :
    pieces ((String.join (List.replicate n "../")).toList ++ rest) =
      List.replicate n "..".toList ++ pieces rest := by
  induction n with
  | zero => rfl
  | succ n ih =>
    have hstep : (String.join (List.replicate (n + 1) "../")).toList ++ rest =
        "..".toList ++ '/' :: ((String.join (List.replicate n "../")).toList ++ rest) := by
      simp [List.replicate_succ, String.join_cons]
    rw [hstep, pieces_append (by decide), ih]
    rfl

/-- The pieces of a path of segments are the segments. -/
theorem length_pieces_slashed {names : List String} (hne : names ≠ [])
    (hnames : ∀ n ∈ names, IsSegment n) :
    ((pieces (slashed names)).filter fun p => !p.isEmpty).length = names.length := by
  rw [pieces_slashed hne fun n hn => (hnames n hn).slash_not_mem, List.filter_eq_self.mpr,
    List.length_map]
  intro p hp
  obtain ⟨n, hn, rfl⟩ := List.mem_map.mp hp
  rw [Bool.not_eq_true', List.isEmpty_eq_false_iff, ne_eq, String.toList_eq_nil_iff]
  exact (hnames n hn).ne_empty

/-! ## Down and up again -/

namespace Path

/-- One step of leaving pairs of dots behind. -/
def descend (reached : List String) (name : String) : List String :=
  if name = ".." then reached.dropLast else reached ++ [name]

theorem foldl_descend_segments {names : List String} (hnames : ∀ n ∈ names, IsSegment n)
    (reached : List String) : names.foldl descend reached = reached ++ names := by
  induction names generalizing reached with
  | nil => rw [List.foldl_nil, List.append_nil]
  | cons name names ih =>
    have hname : descend reached name = reached ++ [name] :=
      if_neg (hnames name List.mem_cons_self).ne_dots
    rw [List.foldl_cons, hname, ih fun n hn => hnames n (List.mem_cons_of_mem _ hn),
      List.append_assoc, List.singleton_append]

/-- As many pairs of dots as there are folders lead out of the folders. -/
theorem foldl_descend_upward (reached folders : List String) :
    (List.replicate folders.length "..").foldl descend (reached ++ folders) = reached := by
  induction folders using List.reverseRecOn with
  | nil => rw [List.append_nil]; rfl
  | append_singleton folders folder ih =>
    have hup : descend (reached ++ (folders ++ [folder])) ".." = reached ++ folders := by
      rw [descend, if_pos rfl, ← List.append_assoc, List.dropLast_concat]
    rw [List.length_append, List.length_singleton, List.replicate_succ, List.foldl_cons, hup, ih]

theorem resolved_eq (p : Path) : p.resolved = ⟨p.absolute, p.names.foldl descend []⟩ := rfl

end Path
end Disk

namespace JavaScript

open Disk (IsSegment)

variable {folders : List String} {name : String} (hnames : ∀ n ∈ folders ++ [name], IsSegment n)

include hnames

theorem supportPath_eq_of_segments :
    supportPath (String.ofList (slashed (folders ++ [name]))) =
      if folders.length = 0 then "./" ++ adapter.moduleName
      else String.join (List.replicate folders.length "../") ++ adapter.moduleName := by
  have hdepth := Disk.length_pieces_slashed (by simp) hnames
  rw [List.length_append, List.length_singleton] at hdepth
  rw [supportPath, String.toList_ofList, hdepth, Nat.add_sub_cancel]
  rfl

/-- The import says where it starts, so that it is no import of a package. -/
theorem starts_supportPath :
    "./".toList <+: (supportPath (String.ofList (slashed (folders ++ [name])))).toList ∨
      "../".toList <+: (supportPath (String.ofList (slashed (folders ++ [name])))).toList := by
  rw [supportPath_eq_of_segments hnames]
  split
  next =>
    left
    rw [String.toList_append]
    exact List.prefix_append _ _
  next hdepth =>
    right
    obtain ⟨n, hn⟩ := Nat.exists_eq_succ_of_ne_zero hdepth
    rw [hn, List.replicate_succ, String.join_cons, String.toList_append, String.toList_append,
      List.append_assoc]
    exact List.prefix_append _ _

/-- What the path of the import is read as. -/
theorem ofText_supportPath :
    Path.ofText (supportPath (String.ofList (slashed (folders ++ [name])))) =
      ⟨false, List.replicate folders.length ".." ++ [adapter.moduleName]⟩ := by
  have hfirst : ∀ text : List Char, "./".toList <+: text ∨ "../".toList <+: text →
      (text.head? == some '/') = false := by
    rintro text (⟨rest, rfl⟩ | ⟨rest, rfl⟩) <;> rfl
  rw [Path.ofText, hfirst _ (starts_supportPath hnames), supportPath_eq_of_segments hnames]
  split
  next hzero =>
    rw [hzero]
    decide
  next =>
    have hmodule : pieces adapter.moduleName.toList = [adapter.moduleName.toList] := by decide
    have hkept : ∀ n, ((List.replicate n "..".toList ++ [adapter.moduleName.toList]).filter
        fun p => p ≠ [] ∧ p ≠ ['.']) = List.replicate n "..".toList ++ [adapter.moduleName.toList] := by
      intro n
      refine List.filter_eq_self.mpr fun p hp => ?_
      rcases List.mem_append.mp hp with hp | hp
      · rw [List.eq_of_mem_replicate hp]
        decide
      · rw [List.mem_singleton.mp hp]
        decide
    rw [String.toList_append, Disk.pieces_upward, hmodule, hkept, List.map_append,
      List.map_replicate]
    simp

/-- From wherever the project stands, the import of a file in it leads to the module at its root, and
that is the file that a run of injection writes for the adapter. -/
theorem resolved_supportPath (root : Path) :
    let file := Discovery.fileOf (folders ++ [name])
    ((root.join ⟨false, folders⟩).join (Path.ofText (supportPath file))).resolved =
        (root.child "flake-monster.runtime.js").resolved ∧
      ("./".toList <+: (supportPath file).toList ∨ "../".toList <+: (supportPath file).toList) ∧
      ∀ (m m' : Manifest) (w w' : World), Injecting.copySupport root m [adapter] w = .ok m' w' →
        w.disk.write (root.child "flake-monster.runtime.js") (Text.Utf8.encode adapter.moduleText) =
          .ok w'.disk := by
  have hfolders : ∀ n ∈ folders, IsSegment n := fun n hn => hnames n (List.mem_append_left _ hn)
  have hmodule : adapter.moduleName ≠ ".." := by decide
  refine ⟨?_, starts_supportPath hnames, ?_⟩
  · have hup := Path.foldl_descend_upward (root.names.foldl Path.descend []) folders
    rw [Discovery.fileOf, ofText_supportPath hnames]
    simp only [Path.resolved_eq, Path.join, Path.child, Bool.false_eq_true, if_false,
      List.foldl_append, Path.foldl_descend_segments hfolders, hup]
    rfl
  · intro m m' w w' hrun
    obtain ⟨_, w₁, hwrite, hrest⟩ := Run.bind_eq_ok.mp hrun
    cases hrest
    exact Run.of_change_eq_ok hwrite

omit hnames in
/-- A file three folders down, in a project two steps up. -/
theorem resolved_supportPath_deep :
    let root : Disk.Path := ⟨false, ["..", "..", "app"]⟩
    ((root.join ⟨false, ["src", "lib", "io"]⟩).join
        (Path.ofText (supportPath "src/lib/io/user.js"))).resolved =
      (root.child "flake-monster.runtime.js").resolved :=
  have hnames : ∀ n ∈ ["src", "lib", "io"] ++ ["user.js"], IsSegment n := by
    intro n hn
    simp only [List.cons_append, List.nil_append, List.mem_cons, List.not_mem_nil, or_false] at hn
    rcases hn with rfl | rfl | rfl | rfl <;> exact ⟨by decide, by decide, by decide, by decide⟩
  (resolved_supportPath hnames ⟨false, ["..", "..", "app"]⟩).1

end JavaScript
end DelayInjection
