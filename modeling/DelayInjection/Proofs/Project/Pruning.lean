import DelayInjection.Proofs.Glob
import DelayInjection.Proofs.Project.Discovery

/-! Folders that the search for files leaves out. Whether a folder is entered is decided by its own path
with a slash, so a file can only be missed if a pattern takes that path without taking the file's. With
the patterns whose end goes on over everything below a folder this never happens: exactly the files are
found whose own paths are selected. -/

namespace DelayInjection.Discovery

open Disk (Node Path slashed)
open Glob (EndsInStar Token)
open Text.Utf8 (Bytes)

variable {f : Filter} {entries : List (String × Node)} {bytes : Bytes}

/-- A folder on the way to a path is left out only if the path is excluded itself. -/
def Filter.Spares (f : Filter) (path : List Char) : Prop :=
  ∀ folder below, path = folder ++ '/' :: below → f.excludes (folder ++ ['/']) = true →
    f.excludes path = true

/-! ## The walk -/

theorem mem_selectedIn_of_lookup {name : String} {node : Node} {above p : List Char}
    (h : entries.lookup name = some node) (hp : p ∈ selectedAt f name (above ++ name.toList) node) :
    p ∈ selectedIn f above entries := by
  induction entries with
  | nil => cases h
  | cons e entries ih =>
    obtain ⟨first, other⟩ := e
    rw [selectedIn, List.mem_append]
    by_cases hname : name = first
    · subst hname
      rw [List.lookup_cons_self] at h
      cases h
      exact .inl hp
    · rw [Disk.Node.lookup_cons_of_ne hname] at h
      exact .inr (ih h)

/-- The walk comes to a file if it enters the folders that lead to it. -/
theorem mem_selectedAt_of_enters {names : List String} {name : String} {path : List Char} {node : Node}
    (hat : node.at? names = some (.file bytes)) (henters : f.Enters name path names)
    (hselects : f.selects (path ++ below names) = true) :
    path ++ below names ∈ selectedAt f name path node := by
  induction names generalizing name path node with
  | nil =>
    cases hat
    have hpath : path ++ below [] = path := List.append_nil path
    rw [hpath] at hselects ⊢
    rw [selectedAt, if_pos hselects]
    exact List.mem_singleton_self path
  | cons next names ih =>
    cases node with
    | file bytes => cases hat
    | folder entries =>
      obtain ⟨inner, hlookup, hinner⟩ := Option.bind_eq_some_iff.mp hat
      rw [below_cons, slashed_cons, ← List.append_assoc] at hselects ⊢
      rw [selectedAt, if_pos henters.1]
      exact mem_selectedIn_of_lookup hlookup (ih hinner henters.2 hselects)

theorem mem_selectedIn_of_enters {first : String} {names : List String} {above : List Char}
    (hat : (Node.folder entries).at? (first :: names) = some (.file bytes))
    (henters : f.Enters first (above ++ first.toList) names)
    (hselects : f.selects (above ++ slashed (first :: names)) = true) :
    above ++ slashed (first :: names) ∈ selectedIn f above entries := by
  obtain ⟨node, hlookup, hnode⟩ := Option.bind_eq_some_iff.mp hat
  rw [slashed_cons, ← List.append_assoc] at hselects ⊢
  exact mem_selectedIn_of_lookup hlookup (mem_selectedAt_of_enters hnode henters hselects)

/-- If a folder on the way were left out, the whole path would be excluded. -/
theorem enters_of_spares {names : List String} {name : String} {path : List Char}
    (hstate : stateFolder ∉ (name :: names).dropLast)
    (hnot : f.excludes (path ++ below names) = false) (hspares : f.Spares (path ++ below names)) :
    f.Enters name path names := by
  induction names generalizing name path with
  | nil => trivial
  | cons next names ih =>
    have hpath : path ++ below (next :: names) = (path ++ ['/'] ++ next.toList) ++ below names := by
      rw [below_cons, slashed_cons, List.append_assoc _ next.toList]
    rw [List.dropLast_cons_of_ne_nil (by simp), List.mem_cons, not_or] at hstate
    have hfolder : f.excludes (path ++ ['/']) = false := by
      rw [← Bool.not_eq_true]
      intro hexcluded
      have hagain := hspares path (next.toList ++ below names) (by simp [below]) hexcluded
      rw [hnot] at hagain
      cases hagain
    have henters : f.enters name path = true := by
      rw [Filter.enters, hfolder]
      simpa using Ne.symm hstate.1
    rw [hpath] at hnot hspares
    exact ⟨henters, ih hstate.2 hnot hspares⟩

mutual

theorem selects_of_mem_selectedAt {name : String} {path p : List Char} : ∀ {node : Node},
    p ∈ selectedAt f name path node → f.selects p = true
  | .file _, hp => by
    rw [selectedAt] at hp
    split at hp
    next h => exact List.mem_singleton.mp hp ▸ h
    next => cases hp
  | .folder entries, hp => by
    rw [selectedAt] at hp
    split at hp
    · exact selects_of_mem_selectedIn hp
    · cases hp

theorem selects_of_mem_selectedIn {above p : List Char} : ∀ {entries : List (String × Node)},
    p ∈ selectedIn f above entries → f.selects p = true
  | [], hp => by cases hp
  | (name, node) :: rest, hp => by
    rw [selectedIn, List.mem_append] at hp
    rcases hp with hp | hp
    · exact selects_of_mem_selectedAt hp
    · exact selects_of_mem_selectedIn hp

end

/-- A file is found if the walk enters the folders that lead to it, and its path is selected. -/
theorem mem_found_iff (h : Node.isFormedIn entries = true) {file : String} :
    file ∈ found f entries ↔ ∃ first names bytes,
      (Node.folder entries).at? (first :: names) = some (.file bytes) ∧ file = fileOf (first :: names) ∧
        f.Enters first first.toList names ∧ f.selects (slashed (first :: names)) = true := by
  rw [mem_found]
  constructor
  · rintro ⟨p, hp, rfl⟩
    have hselects := selects_of_mem_selectedIn hp
    obtain ⟨first, names, bytes, hat, rfl, henters⟩ := exists_names_of_mem_selectedIn h hp
    exact ⟨first, names, bytes, hat, rfl, henters, hselects⟩
  · rintro ⟨first, names, bytes, hat, rfl, henters, hselects⟩
    exact ⟨_, mem_selectedIn_of_enters hat henters hselects, rfl⟩

/-- Of a file in no state folder the walk looks at its own path alone. -/
theorem fileOf_mem_found_iff {names : List String}
    (hat : (Node.folder entries).at? names = some (.file bytes))
    (hstate : stateFolder ∉ names.dropLast) (hspares : f.Spares (slashed names)) :
    fileOf names ∈ found f entries ↔ f.selects (slashed names) = true := by
  rw [mem_found]
  constructor
  · rintro ⟨p, hp, heq⟩
    have hpath : p = slashed names := by simpa [fileOf] using congrArg String.toList heq
    exact hpath ▸ selects_of_mem_selectedIn hp
  · intro hselects
    refine ⟨slashed names, ?_, rfl⟩
    cases names with
    | nil => cases hat
    | cons name names =>
      have hnot := hselects
      rw [Filter.selects, Bool.and_eq_true, Bool.not_eq_true'] at hnot
      rw [slashed_cons] at hnot hspares
      exact mem_selectedIn_of_enters hat (enters_of_spares hstate hnot.2 hspares) hselects

/-! ## Patterns given as texts -/

/-- The pattern takes a path as a whole. -/
def Takes (text : String) (path : List Char) : Prop := Glob.accepts (pattern text.toList) path = true

instance (text : String) (path : List Char) : Decidable (Takes text path) :=
  inferInstanceAs (Decidable (_ = true))

def ofTexts (included excluded : List String) : Filter :=
  ⟨included.map fun text => pattern text.toList, excluded.map fun text => pattern text.toList⟩

theorem excludes_ofTexts {included excluded : List String} {path : List Char} :
    (ofTexts included excluded).excludes path = true ↔ ∃ text ∈ excluded, Takes text path := by
  simp [ofTexts, Filter.excludes, Takes]

theorem selects_ofTexts {included excluded : List String} {path : List Char} :
    (ofTexts included excluded).selects path = true ↔
      (∃ text ∈ included, Takes text path) ∧ ∀ text ∈ excluded, ¬Takes text path := by
  rw [Filter.selects, Bool.and_eq_true, Bool.not_eq_true', ← Bool.not_eq_true, excludes_ofTexts]
  simp [ofTexts, Takes]

theorem patterns_arr (texts : List String) :
    patterns (.arr (texts.map .str)) = .ok (texts.map fun text => pattern text.toList) := by
  show (texts.map Json.str).mapM _ = _
  induction texts with
  | nil => rfl
  | cons text texts ih =>
    rw [List.map_cons, List.mapM_cons, ih]
    rfl

theorem discover_arr (d : Disk) (root : Path) (included excluded : List String) :
    discover d root (.arr (included.map .str)) (.arr (excluded.map .str)) =
      .ok (found (ofTexts included excluded) (d.entriesAt root)) := by
  rw [discover_eq, filterOf, patterns_arr, patterns_arr]
  rfl

theorem covers_pattern {text : String} (hslash : text.toList.getLast? ≠ some '/')
    (hstar : ¬EndsInStar (pattern text.toList)) : Glob.Covers (pattern text.toList) := by
  have hdrop : (text.toList.drop 2).getLast? ≠ some '/' := by
    intro hlast
    rw [← List.take_append_drop 2 text.toList, List.getLast?_append, hlast] at hslash
    exact hslash rfl
  unfold pattern at hstar ⊢
  by_cases hdot : "./".toList.isPrefixOf text.toList = true
  · rw [if_pos hdot] at hstar ⊢
    exact Glob.covers_tokens hdrop hstar
  · rw [if_neg hdot] at hstar ⊢
    exact Glob.covers_tokens hslash hstar

/-- A file outside of state folders is found if one of the included patterns takes its path and none of
the excluded ones does. None of the latter may end in a slash, or in a slash of its own with a star
behind it, and one with two stars in a row does not go over line breaks in the path. -/
theorem mem_discover_iff {d : Disk} {root : Path} {names : List String}
    {included excluded : List String}
    (hat : (Node.folder (d.entriesAt root)).at? names = some (.file bytes))
    (hstate : stateFolder ∉ names.dropLast)
    (hslash : ∀ text ∈ excluded, text.toList.getLast? ≠ some '/')
    (hstar : ∀ text ∈ excluded, ¬EndsInStar (pattern text.toList))
    (hline : ∀ text ∈ excluded, (pattern text.toList).any Token.isDouble = true →
      '\n' ∉ slashed names) :
    ∃ files, discover d root (.arr (included.map .str)) (.arr (excluded.map .str)) = .ok files ∧
      (fileOf names ∈ files ↔ (∃ text ∈ included, Takes text (slashed names)) ∧
        ∀ text ∈ excluded, ¬Takes text (slashed names)) := by
  have hspares : (ofTexts included excluded).Spares (slashed names) := by
    intro folder below hpath hfolder
    -- the same pattern that takes the folder with its slash takes the path
    obtain ⟨text, htext, htakes⟩ := excludes_ofTexts.mp hfolder
    have hcovers := covers_pattern (hslash text htext) (hstar text htext)
    have hsplit : slashed names = (folder ++ ['/']) ++ below := by simp [hpath]
    have hpathline := hline text htext
    rw [hsplit] at hpathline ⊢
    exact excludes_ofTexts.mpr ⟨text, htext, hcovers.accepts_append (by simp) hpathline htakes⟩
  refine ⟨_, discover_arr d root included excluded, ?_⟩
  rw [fileOf_mem_found_iff hat hstate hspares, selects_ofTexts]

/-- A script two folders down, beside nothing else. -/
def oneScript : Disk where
  root := .folder [("src", .folder [("sub", .folder [("a.js", .file [])])])]

/-- A folder that is left out, and one that is not. -/
theorem mem_discover_oneScript : ∃ files,
    discover oneScript ⟨true, []⟩ (.arr (["src/**/*.js"].map .str))
      (.arr (["src/vendor/**", "*.min.js"].map .str)) = .ok files ∧ "src/sub/a.js" ∈ files := by
  have hat : (Node.folder (oneScript.entriesAt ⟨true, []⟩)).at? ["src", "sub", "a.js"] =
      some (.file []) := by rfl
  obtain ⟨files, hfiles, hiff⟩ := @mem_discover_iff [] oneScript ⟨true, []⟩ ["src", "sub", "a.js"]
    ["src/**/*.js"] ["src/vendor/**", "*.min.js"] hat (by decide) (by decide) (by unfold EndsInStar; decide)
    (by decide)
  refine ⟨files, hfiles, ?_⟩
  have hmem := hiff.mpr (by unfold Takes; decide)
  have hname : fileOf ["src", "sub", "a.js"] = "src/sub/a.js" := by decide
  rwa [hname] at hmem

/-- A slash and a star take the folder, and so lose what is below it and not taken. -/
theorem missed_behind_star :
    (Node.folder (oneScript.entriesAt ⟨true, []⟩)).at? ["src", "sub", "a.js"] = some (.file []) ∧
      Takes "**/*.js" "src/sub/a.js".toList ∧ ¬Takes "src/*" "src/sub/a.js".toList ∧
      discover oneScript ⟨true, []⟩ (.arr [.str "**/*.js"]) (.arr [.str "src/*"]) = .ok [] := by
  have hnone : selectedIn (ofTexts ["**/*.js"] ["src/*"]) [] (oneScript.entriesAt ⟨true, []⟩) = [] := by
    decide
  refine ⟨by rfl, ?_, ?_, ?_⟩
  · unfold Takes
    decide
  · unfold Takes
    decide
  · refine (discover_arr oneScript ⟨true, []⟩ ["**/*.js"] ["src/*"]).trans ?_
    rw [found, hnone, sorted, List.map_nil, List.mergeSort_nil]

end DelayInjection.Discovery
