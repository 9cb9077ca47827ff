import DelayInjection.Disk.Tree

/-! What a tree holds after something was put into it or taken out, and trees that differ only in the
bytes of their files. -/

namespace DelayInjection.Disk.Node

open Text.Utf8 (Bytes)

section Entries

theorem lookup_cons_of_ne {name first : String} (h : name ≠ first) (node : Node)
    (rest : List (String × Node)) : List.lookup name ((first, node) :: rest) = rest.lookup name := by
  have hne : (name == first) = false := by simpa using h
  rw [List.lookup_cons, hne]

variable {name : String} {node old : Node} {entries : List (String × Node)}

theorem lookup_putEntry (other : String) : (putEntry name node entries).lookup other =
    if other = name then some node else entries.lookup other := by
  induction entries with
  | nil =>
    rw [putEntry]
    by_cases h : other = name
    · simp [h]
    · rw [lookup_cons_of_ne h, if_neg h]
  | cons e entries ih =>
    obtain ⟨n, x⟩ := e
    rw [putEntry]
    split
    next hn =>
      subst hn
      by_cases h : other = n
      · simp [h]
      · rw [lookup_cons_of_ne h, lookup_cons_of_ne h, if_neg h]
    next hn =>
      by_cases h : other = n
      · simp [h, hn]
      · rw [lookup_cons_of_ne h, lookup_cons_of_ne h, ih]

theorem putEntry_putEntry :
    putEntry name node (putEntry name old entries) = putEntry name node entries := by
  induction entries with
  | nil => simp [putEntry]
  | cons e entries ih =>
    obtain ⟨n, x⟩ := e
    by_cases hn : n = name
    · simp [putEntry, hn]
    · simp [putEntry, hn, ih]

theorem putEntry_of_lookup (h : entries.lookup name = some node) :
    putEntry name node entries = entries := by
  induction entries with
  | nil => cases h
  | cons e entries ih =>
    obtain ⟨n, x⟩ := e
    by_cases hn : n = name
    · subst hn
      rw [List.lookup_cons_self] at h
      cases h
      simp [putEntry]
    · rw [lookup_cons_of_ne (Ne.symm hn)] at h
      rw [putEntry, if_neg hn, ih h]

theorem putEntry_append (h : entries.lookup name = some old) (others : List (String × Node)) :
    putEntry name node (entries ++ others) = putEntry name node entries ++ others := by
  induction entries with
  | nil => cases h
  | cons e entries ih =>
    obtain ⟨n, x⟩ := e
    by_cases hn : n = name
    · simp [putEntry, hn]
    · rw [lookup_cons_of_ne (Ne.symm hn)] at h
      rw [List.cons_append, putEntry, if_neg hn, putEntry, if_neg hn, ih h, List.cons_append]

theorem putEntry_append_of_none (h : entries.lookup name = none) (others : List (String × Node)) :
    putEntry name node (entries ++ others) = entries ++ putEntry name node others := by
  induction entries with
  | nil => rfl
  | cons e entries ih =>
    obtain ⟨n, x⟩ := e
    by_cases hn : n = name
    · simp [hn] at h
    · rw [lookup_cons_of_ne (Ne.symm hn)] at h
      rw [List.cons_append, putEntry, if_neg hn, ih h, List.cons_append]

theorem putEntry_of_lookup_eq_none (h : entries.lookup name = none) :
    putEntry name node entries = entries ++ [(name, node)] := by
  induction entries with
  | nil => rfl
  | cons e entries ih =>
    obtain ⟨n, x⟩ := e
    by_cases hn : n = name
    · simp [hn] at h
    · rw [lookup_cons_of_ne (Ne.symm hn)] at h
      rw [putEntry, if_neg hn, ih h, List.cons_append]

theorem filter_of_lookup_eq_none (h : entries.lookup name = none) :
    entries.filter (fun e => e.1 ≠ name) = entries := by
  rw [List.lookup_eq_none_iff] at h
  refine List.filter_eq_self.mpr fun e he => ?_
  have hne := h e he
  simpa using fun h' : e.1 = name => absurd h'.symm (by simpa using hne)

theorem lookup_filter_ne (other : String) :
    (entries.filter fun e => e.1 ≠ name).lookup other =
      if other = name then none else entries.lookup other := by
  induction entries with
  | nil => simp
  | cons e entries ih =>
    obtain ⟨n, x⟩ := e
    by_cases hn : n = name
    · rw [List.filter_cons_of_neg (by simpa using hn), ih]
      by_cases h : other = name
      · rw [if_pos h, if_pos h]
      · rw [if_neg h, if_neg h, lookup_cons_of_ne (hn ▸ h)]
    · rw [List.filter_cons_of_pos (by simpa using hn)]
      by_cases h : other = n
      · rw [h, List.lookup_cons_self, List.lookup_cons_self, if_neg hn]
      · rw [lookup_cons_of_ne h, ih, lookup_cons_of_ne h]

theorem filter_putEntry : (putEntry name node entries).filter (fun e => e.1 ≠ name) =
    entries.filter fun e => e.1 ≠ name := by
  induction entries with
  | nil => simp [putEntry]
  | cons e entries ih =>
    obtain ⟨n, x⟩ := e
    by_cases hn : n = name
    · simp [putEntry, hn]
    · rw [putEntry, if_neg hn, List.filter_cons, List.filter_cons, ih]

end Entries

/-! ## Nodes below nodes -/

section Paths

variable {root old node : Node} {above : List String}

theorem at?_append (above below : List String) (root : Node) :
    root.at? (above ++ below) = (root.at? above).bind (at? below) := by
  induction above generalizing root with
  | nil => rfl
  | cons name above ih =>
    cases root with
    | file bytes => rfl
    | folder entries =>
      rw [List.cons_append, at?, at?]
      cases entries.lookup name with
      | none => rfl
      | some inner => exact ih inner

theorem at?_put (h : root.at? above = some old) (below : List String) :
    (put node above root).at? (above ++ below) = node.at? below := by
  induction above generalizing root with
  | nil => rfl
  | cons name above ih =>
    cases root with
    | file bytes => cases h
    | folder entries =>
      rw [at?] at h
      obtain ⟨inner, hinner, h⟩ := Option.bind_eq_some_iff.mp h
      rw [put, List.cons_append, at?, lookup_putEntry, if_pos rfl, hinner]
      exact ih h

theorem put_append (h : root.at? above = some old) (below : List String) :
    put node (above ++ below) root = put (put node below old) above root := by
  induction above generalizing root with
  | nil =>
    cases h
    rfl
  | cons name above ih =>
    cases root with
    | file bytes => cases h
    | folder entries =>
      rw [at?] at h
      obtain ⟨inner, hinner, h⟩ := Option.bind_eq_some_iff.mp h
      rw [put, List.cons_append, put, hinner, Option.getD_some, ih h]

theorem put_put (h : root.at? above = some old) (other : Node) :
    put node above (put other above root) = put node above root := by
  induction above generalizing root with
  | nil => rfl
  | cons name above ih =>
    cases root with
    | file bytes => cases h
    | folder entries =>
      rw [at?] at h
      obtain ⟨inner, hinner, h⟩ := Option.bind_eq_some_iff.mp h
      rw [put, put, put, lookup_putEntry, if_pos rfl, hinner, Option.getD_some, Option.getD_some,
        ih h, putEntry_putEntry]

theorem put_self (h : root.at? above = some old) : put old above root = root := by
  induction above generalizing root with
  | nil =>
    cases h
    rfl
  | cons name above ih =>
    cases root with
    | file bytes => cases h
    | folder entries =>
      rw [at?] at h
      obtain ⟨inner, hinner, h⟩ := Option.bind_eq_some_iff.mp h
      rw [put, hinner, Option.getD_some, ih h, putEntry_of_lookup hinner]

theorem erase_append {entries : List (String × Node)} (h : root.at? above = some (folder entries))
    (name : String) : root.erase (above ++ [name]) =
      put (folder (entries.filter fun e => e.1 ≠ name)) above root := by
  induction above generalizing root with
  | nil =>
    cases h
    rfl
  | cons first above ih =>
    cases root with
    | file bytes => cases h
    | folder others =>
      rw [at?] at h
      obtain ⟨inner, hinner, h⟩ := Option.bind_eq_some_iff.mp h
      obtain ⟨next, rest, hrest⟩ : ∃ next rest, above ++ [name] = next :: rest :=
        List.exists_cons_of_ne_nil (by simp)
      rw [List.cons_append, hrest, erase, hinner, put, hinner, Option.getD_some, ← ih h, hrest]

/-- Wherever the one has a folder, the other one has a folder too. -/
def Keeps (root other : Node) : Prop :=
  ∀ names entries, root.at? names = some (folder entries) →
    ∃ entries', other.at? names = some (folder entries')

theorem Keeps.trans {other last : Node} (h : root.Keeps other) (hlast : other.Keeps last) :
    root.Keeps last := by
  intro names entries hat
  obtain ⟨entries', hat'⟩ := h names entries hat
  exact hlast names entries' hat'

/-- It is enough that the folders of the one are in the other as they are. -/
theorem keeps_of_lookup {entries entries' : List (String × Node)}
    (h : ∀ name inner, entries.lookup name = some (folder inner) →
      entries'.lookup name = some (folder inner)) : (folder entries).Keeps (folder entries') := by
  intro names inner hat
  cases names with
  | nil => exact ⟨_, rfl⟩
  | cons name names =>
    rw [at?] at hat ⊢
    obtain ⟨below, hbelow, hinside⟩ := Option.bind_eq_some_iff.mp hat
    cases below with
    | file bytes => cases names <;> cases hinside
    | folder others => exact ⟨inner, by rw [h name others hbelow]; exact hinside⟩

/-- An entry that is no folder can be replaced, or a new one added. -/
theorem keeps_putEntry {name : String} {entries : List (String × Node)}
    (h : ∀ inner, entries.lookup name ≠ some (folder inner)) (node : Node) :
    (folder entries).Keeps (folder (putEntry name node entries)) := by
  refine keeps_of_lookup fun other inner hother => ?_
  rw [lookup_putEntry, if_neg fun heq : other = name => h inner (heq ▸ hother), hother]

theorem Keeps.put (h : root.at? above = some old) (hkeeps : old.Keeps node) :
    root.Keeps (Node.put node above root) := by
  intro names entries hnames
  induction above generalizing root names with
  | nil =>
    cases h
    exact hkeeps names entries hnames
  | cons name above ih =>
    cases root with
    | file bytes => cases h
    | folder others =>
      cases names with
      | nil => exact ⟨_, rfl⟩
      | cons first names =>
        rw [at?] at h hnames
        obtain ⟨inner, hinner, hinside⟩ := Option.bind_eq_some_iff.mp h
        rw [Node.put, at?, lookup_putEntry]
        split
        next hfirst =>
          subst hfirst
          rw [hinner] at hnames ⊢
          exact ih hinside names hnames
        next => exact ⟨entries, hnames⟩

end Paths

/-! ## Other bytes in the same files -/

mutual

/-- The tree with other bytes in its files. -/
def overlay (content : List String → Bytes → Bytes) : Node → Node
  | file bytes => file (content [] bytes)
  | folder entries => folder (overlayIn content entries)

def overlayIn (content : List String → Bytes → Bytes) :
    List (String × Node) → List (String × Node)
  | [] => []
  | (name, node) :: rest =>
    (name, overlay (fun names => content (name :: names)) node) :: overlayIn content rest

end

/-- A name that a path can hold. -/
def isProper (name : String) : Bool :=
  name ≠ "" && name ≠ "." && name ≠ ".." && !name.toList.contains '/' && !name.toList.contains '\x00'

mutual

/-- All names are proper, and no two entries of a folder share one. -/
def isFormed : Node → Bool
  | file _ => true
  | folder entries => isFormedIn entries

def isFormedIn : List (String × Node) → Bool
  | [] => true
  | (name, node) :: rest =>
    isProper name && (rest.lookup name).isNone && isFormed node && isFormedIn rest

end

theorem isFormedIn_cons {name : String} {node : Node} {rest : List (String × Node)} :
    isFormedIn ((name, node) :: rest) = true ↔
      isProper name = true ∧ rest.lookup name = none ∧ node.isFormed = true ∧
        isFormedIn rest = true := by
  rw [isFormedIn]
  simp [and_assoc]

theorem of_lookup_of_isFormedIn {entries : List (String × Node)} (h : isFormedIn entries = true)
    {name : String} {node : Node} (hlookup : entries.lookup name = some node) :
    isProper name = true ∧ node.isFormed = true := by
  induction entries with
  | nil => cases hlookup
  | cons e entries ih =>
    obtain ⟨n, x⟩ := e
    obtain ⟨hproper, -, hnode, hrest⟩ := isFormedIn_cons.mp h
    by_cases hn : name = n
    · subst hn
      rw [List.lookup_cons_self] at hlookup
      cases hlookup
      exact ⟨hproper, hnode⟩
    · rw [lookup_cons_of_ne hn] at hlookup
      exact ih hrest hlookup

theorem isProper_of_at? {root node : Node} (h : root.isFormed = true) {names : List String}
    (hat : root.at? names = some node) : names.all isProper = true := by
  induction names generalizing root with
  | nil => rfl
  | cons name names ih =>
    cases root with
    | file bytes => cases hat
    | folder entries =>
      rw [at?] at hat
      obtain ⟨inner, hinner, hat⟩ := Option.bind_eq_some_iff.mp hat
      obtain ⟨hproper, hformed⟩ := of_lookup_of_isFormedIn h hinner
      rw [List.all_cons, hproper, ih hformed hat]
      rfl

theorem isFormedIn_putEntry {entries : List (String × Node)} {name : String} {node : Node}
    (hname : isProper name = true) (hnode : node.isFormed = true)
    (h : isFormedIn entries = true) : isFormedIn (putEntry name node entries) = true := by
  induction entries with
  | nil => exact isFormedIn_cons.mpr ⟨hname, rfl, hnode, rfl⟩
  | cons e entries ih =>
    obtain ⟨n, x⟩ := e
    obtain ⟨hproper, hnone, hx, hrest⟩ := isFormedIn_cons.mp h
    rw [putEntry]
    split
    next hn => exact isFormedIn_cons.mpr ⟨hname, hn ▸ hnone, hnode, hrest⟩
    next hn =>
      refine isFormedIn_cons.mpr ⟨hproper, ?_, hx, ih hrest⟩
      rw [lookup_putEntry, if_neg hn, hnone]

theorem isFormedIn_filter {entries : List (String × Node)} (h : isFormedIn entries = true)
    (name : String) : isFormedIn (entries.filter fun e => e.1 ≠ name) = true := by
  induction entries with
  | nil => rfl
  | cons e entries ih =>
    obtain ⟨n, x⟩ := e
    obtain ⟨hproper, hnone, hx, hrest⟩ := isFormedIn_cons.mp h
    rw [List.filter_cons]
    split
    · refine isFormedIn_cons.mpr ⟨hproper, ?_, hx, ih hrest⟩
      rw [lookup_filter_ne, hnone, ite_self]
    · exact ih hrest

theorem isFormed_of_at? {root node : Node} {names : List String} (h : root.isFormed = true)
    (hat : root.at? names = some node) : node.isFormed = true := by
  induction names generalizing root with
  | nil =>
    cases hat
    exact h
  | cons name names ih =>
    cases root with
    | file bytes => cases hat
    | folder entries =>
      rw [at?] at hat
      obtain ⟨inner, hinner, hat⟩ := Option.bind_eq_some_iff.mp hat
      exact ih (of_lookup_of_isFormedIn h hinner).2 hat

theorem isFormed_erase {root : Node} (h : root.isFormed = true) (names : List String) :
    (root.erase names).isFormed = true := by
  induction names, root using erase.induct with
  | case1 n => exact h
  | case2 name names bytes => exact h
  | case3 name entries => exact isFormedIn_filter h name
  | case4 name next rest entries hlookup =>
    rw [erase, hlookup]
    exact h
  | case5 name next rest entries inner hlookup ih =>
    obtain ⟨hproper, hinner⟩ := of_lookup_of_isFormedIn h hlookup
    rw [erase, hlookup]
    exact isFormedIn_putEntry hproper (ih hinner) h

theorem lookup_overlayIn (content : List String → Bytes → Bytes) (entries : List (String × Node))
    (name : String) : (overlayIn content entries).lookup name =
      (entries.lookup name).map (overlay fun names => content (name :: names)) := by
  induction entries with
  | nil => rfl
  | cons e entries ih =>
    obtain ⟨n, x⟩ := e
    rw [overlayIn]
    by_cases hn : name = n
    · subst hn
      rw [List.lookup_cons_self, List.lookup_cons_self]
      rfl
    · rw [lookup_cons_of_ne hn, lookup_cons_of_ne hn, ih]

theorem at?_overlay (content : List String → Bytes → Bytes) (root : Node) (names : List String) :
    (overlay content root).at? names =
      (root.at? names).map (overlay fun below => content (names ++ below)) := by
  induction names generalizing root content with
  | nil => rfl
  | cons name names ih =>
    cases root with
    | file bytes => rfl
    | folder entries =>
      rw [overlay, at?, at?, lookup_overlayIn]
      cases entries.lookup name with
      | none => rfl
      | some inner => exact ih _ inner

mutual

theorem isFormed_overlay (content : List String → Bytes → Bytes) :
    ∀ root : Node, (overlay content root).isFormed = root.isFormed
  | file _ => rfl
  | folder entries => by rw [overlay, isFormed, isFormed, isFormedIn_overlayIn]

theorem isFormedIn_overlayIn (content : List String → Bytes → Bytes) :
    ∀ entries : List (String × Node), isFormedIn (overlayIn content entries) = isFormedIn entries
  | [] => rfl
  | (name, node) :: rest => by
    rw [overlayIn, isFormedIn, isFormedIn, isFormed_overlay, isFormedIn_overlayIn, lookup_overlayIn,
      Option.isNone_map]

end

theorem isFormedIn_append {entries others : List (String × Node)} (h : isFormedIn entries = true)
    (hothers : isFormedIn others = true)
    (hnone : ∀ e ∈ others, entries.lookup e.1 = none) : isFormedIn (entries ++ others) = true := by
  induction entries with
  | nil => exact hothers
  | cons e entries ih =>
    obtain ⟨name, node⟩ := e
    obtain ⟨hname, hlookup, hnode, hrest⟩ := isFormedIn_cons.mp h
    have hne : ∀ e ∈ others, e.1 ≠ name := by
      rintro e he rfl
      have hself := hnone e he
      rw [List.lookup_cons_self] at hself
      cases hself
    have hmiss : others.lookup name = none := by
      rw [List.lookup_eq_none_iff]
      intro e he
      simpa using (hne e he).symm
    rw [List.cons_append]
    refine isFormedIn_cons.mpr ⟨hname, ?_, hnode, ih hrest fun e he => ?_⟩
    · rw [List.lookup_append, hlookup, hmiss]
      rfl
    · rw [← lookup_cons_of_ne (hne e he) node, hnone e he]

mutual

theorem overlay_id : ∀ root : Node, overlay (fun _ bytes => bytes) root = root
  | file _ => rfl
  | folder entries => by rw [overlay, overlayIn_id]

theorem overlayIn_id : ∀ entries : List (String × Node),
    overlayIn (fun _ bytes => bytes) entries = entries
  | [] => rfl
  | (name, node) :: rest => by rw [overlayIn, overlay_id, overlayIn_id]

end

mutual

/-- Only the bytes that files can get matter. -/
theorem overlay_congr {content content' : List String → Bytes → Bytes} : ∀ {root : Node},
    root.isFormed = true →
    (∀ names bytes, root.at? names = some (file bytes) →
      content names bytes = content' names bytes) →
    overlay content root = overlay content' root
  | file bytes, _, h => by rw [overlay, overlay, h [] bytes rfl]
  | folder entries, hformed, h => by
    rw [overlay, overlay]
    exact congrArg folder (overlayIn_congr hformed fun name names bytes => h (name :: names) bytes)

theorem overlayIn_congr {content content' : List String → Bytes → Bytes} :
    ∀ {entries : List (String × Node)}, isFormedIn entries = true →
    (∀ name names bytes, (entries.lookup name).bind (at? names) = some (file bytes) →
      content (name :: names) bytes = content' (name :: names) bytes) →
    overlayIn content entries = overlayIn content' entries
  | [], _, _ => rfl
  | (name, node) :: rest, hformed, h => by
    obtain ⟨-, hnone, hnode, hrest⟩ := isFormedIn_cons.mp hformed
    rw [overlayIn, overlayIn, overlay_congr hnode, overlayIn_congr hrest]
    · intro other names bytes hat
      refine h other names bytes ?_
      have hne : other ≠ name := by
        rintro rfl
        rw [hnone] at hat
        cases hat
      rw [lookup_cons_of_ne hne, hat]
    · intro names bytes hat
      refine h name names bytes ?_
      rw [List.lookup_cons_self]
      exact hat

end

/-- The bytes of one file replaced. -/
def replaced (content : List String → Bytes → Bytes) (names : List String) (bytes : Bytes) :
    List String → Bytes → Bytes :=
  fun others old => if others = names then bytes else content others old

theorem putEntry_overlayIn {content content' : List String → Bytes → Bytes}
    {entries : List (String × Node)} {name : String} {node : Node}
    (hformed : isFormedIn entries = true) (hlookup : entries.lookup name = some node)
    (hother : ∀ other names bytes, other ≠ name →
      content (other :: names) bytes = content' (other :: names) bytes) :
    putEntry name (overlay (fun names => content' (name :: names)) node)
      (overlayIn content entries) = overlayIn content' entries := by
  induction entries with
  | nil => cases hlookup
  | cons e entries ih =>
    obtain ⟨n, x⟩ := e
    obtain ⟨-, hnone, hnode, hrest⟩ := isFormedIn_cons.mp hformed
    rw [overlayIn, overlayIn, putEntry]
    split
    next hn =>
      subst hn
      rw [List.lookup_cons_self] at hlookup
      cases hlookup
      -- no later entry has the name, so the replacement does not reach them
      rw [overlayIn_congr hrest]
      intro other names bytes hat
      refine hother other names bytes ?_
      rintro rfl
      rw [hnone] at hat
      cases hat
    next hn =>
      rw [lookup_cons_of_ne (Ne.symm hn)] at hlookup
      rw [ih hrest hlookup]
      congr 2
      exact overlay_congr hnode fun names bytes _ => hother n names bytes hn

theorem put_overlay {content : List String → Bytes → Bytes} {root : Node} {names : List String}
    {old : Bytes} (hformed : root.isFormed = true) (hat : root.at? names = some (file old))
    (bytes : Bytes) : put (file bytes) names (overlay content root) =
      overlay (replaced content names bytes) root := by
  induction names generalizing root content with
  | nil =>
    cases hat
    rfl
  | cons name names ih =>
    cases root with
    | file b => cases hat
    | folder entries =>
      rw [at?] at hat
      obtain ⟨inner, hinner, hat⟩ := Option.bind_eq_some_iff.mp hat
      have hstep : put (file bytes) names (overlay (fun below => content (name :: below)) inner) =
          overlay (replaced (fun below => content (name :: below)) names bytes) inner :=
        ih (of_lookup_of_isFormedIn hformed hinner).2 hat
      have hreplaced : replaced (fun below => content (name :: below)) names bytes =
          fun below => replaced content (name :: names) bytes (name :: below) := by
        funext below b
        simp [replaced]
      rw [overlay, overlay, put, lookup_overlayIn, hinner, Option.map_some, Option.getD_some, hstep,
        hreplaced]
      refine congrArg folder (putEntry_overlayIn hformed hinner fun other below b hne => ?_)
      rw [replaced, if_neg (by simp [hne])]

end DelayInjection.Disk.Node

/-! ## What an access does at a place that was found -/

namespace DelayInjection.Disk

open Text.Utf8 (Bytes)

section Located

variable {d : Disk} {path : Path} {names : List String} (h : d.locate path = .ok names)

include h

theorem entriesAt_of_locate {entries : List (String × Node)}
    (hat : d.root.at? names = some (.folder entries)) : d.entriesAt path = entries := by
  simp only [entriesAt, h, hat]

theorem read_of_locate : d.read path =
    match d.root.at? names with
    | none => failAt path .missing
    | some (.folder _) => failAt path .isDirectory
    | some (.file bytes) => .ok bytes := by
  rw [read, h]
  rfl

theorem write_of_locate (bytes : Bytes) : d.write path bytes =
    match d.root.at? names with
    | some (.folder _) => failAt path .isDirectory
    | _ => .ok { d with root := Node.put (.file bytes) names d.root } := by
  rw [write, h]
  rfl

theorem move_of_locate {target : Path} {others : List String}
    (htarget : d.locate target = .ok others) : d.move path target =
      match d.root.at? names, d.root.at? others with
      | none, _ => .error ⟨.missing, path.text, some target.text⟩
      | some _, some (.folder _) => .error ⟨.isDirectory, path.text, some target.text⟩
      | some node, _ => .ok { d with root := Node.put node others (d.root.erase names) } := by
  rw [move, h, htarget]
  rfl

end Located
end DelayInjection.Disk
