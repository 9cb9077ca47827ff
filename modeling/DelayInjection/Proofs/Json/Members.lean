import DelayInjection.Json
import Mathlib.Data.List.Nodup

/-! Members of objects by name. -/

namespace DelayInjection.Json

variable {α : Type} {name : String} {value : α} {members others : List (String × α)}

theorem put_of_not_mem (h : name ∉ members.map (·.1)) :
    put name value members = members ++ [(name, value)] := by
  induction members with
  | nil => rfl
  | cons m members ih =>
    rw [List.map_cons, List.mem_cons, not_or] at h
    rw [put, if_neg (Ne.symm h.1), ih h.2, List.cons_append]

theorem lookup_cons_eq_if (m : String × α) (name : String) :
    (m :: members).lookup name = if name = m.1 then some m.2 else members.lookup name := by
  rw [List.lookup_cons]
  split
  next h => rw [if_pos (beq_iff_eq.mp h)]
  next h => rw [if_neg (beq_eq_false_iff_ne.mp h)]

theorem lookup_filterMap (g : String → Option α) (names : List String) (name : String) :
    (names.filterMap fun n => (g n).map (n, ·)).lookup name =
      if name ∈ names then g name else none := by
  induction names with
  | nil => rfl
  | cons first names ih =>
    rw [List.filterMap_cons]
    by_cases hfirst : name = first
    · subst hfirst
      rw [if_pos List.mem_cons_self]
      cases hg : g name with
      | some value => rw [Option.map_some, lookup_cons_eq_if, if_pos rfl]
      | none => rw [Option.map_none, ih, hg, ite_self]
    · simp only [List.mem_cons, or_iff_right hfirst, ← ih]
      cases g first with
      | some value => rw [Option.map_some, lookup_cons_eq_if, if_neg hfirst]
      | none => rw [Option.map_none]

theorem lookup_put (other : String) : (put name value members).lookup other =
    if other = name then some value else members.lookup other := by
  induction members with
  | nil => rw [put, lookup_cons_eq_if]
  | cons m members ih =>
    obtain ⟨n, v⟩ := m
    rw [put]
    by_cases hn : n = name
    · rw [if_pos hn, lookup_cons_eq_if, lookup_cons_eq_if, hn]
      by_cases h : other = name <;> simp [h]
    · rw [if_neg hn, lookup_cons_eq_if, lookup_cons_eq_if, ih]
      by_cases h : other = n
      · simp [h, hn]
      · simp [h]

/-- The last pair of a name wins. -/
theorem lookup_foldl_put (pairs : List (String × α)) (name : String) :
    (pairs.foldl (fun members (n, v) => put n v members) members).lookup name =
      (pairs.reverse ++ members).lookup name := by
  induction pairs generalizing members with
  | nil => rfl
  | cons p pairs ih =>
    rw [List.foldl_cons, ih, List.lookup_append, lookup_put, List.reverse_cons, List.append_assoc,
      List.lookup_append, List.singleton_append, lookup_cons_eq_if]

theorem lookup_ofPairs (pairs : List (String × α)) (name : String) :
    (ofPairs pairs).lookup name = pairs.reverse.lookup name := by
  rw [ofPairs, lookup_foldl_put, List.append_nil]

theorem foldl_put_of_nodup (h : ((others ++ members).map (·.1)).Nodup) :
    members.foldl (fun members (n, v) => put n v members) others = others ++ members := by
  induction members generalizing others with
  | nil => rw [List.append_nil]; rfl
  | cons m members ih =>
    have hnew : m.1 ∉ others.map (·.1) := by
      rw [List.map_append, List.nodup_append] at h
      exact fun hmem => h.2.2 _ hmem _ (by simp) rfl
    rw [List.foldl_cons]
    simp only [put_of_not_mem hnew]
    rw [ih (by simpa using h), List.append_assoc]
    rfl

/-- Pairs of different names stay as they are. -/
theorem ofPairs_of_nodup (h : (members.map (·.1)).Nodup) : ofPairs members = members :=
  @foldl_put_of_nodup _ members [] h

theorem mem_put {m : String × α} (h : m ∈ put name value members) : m = (name, value) ∨ m ∈ members := by
  induction members with
  | nil => exact .inl (List.mem_singleton.mp h)
  | cons first members ih =>
    obtain ⟨n, v⟩ := first
    rw [put] at h
    split at h
    next hn =>
      rcases List.mem_cons.mp h with rfl | h
      · exact .inl (by rw [hn])
      · exact .inr (List.mem_cons_of_mem _ h)
    next =>
      rcases List.mem_cons.mp h with rfl | h
      · exact .inr List.mem_cons_self
      · exact (ih h).imp_right (List.mem_cons_of_mem _)

theorem mem_map_put {other : String} :
    other ∈ (put name value members).map (·.1) ↔ other = name ∨ other ∈ members.map (·.1) := by
  induction members with
  | nil => simp [put]
  | cons m members ih =>
    obtain ⟨n, v⟩ := m
    rw [put]
    by_cases hn : n = name
    · simp [hn]
    · rw [if_neg hn, List.map_cons, List.map_cons, List.mem_cons, List.mem_cons, ih]
      tauto

theorem nodup_put (h : (members.map (·.1)).Nodup) : ((put name value members).map (·.1)).Nodup := by
  induction members with
  | nil => simp [put]
  | cons m members ih =>
    obtain ⟨n, v⟩ := m
    rw [List.map_cons, List.nodup_cons] at h
    rw [put]
    by_cases hn : n = name
    · rw [if_pos hn, List.map_cons, List.nodup_cons]
      exact h
    · rw [if_neg hn, List.map_cons, List.nodup_cons, mem_map_put]
      exact ⟨fun hmem => hmem.elim hn h.1, ih h.2⟩

theorem nodup_ofPairs (pairs : List (String × α)) : ((ofPairs pairs).map (·.1)).Nodup := by
  have hall : ∀ members : List (String × α), (members.map (·.1)).Nodup →
      ((pairs.foldl (fun members (n, v) => put n v members) members).map (·.1)).Nodup := by
    induction pairs with
    | nil => exact fun _ h => h
    | cons p pairs ih => exact fun members h => ih _ (nodup_put h)
  exact hall [] List.nodup_nil

/-- Where no name comes twice, the order does not matter. -/
theorem lookup_reverse (h : (members.map (·.1)).Nodup) (name : String) :
    members.reverse.lookup name = members.lookup name := by
  induction members with
  | nil => rfl
  | cons m members ih =>
    rw [List.map_cons, List.nodup_cons] at h
    rw [List.reverse_cons, List.lookup_append, ih h.2, lookup_cons_eq_if, lookup_cons_eq_if]
    by_cases hname : name = m.1
    · have hnone : members.lookup name = none := by
        rw [List.lookup_eq_none_iff]
        intro p hp
        simpa using fun heq : name = p.1 => h.1 (hname ▸ heq ▸ List.mem_map_of_mem hp)
      rw [if_pos hname, if_pos hname, hnone]
      rfl
    · rw [if_neg hname, if_neg hname, List.lookup_nil, Option.or_none]

end DelayInjection.Json
