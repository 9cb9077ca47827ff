import DelayInjection.Proofs.RoundTrip

/-! Injection into its own output. A text that got points holds the stamp, wherever the locator put
them, and a text with the stamp is never touched again. -/

namespace DelayInjection

open Text.Utf8 (Bytes encode)

namespace Injection

/-- The import goes inside of the source or to its end, whatever the anchor. -/
theorem offset_importInsertion_le (source : Bytes) (anchor : Nat) (line : List Char) :
    (importInsertion source anchor line).offset ≤ source.length := by
  unfold importInsertion
  split
  next =>
    dsimp only
    split
    next hmark => exact (List.isPrefixOf_iff_prefix.mp hmark).length_le
    next => exact Nat.zero_le _
  next =>
    dsimp only [lineRest]
    have hline := (List.takeWhile_prefix (· != newline) (l := source.drop anchor)).length_le
    rw [List.length_drop] at hline
    split
    next hink =>
      obtain ⟨b, hb, -⟩ := List.any_eq_true.mp hink
      have hpos := List.length_pos_of_mem hb
      change anchor ≤ source.length
      omega
    next =>
      split
      next hended =>
        have hended := of_decide_eq_true hended
        rw [List.length_drop] at hended
        change anchor + _ + 1 ≤ source.length
        omega
      next => exact Nat.le_refl _

/-- The marker is a part of what is written in front of a statement. -/
theorem stamp_infix_written (source : Bytes) (options : Options) (spelling : Spelling)
    (offset : Nat) (point : InjectionPoint) :
    stamp.toList <:+: written source options spelling offset point := by
  have hopening : stamp.toList <:+: markerOpening.toList := by decide +kernel
  have hcomment : markerOpening.toList <:+: (commentLine spelling point.id (toString options.seed)
      options.mode).toList := by
    simp only [commentLine, marker, String.toList_append, List.append_assoc]
    exact (List.prefix_append _ _).isInfix.trans (List.suffix_append _ _).isInfix
  refine (hopening.trans hcomment).trans ?_
  rw [written, insertedText]
  simp only [List.append_assoc]
  split
  · exact (List.prefix_append _ _).isInfix.trans (List.suffix_append _ _).isInfix
  · exact (List.prefix_append _ _).isInfix

end Injection

namespace Adapter

variable {a : Adapter} {source : List Char} {options : Options} {result : InjectionResult}
  (h : a.inject source options = .ok result)

include h

/-- A text that got points holds the stamp. No layout can place an insertion so that it splits all
markers: the import is the only text without one, and it cannot lie behind the source. -/
theorem contains_stamp_of_inject (hpoints : result.points ≠ []) :
    Text.contains result.source stamp.toList = true := by
  rcases of_inject_eq_ok h with ⟨hnil, -⟩ | ⟨layout, placed, -, hplaced, hne, -, -, -, houtput⟩
  · exact absurd hnil hpoints
  · have hmarked : ∀ p ∈ placed, encode stamp.toList <:+: encode p.1.text := by
      intro p hp
      obtain ⟨c, -, hc⟩ := Injection.exists_choice hplaced hp
      rw [(Injection.insertion_of_place (i := p.1) (p := p.2) hc).1]
      exact Text.Utf8.infix_encode (Injection.stamp_infix_written _ _ _ _ _)
    have happly : encode stamp.toList <:+: encode result.source := by
      rw [Text.Utf8.encode_of_decode houtput]
      refine Injection.infix_apply (fun i hi => ?_) ?_
      · rcases List.mem_append.mp hi with hi | hi
        · obtain ⟨p, hp, rfl⟩ := List.mem_map.mp hi
          exact .inl (hmarked p hp)
        · split at hi
          · cases hi
          · rw [List.mem_singleton] at hi
            exact .inr (hi ▸ Injection.offset_importInsertion_le _ _ _)
      · obtain ⟨p, rest, hplaced⟩ := List.exists_cons_of_ne_nil hne
        have hp : p ∈ placed := hplaced ▸ List.mem_cons_self
        exact ⟨p.1, List.mem_append_left _ (List.mem_map_of_mem hp), hmarked p hp⟩
    have hascii : ∀ c ∈ stamp.toList, c.toNat < 128 := by
      intro c hc
      have hprinted := Spelling.ascii_of_all (t := stamp.toList) (by decide) c hc
      omega
    exact Text.contains_iff.mpr (Text.Utf8.infix_of_encode hascii happly)

/-- Something is found in a text that got points, since removal leaves no stamp. -/
theorem scan_ne_nil_of_inject (hpoints : result.points ≠ []) : a.scan result.source ≠ [] := by
  intro hscan
  have hbare := Recovery.not_contains_stamp_remove a.classifier result.source
  rw [Recovery.remove_of_scan_eq_nil hscan, contains_stamp_of_inject h hpoints] at hbare
  cases hbare

/-- A text with points is returned as it is by every further injection, and a text without points
was not changed in the first place. -/
theorem inject_inject : (result.points ≠ [] → ∀ (b : Adapter) (others : Options),
      b.inject result.source others = .ok ⟨result.source, [], false, none⟩) ∧
    (result.points = [] → result.source = source ∧ a.inject result.source options = .ok result) := by
  refine ⟨fun hpoints b others => ?_, fun hnone => ?_⟩
  · rw [inject, if_pos (contains_stamp_of_inject h hpoints)]
  · rcases of_inject_eq_ok h with ⟨-, hsource, -⟩ | ⟨_, placed, -, -, hne, hpoints, -⟩
    · exact ⟨hsource, by rw [hsource, h]⟩
    · rw [hnone] at hpoints
      exact absurd (List.map_eq_nil_iff.mp hpoints.symm) hne

omit h

theorem inject_inject_of_async_def : ∃ result,
    Python.adapter.inject "async def f():\n  g()\n".toList { filePath := "a.py" } = .ok result ∧
      result.points ≠ [] ∧ ∀ others, Python.adapter.inject result.source others =
        .ok ⟨result.source, [], false, none⟩ := by
  obtain ⟨-, layout, placed, output, -, -, hlength, hinject⟩ := exists_inject_of_async_def rfl
  have hpoints : placed.map (·.2) ≠ [] := fun h => by
    rw [List.map_eq_nil_iff.mp h] at hlength
    cases hlength
  exact ⟨_, hinject, hpoints, fun others => (inject_inject hinject).1 hpoints Python.adapter others⟩

end Adapter
end DelayInjection
