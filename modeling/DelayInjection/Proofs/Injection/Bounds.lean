import DelayInjection.Proofs.Delay
import DelayInjection.Proofs.Injection.Placement
import DelayInjection.Proofs.Manifest

/-! Placement does not fail as long as delays are exact in floating point and all numbers can be
written, and then the ledger can be written too. -/

namespace DelayInjection

open Text.Utf8 (Bytes)

/-- Bounds that are in order and exact in floating point, and a seed that can be written. -/
structure Options.IsBounded (options : Options) : Prop where
  low : 0 ≤ options.minDelay
  le : options.minDelay ≤ options.maxDelay
  high : options.maxDelay < 2 ^ 53
  seed : IsShort options.seed

namespace Injection

variable {source : Bytes} {options : Options} {spelling : Spelling}

/-- The numbers of a choice can be written. -/
structure Choice.IsWritten (c : Choice) : Prop where
  index : IsShort c.index
  line : IsShort c.site.line
  column : IsShort c.site.column

theorem pointId_eq_ok (file container : String) {index line column : Int} (hindex : IsShort index)
    (hline : IsShort line) (hcolumn : IsShort column) :
    ∃ id, pointId file container index line column = .ok id := by
  have hkey : pointKey? file container index line column = some (file ++ ":" ++ container ++ ":" ++
      toString index ++ ":" ++ toString line ++ ":" ++ toString column) := by
    unfold pointKey?
    rw [showInt?_eq hindex, showInt?_eq hline, showInt?_eq hcolumn]
    simp only [bind, Option.bind_some]
  unfold pointId
  simp only [hkey]
  exact ⟨_, rfl⟩

theorem place_eq_ok (hbounded : options.IsBounded) {c : Choice} (hc : c.IsWritten) :
    ∃ p, place source options spelling c = .ok p ∧ (PointEntry.ofPoint p.2).IsPlain := by
  obtain ⟨delay, hdelay, hlt⟩ := Delay.milliseconds_eq_ok options.seed options.filePath c.container
    hc.index hbounded.low hbounded.le hbounded.high
  obtain ⟨id, hid⟩ := pointId_eq_ok options.filePath c.container hc.index hc.line hc.column
  have hplace : place source options spelling c =
      .ok (⟨_, _⟩, ⟨id, c.container, c.index, c.site.line, c.site.column, delay⟩) :=
    place_eq_ok_iff.mpr ⟨rfl, rfl, rfl, rfl, hdelay, hid, hbounded.seed, rfl, rfl⟩
  exact ⟨_, hplace, trivial, trivial, hc.index.lt, hc.line.lt, hc.column.lt,
    (isShort_of_lt hlt (by decide)).lt⟩

theorem mapM_eq_ok {α β ε : Type} {f : α → Except ε β} {p : β → Prop} {as : List α}
    (h : ∀ a ∈ as, ∃ b, f a = .ok b ∧ p b) : ∃ bs, as.mapM f = .ok bs ∧ ∀ b ∈ bs, p b := by
  induction as with
  | nil => exact ⟨[], rfl, by simp⟩
  | cons a as ih =>
    obtain ⟨b, hb, hpb⟩ := h a (by simp)
    obtain ⟨bs, hbs, hpbs⟩ := ih fun c hc => h c (by simp [hc])
    refine ⟨b :: bs, ?_, by simpa [hpb] using hpbs⟩
    rw [List.mapM_cons, hb, hbs]
    rfl

/-- All choices are placed, and the points can be written into a ledger. -/
theorem placements_eq_ok (hbounded : options.IsBounded) {bodies : List Body}
    (hwritten : ∀ c ∈ choices source options spelling bodies, c.IsWritten) :
    ∃ placed, placements source options spelling bodies = .ok placed ∧
      ∀ p ∈ placed, (PointEntry.ofPoint p.2).IsPlain := by
  rw [placements_eq_mapM]
  exact mapM_eq_ok fun c hc => place_eq_ok hbounded (hwritten c hc)

end Injection
end DelayInjection
