import DelayInjection.Config
import DelayInjection.Proofs.Json.Members

/-! Which profiles there are, and that a known mode can take the place of another one. -/

namespace DelayInjection

namespace Profile

theorem of_ofSettings_eq_ok {mode : Json} {minDelay maxDelay : Int} {skip : Bool} {profile : Profile}
    (h : ofSettings mode minDelay maxDelay skip = .ok profile) :
    profile.mode ∈ Mode.all ∧ 0 ≤ minDelay ∧ minDelay ≤ maxDelay ∧
      profile = ⟨profile.mode, minDelay, maxDelay, skip⟩ := by
  unfold ofSettings at h
  split at h
  next => cases h
  next mode hmode =>
    split at h
    next => cases h
    next hmin =>
      split at h
      next => cases h
      next hmax =>
        cases h
        exact ⟨List.mem_of_find?_eq_some hmode, by omega, by omega, rfl⟩

theorem ofSettings_eq_ok {mode : String} (hmode : mode ∈ Mode.all) {minDelay maxDelay : Int}
    (hmin : 0 ≤ minDelay) (hmax : minDelay ≤ maxDelay) (skip : Bool) :
    ofSettings (.str mode) minDelay maxDelay skip = .ok ⟨mode, minDelay, maxDelay, skip⟩ := by
  have hfind : Mode.all.find? (Json.str mode).isStr = some mode := by
    simp only [Mode.all, List.mem_cons, List.not_mem_nil, or_false] at hmode
    rcases hmode with rfl | rfl | rfl <;> decide
  unfold ofSettings
  simp only [hfind]
  rw [if_neg (by omega), if_neg (by omega)]

/-- What a profile that comes from settings is known to be. -/
theorem of_ofConfig_eq_ok {config : Config} {profile : Profile} (h : ofConfig config = .ok profile) :
    profile.mode ∈ Mode.all ∧ 0 ≤ profile.minDelay ∧ profile.minDelay ≤ profile.maxDelay := by
  unfold ofConfig at h
  cases hmin : Seed.integer ((config.lookup "min_delay_ms").getD (.int 0)) with
  | error e => rw [hmin] at h; cases h
  | ok minDelay =>
    cases hmax : Seed.integer ((config.lookup "max_delay_ms").getD (.int 50)) with
    | error e => rw [hmin, hmax] at h; cases h
    | ok maxDelay =>
      rw [hmin, hmax] at h
      obtain ⟨hmode, hlow, hle, hprofile⟩ := of_ofSettings_eq_ok h
      rw [hprofile]
      exact ⟨hmode, hlow, hle⟩

/-- Settings stay valid when their mode is replaced by another known one. -/
theorem ofConfig_overlay_mode {config : Config} (hnodup : (config.map (·.1)).Nodup)
    {profile : Profile} (h : ofConfig config = .ok profile) {mode : String} (hmode : mode ∈ Mode.all) :
    ofConfig (config.overlay [("mode", .str mode)]) = .ok { profile with mode := mode } := by
  have hlookup : ∀ name, (config.overlay [("mode", Json.str mode)]).lookup name =
      if name = "mode" then some (.str mode) else config.lookup name := by
    intro name
    rw [Config.overlay, Json.lookup_ofPairs, List.reverse_append, List.reverse_singleton,
      List.singleton_append, Json.lookup_cons_eq_if, Json.lookup_reverse hnodup]
  have htruthy : (Json.str mode).truthy = true := by
    simp only [Mode.all, List.mem_cons, List.not_mem_nil, or_false] at hmode
    rcases hmode with rfl | rfl | rfl <;> decide
  unfold ofConfig at h ⊢
  simp only [hlookup]
  cases hmin : Seed.integer ((config.lookup "min_delay_ms").getD (.int 0)) with
  | error e => rw [hmin] at h; cases h
  | ok minDelay =>
    cases hmax : Seed.integer ((config.lookup "max_delay_ms").getD (.int 50)) with
    | error e => rw [hmin, hmax] at h; cases h
    | ok maxDelay =>
      rw [hmin, hmax] at h
      obtain ⟨-, hlow, hle, hprofile⟩ := of_ofSettings_eq_ok h
      rw [hprofile]
      simp [hmin, hmax, htruthy]
      exact ofSettings_eq_ok hmode hlow hle _

end Profile
end DelayInjection
