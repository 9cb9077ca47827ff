import DelayInjection.Proofs.Injection.Policy

/-! What the id of a point is a digest of. No colon stands in the numbers at its end, so they can be
read back from there, whatever stands in the names in front of them. -/

namespace DelayInjection

namespace Text

theorem colon_not_mem_toString_int (z : Int) : ':' ∉ (toString z).toList := by
  intro h
  rcases of_mem_toString_int h with h | h
  · exact absurd h (by decide)
  · exact absurd h (by decide)

theorem dash_mem_toString_int_iff {z : Int} : '-' ∈ (toString z).toList ↔ z < 0 := by
  rw [toList_toString_int, List.mem_append]
  constructor
  · rintro (h | h)
    · split at h
      · assumption
      · cases h
    · exact absurd (isAsciiDigit_of_mem_toDigits h) (by decide)
  · intro h
    rw [if_pos h]
    exact .inl List.mem_cons_self

/-- The sign and the digits tell a number. -/
theorem toString_int_injective {z z' : Int} (h : toString z = toString z') : z = z' := by
  have hsign : z < 0 ↔ z' < 0 := by
    rw [← dash_mem_toString_int_iff, ← dash_mem_toString_int_iff, h]
  have hlist : (toString z).toList = (toString z').toList := congrArg String.toList h
  rw [toList_toString_int, toList_toString_int, if_congr hsign rfl rfl,
    List.append_cancel_left_eq] at hlist
  have hvalue := congrArg digitsValue hlist
  rw [digitsValue_toDigits, digitsValue_toDigits] at hvalue
  omega

/-- The last colon stands in front of the last number. -/
theorem of_append_colon_eq {front front' : String} {z z' : Int}
    (h : front ++ ":" ++ toString z = front' ++ ":" ++ toString z') : front = front' ∧ z = z' := by
  have hnumber : ∀ (front : List Char) (z : Int),
      (front ++ ':' :: (toString z).toList).reverse.takeWhile (· != ':') =
        (toString z).toList.reverse := by
    intro front z
    rw [List.reverse_append, List.reverse_cons, List.append_assoc, List.takeWhile_append_of_pos]
    · simp
    · intro c hc
      rw [bne_iff_ne]
      rintro rfl
      exact colon_not_mem_toString_int z (List.mem_reverse.mp hc)
  have hlist : front.toList ++ ':' :: (toString z).toList =
      front'.toList ++ ':' :: (toString z').toList := by
    simpa using congrArg String.toList h
  have hback := congrArg (fun l : List Char => l.reverse.takeWhile (· != ':')) hlist
  simp only [hnumber, List.reverse_inj] at hback
  rw [hback, List.append_cancel_right_eq] at hlist
  exact ⟨String.toList_inj.mp hlist, toString_int_injective (String.toList_inj.mp hback)⟩

end Text

/-- The text that the id of a point of `file` is a digest of, unless a number in it is too long. -/
def InjectionPoint.key? (file : String) (p : InjectionPoint) : Option String :=
  Injection.pointKey? file p.container p.index p.line p.column

namespace Injection

theorem pointKey?_eq_some_iff {file container key : String} {index line column : Int} :
    pointKey? file container index line column = some key ↔
      (IsShort index ∧ IsShort line ∧ IsShort column) ∧ key = file ++ ":" ++ container ++ ":" ++
        toString index ++ ":" ++ toString line ++ ":" ++ toString column := by
  simp only [pointKey?, Option.bind_eq_bind, Option.bind_eq_some_iff, showInt?_eq_some_iff,
    Option.some.injEq]
  constructor
  · rintro ⟨i, ⟨hindex, rfl⟩, l, ⟨hline, rfl⟩, c, ⟨hcolumn, rfl⟩, rfl⟩
    exact ⟨⟨hindex, hline, hcolumn⟩, rfl⟩
  · rintro ⟨⟨hindex, hline, hcolumn⟩, rfl⟩
    exact ⟨_, ⟨hindex, rfl⟩, _, ⟨hline, rfl⟩, _, ⟨hcolumn, rfl⟩, rfl⟩

/-- Equal keys have equal numbers, for any two names. -/
theorem numbers_eq_of_pointKey? {file container container' key : String}
    {index line column index' line' column' : Int}
    (h : pointKey? file container index line column = some key)
    (h' : pointKey? file container' index' line' column' = some key) :
    index = index' ∧ line = line' ∧ column = column' := by
  obtain ⟨-, rfl⟩ := pointKey?_eq_some_iff.mp h
  obtain ⟨-, heq⟩ := pointKey?_eq_some_iff.mp h'
  obtain ⟨heq, hcolumn⟩ := Text.of_append_colon_eq heq
  obtain ⟨heq, hline⟩ := Text.of_append_colon_eq heq
  obtain ⟨-, hindex⟩ := Text.of_append_colon_eq heq
  exact ⟨hindex, hline, hcolumn⟩

open Text.Utf8 (Bytes)

variable {source : Bytes} {options : Options} {spelling : Spelling}

theorem exists_key_of_answered {c : Choice} {i : Insertion} {p : InjectionPoint}
    (h : c.Answered source options spelling i p) :
    ∃ key, p.key? options.filePath = some key ∧ p.id = idOfKey key := by
  have hid : pointId options.filePath p.container p.index p.line p.column = .ok p.id := by
    rw [h.container, h.index, h.line, h.column]
    exact h.id
  unfold pointId at hid
  unfold InjectionPoint.key?
  split at hid
  · cases hid
  · next key hkey => exact ⟨key, hkey, (Except.ok.inj hid).symm⟩

/-! ## No two choices share their numbers -/

/-- Statements of different bodies stand at different places. -/
def Apart (bodies : List Body) : Prop :=
  bodies.Pairwise fun a b =>
    ∀ s ∈ a.statements, ∀ t ∈ b.statements, (s.line, s.column) ≠ (t.line, t.column)

/-- What tells two choices apart without their containers. -/
def Choice.Differs (c d : Choice) : Prop :=
  c.index ≠ d.index ∨ (c.site.line, c.site.column) ≠ (d.site.line, d.site.column)

/-- Within a body the choices are counted. -/
theorem pairwise_differs_due (body : Body) :
    (due source options spelling body).Pairwise Choice.Differs := by
  have hcount : ((chosen source options spelling body).zipIdx.map (·.2)).Pairwise (· ≠ ·) := by
    rw [List.zipIdx_map_snd]
    exact List.nodup_range'
  rw [List.pairwise_map] at hcount
  exact List.pairwise_map.mpr (hcount.imp fun h => .inl h)

theorem site_mem_of_mem_due {body : Body} {c : Choice}
    (h : c ∈ due source options spelling body) : c.site ∈ body.statements := by
  obtain ⟨⟨site, index⟩, hmem, rfl⟩ := List.mem_map.mp h
  obtain ⟨⟨site', position⟩, hfilter, rfl⟩ := List.mem_map.mp (List.fst_mem_of_mem_zipIdx hmem)
  exact List.fst_mem_of_mem_zipIdx (List.mem_of_mem_filter hfilter)

theorem pairwise_differs_flatMap_due {bodies : List Body} (hapart : Apart bodies) :
    (bodies.flatMap (due source options spelling)).Pairwise Choice.Differs := by
  refine List.pairwise_flatMap.mpr ⟨fun body _ => pairwise_differs_due body, ?_⟩
  refine hapart.imp fun hab c hc d hd => .inr ?_
  exact hab _ (site_mem_of_mem_due hc) _ (site_mem_of_mem_due hd)

/-- Points of choices that differ have different keys. -/
theorem key?_ne_of_differs {c c' : Choice} {i i' : Insertion} {p p' : InjectionPoint}
    (h : c.Answered source options spelling i p) (h' : c'.Answered source options spelling i' p')
    (hdiffers : c.Differs c') : p.key? options.filePath ≠ p'.key? options.filePath := by
  intro heq
  obtain ⟨key, hkey, -⟩ := exists_key_of_answered h
  have hkey' := heq ▸ hkey
  obtain ⟨hindex, hline, hcolumn⟩ := numbers_eq_of_pointKey? hkey hkey'
  rw [h.index, h'.index, Int.natCast_inj] at hindex
  rw [h.line, h'.line] at hline
  rw [h.column, h'.column] at hcolumn
  rcases hdiffers with hne | hne
  · exact hne hindex
  · exact hne (Prod.ext hline hcolumn)

theorem pairwise_of_forall₂ {α β : Type} {R : α → β → Prop} {S : α → α → Prop} {T : β → β → Prop}
    {xs : List α} {ys : List β} (h : List.Forall₂ R xs ys) (hpairs : xs.Pairwise S)
    (hstep : ∀ {x x' y y'}, R x y → R x' y' → S x x' → T y y') : ys.Pairwise T := by
  induction h with
  | nil => exact .nil
  | @cons x y xs ys hx hxs ih =>
    obtain ⟨hhead, htail⟩ := List.pairwise_cons.mp hpairs
    refine .cons (fun y' hy' => ?_) (ih htail)
    obtain ⟨n, hn, rfl⟩ := List.getElem_of_mem hy'
    have hn' : n < xs.length := hxs.length_eq ▸ hn
    exact hstep hx (hxs.get hn' hn) (hhead _ (List.getElem_mem hn'))

theorem exists_keys {choices : List Choice} {placed : List (Insertion × InjectionPoint)}
    (h : List.Forall₂ (fun c a => c.Answered source options spelling a.1 a.2) choices placed) :
    ∃ keys, List.Forall₂ (fun a key => a.2.key? options.filePath = some key ∧
      a.2.id = idOfKey key) placed keys := by
  induction h with
  | nil => exact ⟨[], .nil⟩
  | cons hhead _ ih =>
    obtain ⟨key, hkey⟩ := exists_key_of_answered hhead
    obtain ⟨keys, hkeys⟩ := ih
    exact ⟨key :: keys, .cons hkey hkeys⟩

/-- Two different keys with one digest. -/
def Collide (key key' : String) : Prop :=
  key ≠ key' ∧ (Sha256.hex (Text.Utf8.encode key.toList)).take 8 =
    (Sha256.hex (Text.Utf8.encode key'.toList)).take 8

/-- Each point of a file has a key, of which its id is the digest, and no two of them have the same
one, whatever their containers are called. So two ids are equal only where two keys collide. -/
theorem keys_nodup_of_placements {bodies : List Body} {placed : List (Insertion × InjectionPoint)}
    (hplaced : placements source options spelling bodies = .ok placed) (hapart : Apart bodies) :
    ∃ keys : List String,
      List.Forall₂ (fun a key => a.2.key? options.filePath = some key ∧ a.2.id = String.ofList
        ((Sha256.hex (Text.Utf8.encode key.toList)).take 8)) placed keys ∧
      keys.Nodup ∧
      placed.Pairwise fun a b => a.2.id = b.2.id → ∃ key key', Collide key key' ∧
        a.2.key? options.filePath = some key ∧ b.2.key? options.filePath = some key' := by
  have hanswers := placements_eq_ok_iff.mp hplaced
  obtain ⟨keys, hkeys⟩ := exists_keys hanswers
  have hdiffer : placed.Pairwise fun a b =>
      a.2.key? options.filePath ≠ b.2.key? options.filePath :=
    pairwise_of_forall₂ hanswers (pairwise_differs_flatMap_due hapart)
      fun h h' hdiffers => key?_ne_of_differs h h' hdiffers
  refine ⟨keys, hkeys, ?_, ?_⟩
  · refine pairwise_of_forall₂ hkeys hdiffer fun h h' hne heq => hne ?_
    rw [h.1, h'.1, heq]
  · have hall : ∀ a ∈ placed, ∃ key, a.2.key? options.filePath = some key ∧
        a.2.id = idOfKey key := fun a ha => by
      obtain ⟨n, hn, rfl⟩ := List.getElem_of_mem ha
      exact ⟨_, hkeys.get hn (hkeys.length_eq ▸ hn)⟩
    refine hdiffer.imp_of_mem fun {a b} ha hb hne hid => ?_
    obtain ⟨key, hkey, hdigest⟩ := hall a ha
    obtain ⟨key', hkey', hdigest'⟩ := hall b hb
    refine ⟨key, key', ⟨?_, ?_⟩, hkey, hkey'⟩
    · rintro rfl
      exact hne (hkey.trans hkey'.symm)
    · exact String.ofList_injective (hdigest.symm.trans (hid.trans hdigest'))

/-- Two arrow functions, and a container whose name reads like the numbers of a point. -/
theorem keys_nodup_of_shared_names :
    let bodies : List Body := [⟨"<arrow>", [⟨.plain, 0, 1, 0⟩, ⟨.plain, 3, 2, 0⟩]⟩,
      ⟨"<arrow>", [⟨.plain, 6, 3, 0⟩]⟩, ⟨"<arrow>:0:1", [⟨.plain, 9, 4, 0⟩]⟩]
    ∃ placed, ∃ keys : List String,
      placements (Text.Utf8.encode "a;\nb;\nc;\nd;\n".toList) ⟨"a.js", "hardcore", 7, 0, 50, true⟩
        ⟨"/* ", " */", "await f(", ");", true⟩ bodies = .ok placed ∧
      Apart bodies ∧ keys.length = 4 ∧ keys.Nodup ∧
      List.Forall₂ (fun a key => a.2.key? "a.js" = some key ∧ a.2.id = String.ofList
        ((Sha256.hex (Text.Utf8.encode key.toList)).take 8)) placed keys := by
  intro bodies
  have hlength : (placements (Text.Utf8.encode "a;\nb;\nc;\nd;\n".toList)
      ⟨"a.js", "hardcore", 7, 0, 50, true⟩ ⟨"/* ", " */", "await f(", ");", true⟩ bodies).toOption.map
        List.length = some 4 := by
    decide +kernel
  have hapart : Apart bodies := by
    unfold Apart bodies
    decide
  cases h : placements (Text.Utf8.encode "a;\nb;\nc;\nd;\n".toList)
      ⟨"a.js", "hardcore", 7, 0, 50, true⟩ ⟨"/* ", " */", "await f(", ");", true⟩ bodies with
  | error e =>
    rw [h] at hlength
    cases hlength
  | ok placed =>
    rw [h] at hlength
    obtain ⟨keys, hkeys, hnodup, -⟩ := keys_nodup_of_placements h hapart
    exact ⟨placed, keys, rfl, hapart, hkeys.length_eq ▸ Option.some.inj hlength, hnodup, hkeys⟩

end Injection
end DelayInjection
