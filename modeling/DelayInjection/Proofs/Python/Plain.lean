import DelayInjection.Proofs.Injection.Splice
import DelayInjection.Proofs.Python.Marked
import DelayInjection.Proofs.Python.Step
import DelayInjection.Proofs.Recovery.Insertion

/-! Python sources that are read as they stand, and that still are with lines put in that declare no
encoding. -/

namespace DelayInjection.Python

open Injection (joined newline startsWithMark)
open Text.Utf8 (Bytes encode)

/-! ## Sources that are read as they stand -/

theorem return_not_mem_unifyNewlines (bytes : Bytes) : 13 ∉ unifyNewlines bytes := by
  induction bytes using unifyNewlines.induct with
  | case1 => exact List.not_mem_nil
  | case2 rest ih => simpa [unifyNewlines] using ih
  | case3 rest hne ih =>
    rw [unifyNewlines.eq_3 _ hne]
    simpa using ih
  | case4 b rest hne hb ih =>
    rw [unifyNewlines.eq_4 _ _ hne hb, List.mem_cons, not_or]
    exact ⟨fun h => hb h.symm, ih⟩

theorem unifyNewlines_of_not_mem {bytes : Bytes} (h : 13 ∉ bytes) : unifyNewlines bytes = bytes := by
  induction bytes using unifyNewlines.induct with
  | case1 => rfl
  | case2 rest ih => exact absurd List.mem_cons_self h
  | case3 rest hne ih => exact absurd List.mem_cons_self h
  | case4 b rest hne hb ih =>
    rw [unifyNewlines.eq_4 _ _ hne hb, ih fun hmem => h (List.mem_cons_of_mem _ hmem)]

theorem return_not_mem_endLine (bytes : Bytes) : 13 ∉ endLine (unifyNewlines bytes) := by
  have hnot := return_not_mem_unifyNewlines bytes
  unfold endLine
  split
  · simpa using hnot
  · exact hnot

/-- All lines of the source end in newlines, and no mark stands in front of it. -/
structure IsPlain (source : List Char) : Prop where
  returns : '\r' ∉ source
  ended : endLine (encode source) = encode source
  unmarked : startsWithMark (encode source) = false

variable {source : List Char}

theorem length_le_encode (t : List Char) : t.length ≤ (encode t).length := by
  induction t with
  | nil => exact Nat.le_refl _
  | cons c t ih =>
    have hpos := List.length_pos_iff.mpr (Text.Utf8.encodeChar_ne_nil c)
    rw [Text.Utf8.encode_cons, List.length_append, List.length_cons]
    omega

theorem endLine_cases (bytes : Bytes) : endLine bytes = bytes ∨ endLine bytes = bytes ++ [10] := by
  unfold endLine
  split
  · exact .inr rfl
  · exact .inl rfl

/-- A decoded text has no more characters than there are bytes, and a return only where there is one. -/
theorem of_decodeAs {encoding : Encoding} {bytes : Bytes} {text : List Char}
    (h : decodeAs encoding bytes = some text) :
    (encoding = .utf8 → encode text = bytes) ∧ (encoding ≠ .utf8 → text.length = bytes.length) ∧
      ('\r' ∈ text → 13 ∈ bytes) := by
  have hmap : text = bytes.map (fun b => Char.ofNat b.toNat) → text.length = bytes.length ∧
      ('\r' ∈ text → 13 ∈ bytes) := by
    rintro rfl
    refine ⟨List.length_map _, fun hmem => ?_⟩
    obtain ⟨b, hb, hreturn⟩ := List.mem_map.mp hmem
    have hnat := congrArg Char.toNat hreturn
    rw [toNat_ofNat_toNat] at hnat
    rwa [UInt8.toNat_inj.mp (show b.toNat = (13 : UInt8).toNat from hnat)] at hb
  unfold decodeAs at h
  split at h
  · unfold Text.Utf8.decode? at h
    cases hd : Text.Utf8.decode bytes with
    | error e =>
      rw [hd] at h
      cases h
    | ok t =>
      rw [hd] at h
      cases h
      have hencode := Text.Utf8.encode_of_decode hd
      refine ⟨fun _ => hencode, fun hne => absurd rfl hne, fun hmem => ?_⟩
      rw [← hencode]
      exact (Injection.mem_encode_iff (d := '\r') (by decide)).mpr hmem
  · obtain ⟨hlength, hreturn⟩ := hmap (Option.some.inj h).symm
    exact ⟨fun h => (nomatch h), fun _ => hlength, hreturn⟩
  · split at h
    · obtain ⟨hlength, hreturn⟩ := hmap (Option.some.inj h).symm
      exact ⟨fun h => (nomatch h), fun _ => hlength, hreturn⟩
    · cases h

/-- What is read is decoded, and behind a mark as UTF-8. -/
theorem exists_decodeAs {bytes : Bytes} {text : List Char} (h : characters? bytes = some text) :
    ∃ encoding, decodeAs encoding (if Text.Utf8.byteOrderMark.isPrefixOf (endLine (unifyNewlines bytes))
        then (endLine (unifyNewlines bytes)).drop 3 else endLine (unifyNewlines bytes)) = some text ∧
      (Text.Utf8.byteOrderMark.isPrefixOf (endLine (unifyNewlines bytes)) = true → encoding = .utf8) := by
  unfold characters? at h
  simp only at h
  split at h
  · exact ⟨_, h, fun _ => rfl⟩
  next name _ =>
    split at h
    · cases h
    next encoding hencoding =>
      split at h
      · cases h
      next hstarts =>
        refine ⟨encoding, h, fun hmark => ?_⟩
        have hutf : startsAs (String.ofList ((name.map lowerByte).take 12)) "utf-8" = true := by
          simpa [hmark] using hstarts
        simp only [encodingNamed, hutf, if_true, Option.some.injEq] at hencoding
        exact hencoding.symm

/-- A source that is read as it stands. -/
theorem isPlain_of_characters (h : characters? (encode source) = some source) : IsPlain source := by
  obtain ⟨encoding, hdecode, hmark⟩ := exists_decodeAs h
  obtain ⟨hutf, hother, hreturn⟩ := of_decodeAs hdecode
  have hreturns : '\r' ∉ source := by
    intro hmem
    have hbyte := hreturn hmem
    refine return_not_mem_endLine (encode source) ?_
    split at hbyte
    · exact List.mem_of_mem_drop hbyte
    · exact hbyte
  have hbytes : 13 ∉ encode source := fun hmem =>
    hreturns ((Injection.mem_encode_iff (d := '\r') (by decide)).mp hmem)
  rw [unifyNewlines_of_not_mem hbytes] at hmark hutf hother
  -- no byte may be lost or added
  have hended : endLine (encode source) = encode source := by
    refine (endLine_cases (encode source)).resolve_right fun hadded => ?_
    have hlength := length_le_encode source
    have hlength' := congrArg List.length hadded
    rw [List.length_append, List.length_singleton] at hlength'
    by_cases hkind : encoding = .utf8
    · have hsame := congrArg List.length (hutf hkind)
      split at hsame
      next hfront =>
        have hthree := (List.isPrefixOf_iff_prefix.mp hfront).length_le
        rw [List.length_drop] at hsame
        simp only [Text.Utf8.byteOrderMark, List.length_cons, List.length_nil] at hthree
        omega
      · omega
    · have hsame := hother hkind
      rw [if_neg fun hfront => hkind (hmark hfront)] at hsame
      omega
  refine ⟨hreturns, hended, Bool.eq_false_iff.mpr fun hstarts => ?_⟩
  have hfront : Text.Utf8.byteOrderMark.isPrefixOf (endLine (encode source)) = true := by
    rwa [hended]
  have hsame := congrArg List.length (hutf (hmark hfront))
  have hthree := (List.isPrefixOf_iff_prefix.mp hfront).length_le
  rw [if_pos hfront, hended, List.length_drop] at hsame
  rw [hended] at hthree
  simp only [Text.Utf8.byteOrderMark, List.length_cons, List.length_nil] at hthree
  omega

/-! ## ASCII -/

theorem ascii_of_length {t : List Char} (h : (encode t).length = t.length) : ∀ c ∈ t, c.toNat < 128 := by
  induction t with
  | nil => exact fun _ hc => nomatch hc
  | cons c t ih =>
    have hle := length_le_encode t
    rw [Text.Utf8.encode_cons, List.length_append, List.length_cons] at h
    have hpos := List.length_pos_iff.mpr (Text.Utf8.encodeChar_ne_nil c)
    intro d hd
    rcases List.mem_cons.mp hd with rfl | hd
    · have hone : (Text.Utf8.encodeChar d).length = 1 := by omega
      refine Nat.lt_of_not_le fun hlarge => ?_
      unfold Text.Utf8.encodeChar String.utf8EncodeChar at hone
      simp only [show d.val.toNat = d.toNat from rfl] at hone
      rw [if_neg (by omega)] at hone
      split at hone
      · cases hone
      · split at hone <;> cases hone
    · exact ih (by omega) d hd

theorem map_encode_of_ascii {t : List Char} (h : ∀ c ∈ t, c.toNat < 128) :
    (encode t).map (fun b => Char.ofNat b.toNat) = t ∧ (encode t).all (· < 128) = true := by
  induction t with
  | nil => exact ⟨rfl, rfl⟩
  | cons c t ih =>
    obtain ⟨hmap, hall⟩ := ih fun d hd => h d (List.mem_cons_of_mem _ hd)
    have hc := h c List.mem_cons_self
    have hn := Text.Utf8.toNat_ofNat_small (show c.toNat < 256 by omega)
    rw [Text.Utf8.encode_cons, Text.Utf8.encodeChar_ascii hc, List.singleton_append, List.map_cons, hmap, hn,
      Char.ofNat_toNat, List.all_cons, hall, Bool.and_true, decide_eq_true_eq, UInt8.lt_iff_toNat_lt, hn]
    exact ⟨rfl, hc⟩

/-- In an encoding other than UTF-8 only ASCII is read as it stands. -/
theorem decodeAs_encode_iff {encoding : Encoding} {t : List Char} :
    decodeAs encoding (encode t) = some t ↔ encoding = .utf8 ∨ ∀ c ∈ t, c.toNat < 128 := by
  constructor
  · intro h
    refine or_iff_not_imp_left.mpr fun hne => ascii_of_length ?_
    exact ((of_decodeAs h).2.1 hne).symm
  · rintro (rfl | h)
    · rw [decodeAs, Text.Utf8.decode?, Text.Utf8.decode_encode]
      rfl
    · obtain ⟨hmap, hall⟩ := map_encode_of_ascii h
      cases encoding with
      | utf8 =>
        rw [decodeAs, Text.Utf8.decode?, Text.Utf8.decode_encode]
        rfl
      | latin1 => rw [decodeAs, hmap]
      | ascii => rw [decodeAs, if_pos hall, hmap]

/-! ## Declarations -/

theorem firstLine_newline {line rest : Bytes} (h : 10 ∉ line) :
    firstLine (line ++ 10 :: rest) = (line, rest) := by
  have htake : (line ++ 10 :: rest).takeWhile (· != 10) = line := by
    have hall : ∀ b ∈ line, (b != 10) = true := fun b hb => bne_iff_ne.mpr (by rintro rfl; exact h hb)
    rw [List.takeWhile_append_of_pos hall, List.takeWhile_cons_of_neg (by decide), List.append_nil]
  rw [firstLine]
  simp only [htake]
  rw [List.drop_append]
  simp

theorem declaration?_newline {line rest : Bytes} (h : 10 ∉ line) : declaration? (line ++ 10 :: rest) =
    match declared? line with
    | some name => some name
    | none => if mayPrecede line && rest.contains 10 then declared? (firstLine rest).1 else none := by
  cases hdeclared : declared? line <;> simp [declaration?, firstLine_newline h, hdeclared]

/-- A declaration holds the letters of `coding`. -/
theorem declaredIn_eq_none {bytes : Bytes} (h : 110 ∉ bytes) : declaredIn bytes = none := by
  induction bytes with
  | nil => rfl
  | cons b bytes ih =>
    have hfront : (ofAscii "coding").isPrefixOf (b :: bytes) = false := by
      refine Bool.eq_false_iff.mpr fun hfront => h ?_
      exact (List.isPrefixOf_iff_prefix.mp hfront).subset (by decide)
    rw [declaredIn]
    simp only [hfront, Bool.false_and, Bool.false_eq_true, if_false, List.isEmpty_nil, if_true]
    exact ih fun hmem => h (List.mem_cons_of_mem _ hmem)

/-- It starts with the first of them. -/
theorem declaredIn_append {front : Bytes} (h : 99 ∉ front) (bytes : Bytes) :
    declaredIn (front ++ bytes) = declaredIn bytes := by
  induction front with
  | nil => rfl
  | cons b front ih =>
    have hfront : (ofAscii "coding").isPrefixOf (b :: (front ++ bytes)) = false := by
      refine Bool.eq_false_iff.mpr fun hfront => h ?_
      obtain ⟨rest, hrest⟩ := List.isPrefixOf_iff_prefix.mp hfront
      exact (List.cons.inj hrest).1 ▸ List.mem_cons_self
    rw [List.cons_append, declaredIn]
    simp only [hfront, Bool.false_and, Bool.false_eq_true, if_false, List.isEmpty_nil, if_true]
    exact ih fun hmem => h (List.mem_cons_of_mem _ hmem)

/-- Blanks in front of code change nothing. -/
theorem dropWhile_encode_gap {gap t : List Char} {c : Char} (hgap : ∀ d ∈ gap, isGap d = true)
    (hc : c.toNat < 128) (hcode : isLineGap (UInt8.ofNat c.toNat) = false) :
    (encode (gap ++ c :: t)).dropWhile isLineGap = encode (c :: t) := by
  induction gap with
  | nil =>
    rw [List.nil_append, Text.Utf8.encode_cons, Text.Utf8.encodeChar_ascii hc, List.singleton_append,
      List.dropWhile_cons_of_neg (by rw [hcode]; exact Bool.false_ne_true)]
  | cons d gap ih =>
    have hd := hgap d List.mem_cons_self
    simp only [isGap, Bool.or_eq_true, beq_iff_eq] at hd
    have hblank : ∃ b, Text.Utf8.encodeChar d = [b] ∧ isLineGap b = true := by
      rcases hd with (rfl | rfl) | rfl
      · exact ⟨32, rfl, rfl⟩
      · exact ⟨9, rfl, rfl⟩
      · exact ⟨12, rfl, rfl⟩
    obtain ⟨b, hb, hblank⟩ := hblank
    rw [List.cons_append, Text.Utf8.encode_cons, hb, List.singleton_append, List.dropWhile_cons_of_pos hblank]
    exact ih fun e he => hgap e (List.mem_cons_of_mem _ he)

/-- With a line put in that declares nothing, the same is declared or nothing. -/
theorem declaration?_of_line {above line more rest : Bytes} (habove : above = [] ∨ ∃ s, above = s ++ [10])
    (hline : 10 ∉ line) (hnone : declared? line = none)
    (hsecond : mayPrecede line = true → declared? (firstLine more).1 = none) :
    declaration? (above ++ (line ++ 10 :: more)) = none ∨
      declaration? (above ++ (line ++ 10 :: more)) = declaration? (above ++ rest) := by
  have hopen : ∀ {bytes : Bytes}, (bytes = [] ∨ ∃ s, bytes = s ++ [10]) → bytes ≠ [] →
      ∃ first below, bytes = first ++ 10 :: below ∧ 10 ∉ first ∧ (below = [] ∨ ∃ s, below = s ++ [10]) := by
    intro bytes hends hne
    obtain ⟨s, rfl⟩ := hends.resolve_left hne
    obtain ⟨first, below, hsplit, hfirst⟩ :=
      List.eq_append_cons_of_mem (List.mem_append_right s (List.mem_singleton_self (10 : UInt8)))
    refine ⟨first, below, hsplit, hfirst, ?_⟩
    rcases below.eq_nil_or_concat' with hnil | ⟨t, b, rfl⟩
    · exact .inl hnil
    · have hconcat : s ++ [10] = (first ++ 10 :: t) ++ [b] := by rw [hsplit]; simp
      have hlast := congrArg List.getLast? hconcat
      rw [List.getLast?_concat, List.getLast?_concat] at hlast
      exact .inr ⟨t, by rw [← Option.some.inj hlast]⟩
  by_cases hne : above = []
  · rw [hne, List.nil_append, declaration?_newline hline, hnone]
    left
    simp only
    split
    next hprecede =>
      rw [Bool.and_eq_true] at hprecede
      exact hsecond hprecede.1
    · rfl
  · obtain ⟨first, below, rfl, hfirst, hbelow⟩ := hopen habove hne
    simp only [List.append_assoc, List.cons_append]
    rw [declaration?_newline hfirst, declaration?_newline hfirst]
    cases hdeclared : declared? first with
    | some name => exact .inr rfl
    | none =>
      simp only
      by_cases hne : below = []
      · -- the line is the second one
        left
        rw [hne, List.nil_append, firstLine_newline hline, hnone, ite_self]
      · obtain ⟨second, below, rfl, hsecond, -⟩ := hopen hbelow hne
        right
        simp only [List.append_assoc, List.cons_append, firstLine_newline hsecond]
        simp

/-! ## Lines put in -/

theorem characters?_of_plain {encoded : List Char} (h : IsPlain encoded) :
    characters? (encode encoded) = match declaration? (encode encoded) with
      | none => some encoded
      | some name => (encodingNamed name).bind fun encoding => decodeAs encoding (encode encoded) := by
  have hnot : 13 ∉ encode encoded := fun hmem =>
    h.returns ((Injection.mem_encode_iff (d := '\r') (by decide)).mp hmem)
  have hmark : Text.Utf8.byteOrderMark.isPrefixOf (encode encoded) = false := h.unmarked
  unfold characters?
  simp only [unifyNewlines_of_not_mem hnot, h.ended, hmark, Bool.false_eq_true, if_false, Bool.false_and]
  cases declaration? (encode encoded) with
  | none => exact decodeAs_encode_iff.mpr (.inl rfl)
  | some name =>
    cases hencoding : encodingNamed name with
    | none => simp only [hencoding, Option.bind_none]
    | some encoding => simp only [hencoding, Option.bind_some]

theorem endLine_encode_iff {t : List Char} :
    endLine (encode t) = encode t ↔ ∀ c ∈ t.getLast?, c = '\n' := by
  rcases t.eq_nil_or_concat' with rfl | ⟨front, c, rfl⟩
  · simp [endLine]
  · obtain ⟨bytes, b, hb⟩ : ∃ bytes b, Text.Utf8.encodeChar c = bytes ++ [b] :=
      ((Text.Utf8.encodeChar c).eq_nil_or_concat').resolve_left (Text.Utf8.encodeChar_ne_nil c)
    have hmem : b = 10 ↔ c = '\n' := by
      constructor
      · rintro rfl
        have hin : (10 : UInt8) ∈ encode [c] := by
          rw [Text.Utf8.encode_cons, hb]
          simp
        exact (List.mem_singleton.mp ((Injection.mem_encode_iff (d := '\n') (by decide)).mp hin)).symm
      · rintro rfl
        have hlast := congrArg List.getLast? hb
        rw [List.getLast?_concat] at hlast
        exact (Option.some.inj hlast).symm
    have hlast : (encode (front ++ [c])).getLast? = some b := by
      rw [Text.Utf8.encode_append, Text.Utf8.encode_cons, hb, Text.Utf8.encode_nil, List.append_nil,
        ← List.append_assoc, List.getLast?_concat]
    rw [endLine, hlast, List.getLast?_concat, Option.any_some]
    split
    next hne =>
      refine iff_of_false (fun h => ?_) fun h => ?_
      · simpa using congrArg List.length h
      · rw [hmem.mpr (h c rfl)] at hne
        cases hne
    next heq =>
      refine iff_of_true rfl fun d hd => ?_
      cases hd
      exact hmem.mp (by simpa using heq)

/-- What is written opens a line behind blanks, and declares no encoding there nor on the next line. -/
def Undeclared (front written : List Char) : Prop :=
  ∃ above gap line more, front = above ++ gap ∧ Text.EndsLine above ∧ '\n' ∉ gap ++ line ∧
    written = line ++ '\n' :: more ∧ declared? (encode (gap ++ line)) = none ∧
    (mayPrecede (encode (gap ++ line)) = true → ∃ second rest, more = second ++ '\n' :: rest ∧ '\n' ∉ second ∧
      declared? (encode second) = none)

theorem newline_not_mem_encode {t : List Char} (h : '\n' ∉ t) : 10 ∉ encode t := fun hmem =>
  h ((Injection.mem_encode_iff (d := '\n') (by decide)).mp hmem)

theorem declaration?_of_undeclared {front written below rest : List Char} (h : Undeclared front written) :
    declaration? (encode (front ++ written ++ below)) = none ∨
      declaration? (encode (front ++ written ++ below)) = declaration? (encode (front ++ rest)) := by
  obtain ⟨above, gap, line, more, rfl, hends, hline, rfl, hnone, hsecond⟩ := h
  have hleft : encode (above ++ gap ++ (line ++ '\n' :: more) ++ below) =
      encode above ++ (encode (gap ++ line) ++ 10 :: encode (more ++ below)) := by
    simp only [Text.Utf8.encode_append, Text.Utf8.encode_cons, List.append_assoc]
    rfl
  have hbytes : encode above = [] ∨ ∃ s, encode above = s ++ [10] := by
    rcases hends with rfl | ⟨s, rfl⟩
    · exact .inl rfl
    · exact .inr ⟨encode s, Text.Utf8.encode_append _ _⟩
  rw [hleft, List.append_assoc, Text.Utf8.encode_append above]
  refine declaration?_of_line hbytes (newline_not_mem_encode hline) hnone fun hprecede => ?_
  obtain ⟨second, rest, rfl, hfree, hundeclared⟩ := hsecond hprecede
  have hmore : encode (second ++ '\n' :: rest ++ below) = encode second ++ 10 :: encode (rest ++ below) := by
    simp only [Text.Utf8.encode_append, Text.Utf8.encode_cons, List.append_assoc]
    rfl
  rw [hmore, firstLine_newline (newline_not_mem_encode hfree)]
  exact hundeclared

section Joined

variable {ε : Type} {f : ε → List Char} {cuts : List (List Char × ε)} {tail : List Char}
  (hascii : ∀ cut ∈ cuts, ∀ c ∈ f cut.2, c.toNat < 128 ∧ c ≠ '\r')

include hascii

theorem IsPlain.joined (h : IsPlain (joined (fun _ => []) cuts tail))
    (hlast : tail = [] → ∀ above cut, cuts = above ++ [cut] → ∃ v, f cut.2 = v ++ ['\n']) :
    IsPlain (Injection.joined f cuts tail) := by
  refine ⟨fun hmem => ?_, endLine_encode_iff.mpr ?_, Bool.eq_false_iff.mpr fun hmark => ?_⟩
  · rcases Injection.mem_joined hmem with hmem | ⟨cut, hcut, hmem⟩
    · exact h.returns hmem
    · exact (hascii cut hcut _ hmem).2 rfl
  · have hended := endLine_encode_iff.mp h.ended
    rcases tail.eq_nil_or_concat' with rfl | ⟨front, c, rfl⟩
    · rcases cuts.eq_nil_or_concat' with rfl | ⟨above, cut, rfl⟩
      · exact fun c hc => nomatch hc
      · obtain ⟨v, hv⟩ := hlast rfl above cut rfl
        rw [Injection.joined_split, hv, Injection.joined_nil, List.append_nil, ← List.append_assoc,
          List.getLast?_concat]
        exact fun c hc => (Option.some.inj hc).symm
    · rw [Injection.joined_append, List.getLast?_concat] at hended ⊢
      exact hended
  · have hhead : ∀ {t : List Char}, startsWithMark (encode t) = true ↔ t.head? = some Text.mark := by
      intro t
      rw [startsWithMark_encode]
      cases t with
      | nil => simp [Text.splitMark]
      | cons c t =>
        rw [Text.splitMark]
        split
        next hc => simp [hc]
        next hc => simp [hc]
    have hfree : ∀ cut ∈ cuts, (f cut.2).head? ≠ some Text.mark := fun cut hcut hmem =>
      absurd (hascii cut hcut _ (List.mem_of_head? hmem)).1 (by decide)
    have hmark' := hhead.mpr (Injection.head?_joined hfree (hhead.mp hmark))
    rw [h.unmarked] at hmark'
    cases hmark'

/-- Such a source is still read as it stands. -/
theorem characters?_joined
    (hread : characters? (encode (Injection.joined (fun _ => []) cuts tail)) =
      some (Injection.joined (fun _ => []) cuts tail))
    (hfirst : ∀ cut below, cuts = cut :: below → Undeclared cut.1 (f cut.2))
    (hlast : tail = [] → ∀ above cut, cuts = above ++ [cut] → ∃ v, f cut.2 = v ++ ['\n']) :
    characters? (encode (Injection.joined f cuts tail)) = some (Injection.joined f cuts tail) := by
  have hplain := isPlain_of_characters hread
  have hdeclared : declaration? (encode (Injection.joined f cuts tail)) = none ∨
      declaration? (encode (Injection.joined f cuts tail)) =
        declaration? (encode (Injection.joined (fun _ => []) cuts tail)) := by
    cases cuts with
    | nil => exact .inr rfl
    | cons cut below =>
      obtain ⟨piece, e⟩ := cut
      rw [Injection.joined_cons, Injection.joined_cons, List.append_nil]
      exact declaration?_of_undeclared (hfirst (piece, e) below rfl)
  rw [characters?_of_plain hplain] at hread
  rw [characters?_of_plain (hplain.joined hascii hlast)]
  rcases hdeclared with hnone | hsame
  · rw [hnone]
  · rw [hsame]
    split at hread
    · rfl
    · obtain ⟨encoding, hencoding, hdecode⟩ := Option.bind_eq_some_iff.mp hread
      rw [hencoding, Option.bind_some]
      refine decodeAs_encode_iff.mpr ((decodeAs_encode_iff.mp hdecode).imp_right fun hall c hc => ?_)
      rcases Injection.mem_joined hc with hc | ⟨cut, hcut, hc⟩
      · exact hall c hc
      · exact (hascii cut hcut c hc).1

end Joined

end DelayInjection.Python
