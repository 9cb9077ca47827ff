import DelayInjection.Json.Reader
import DelayInjection.Json.Writer
import DelayInjection.Proofs.Text.Numeral
import Mathlib.Algebra.Ring.Nat

/-! Texts and integers as JSON are read back as they were. -/

namespace DelayInjection.Json

open Text (hexDigits units16)

/-! ## Hexadecimal digits -/

theorem hexValue?_hexDigit {n : Nat} (h : n < 16) : hexValue? (Text.Utf8.hexDigit n) = some n := by
  revert n
  decide

theorem hexNumber?_append (digits : List Char) (c : Char) :
    hexNumber? (digits ++ [c]) =
      (hexNumber? digits).bind fun n => (hexValue? c).map (16 * n + ·) := by
  rw [hexNumber?, List.foldl_append]
  rfl

theorem hexNumber?_hexDigits (count n : Nat) : hexNumber? (hexDigits count n) = some (n % 16 ^ count) := by
  induction count generalizing n with
  | zero => rw [Nat.pow_zero, Nat.mod_one]; rfl
  | succ count ih =>
    rw [hexDigits, hexNumber?_append, ih, Option.bind_some,
      hexValue?_hexDigit (Nat.mod_lt _ (by decide)), Option.map_some, Nat.pow_succ, Nat.mul_comm _ 16,
      Nat.mod_mul]
    congr 1
    omega

theorem length_hexDigits (count n : Nat) : (hexDigits count n).length = count := by
  induction count generalizing n with
  | zero => rfl
  | succ count ih => rw [hexDigits, List.length_append, ih, List.length_singleton]

/-! ## Places -/

theorem Place.advance_advance (p : Place) (m n : Nat) :
    (p.advance m).advance n = p.advance (m + n) := by
  simp [advance, List.drop_drop, Nat.add_assoc]

theorem Place.rest_advance {p : Place} {text rest : List Char} (h : p.rest = text ++ rest) :
    (p.advance text.length).rest = rest := by
  rw [advance, h, List.drop_left]

/-! ## Texts -/

/-- One escape of a unit, with its hexadecimal digits. -/
def unitEscape (unit : Nat) : List Char := '\\' :: 'u' :: hexDigits 4 unit

theorem length_unitEscape (unit : Nat) : (unitEscape unit).length = 6 := by
  rw [unitEscape, List.length_cons, List.length_cons, length_hexDigits]

/-- The units of a character that takes one, or two that are a pair. -/
theorem units16_cases (c : Char) :
    (∃ n, units16 c = [n] ∧ n < 0x10000 ∧ ¬(0xD800 ≤ n ∧ n < 0xE000) ∧ Char.ofNat n = c) ∨
      ∃ high low, units16 c = [high, low] ∧ 0xD800 ≤ high ∧ high < 0xDC00 ∧ 0xDC00 ≤ low ∧
        low < 0xE000 ∧ Char.ofNat (0x10000 + (high - 0xD800) * 0x400 + (low - 0xDC00)) = c := by
  have hvalid := c.valid
  have hnat : Char.ofNat c.toNat = c := Char.ofNat_toNat c
  have hbounds : c.toNat < 0xD800 ∨ 0xDFFF < c.toNat ∧ c.toNat < 0x110000 := hvalid
  rw [units16]
  by_cases hsmall : c.toNat < 0x10000
  · exact .inl ⟨c.toNat, if_pos hsmall, hsmall, by omega, hnat⟩
  · refine .inr ⟨_, _, if_neg hsmall, by omega, by omega, by omega, by omega, ?_⟩
    rw [show 0x10000 + (0xD800 + (c.toNat - 0x10000) / 0x400 - 0xD800) * 0x400 +
        (0xDC00 + (c.toNat - 0x10000) % 0x400 - 0xDC00) = c.toNat by omega]
    exact hnat

section Unicode

variable {p : Place} {rest : List Char}

theorem readUnicode_single {n : Nat} (hn : n < 0x10000) (half : ¬(0xD800 ≤ n ∧ n < 0xE000))
    (hp : p.rest = 'u' :: (hexDigits 4 n ++ rest)) (hrest : rest ≠ []) :
    readUnicode p = .ok (Char.ofNat n, p.advance 5) := by
  have hlength := length_hexDigits 4 n
  have hpos := List.length_pos_iff.mpr hrest
  have hdigits : (p.advance 1).rest = hexDigits 4 n ++ rest := by
    rw [Place.advance, hp]
    rfl
  have htake : (p.advance 1).rest.take 4 = hexDigits 4 n := by
    rw [hdigits, List.take_left' hlength]
  have hlong : ¬(p.advance 1).rest.length ≤ 4 := by
    rw [hdigits, List.length_append]
    omega
  have hmod : n % 16 ^ 4 = n := Nat.mod_eq_of_lt hn
  simp only [readUnicode, if_neg hlong, htake, hexNumber?_hexDigits, hmod, Place.advance_advance,
    ofUnit, if_neg half]
  split
  · rw [if_neg (by omega)]
  · rfl

theorem readUnicode_pair {high low : Nat} (hhigh : 0xD800 ≤ high) (hhigh' : high < 0xDC00)
    (hlow : 0xDC00 ≤ low) (hlow' : low < 0xE000)
    (hp : p.rest = 'u' :: (hexDigits 4 high ++ (unitEscape low ++ rest))) (hrest : rest ≠ []) :
    readUnicode p = .ok (Char.ofNat (0x10000 + (high - 0xD800) * 0x400 + (low - 0xDC00)),
      p.advance 11) := by
  have hlength := length_hexDigits 4 high
  have hlength' := length_hexDigits 4 low
  have hpos := List.length_pos_iff.mpr hrest
  have hdigits : (p.advance 1).rest = hexDigits 4 high ++ (unitEscape low ++ rest) := by
    rw [Place.advance, hp]
    rfl
  have htake : (p.advance 1).rest.take 4 = hexDigits 4 high := by
    rw [hdigits, List.take_left' hlength]
  have hlong : ¬(p.advance 1).rest.length ≤ 4 := by
    rw [hdigits, List.length_append, List.length_append, length_unitEscape]
    omega
  have hnext : (p.advance (1 + 4)).rest = '\\' :: 'u' :: (hexDigits 4 low ++ rest) := by
    have hdrop := Place.rest_advance hdigits
    rw [hlength, Place.advance_advance] at hdrop
    rw [hdrop]
    rfl
  have hmod : high % 16 ^ 4 = high := Nat.mod_eq_of_lt (by omega)
  have hmod' : low % 16 ^ 4 = low := Nat.mod_eq_of_lt (by omega)
  have hpair : 0xD800 ≤ high ∧ high < 0xDC00 ∧ 4 < (hexDigits 4 low ++ rest).length := by
    rw [List.length_append]
    omega
  simp only [readUnicode, if_neg hlong, htake, hexNumber?_hexDigits, hmod, Place.advance_advance,
    hnext, if_pos hpair, List.take_left' hlength', hmod']
  rw [if_pos ⟨hlow, hlow'⟩]

end Unicode

/-- What a character is written as: itself, a short escape, or the escapes of its units. -/
theorem escapeChar_cases (c : Char) :
    (escapeChar c = [c] ∧ c ≠ '"' ∧ c ≠ '\\' ∧ ¬c.toNat < 32) ∨
      (∃ e, escapeChar c = ['\\', e] ∧ e ≠ 'u' ∧ simpleEscape? e = some c) ∨
      escapeChar c = (units16 c).flatMap unitEscape := by
  have hof : ∀ n, c.toNat = n → c = Char.ofNat n := fun n h => h ▸ (Char.ofNat_toNat c).symm
  unfold escapeChar
  split
  next h =>
    simp only [Bool.or_eq_true, beq_iff_eq] at h
    rcases h with rfl | rfl
    · exact .inr (.inl ⟨'"', rfl, by decide, rfl⟩)
    · exact .inr (.inl ⟨'\\', rfl, by decide, rfl⟩)
  next h =>
    simp only [Bool.or_eq_true, beq_iff_eq, not_or] at h
    split
    next hn =>
      rw [beq_iff_eq.mp hn]
      exact .inr (.inl ⟨'n', rfl, by decide, rfl⟩)
    next =>
      split
      next hr =>
        rw [beq_iff_eq.mp hr]
        exact .inr (.inl ⟨'r', rfl, by decide, rfl⟩)
      next =>
        split
        next ht =>
          rw [beq_iff_eq.mp ht]
          exact .inr (.inl ⟨'t', rfl, by decide, rfl⟩)
        next =>
          split
          next hb => exact .inr (.inl ⟨'b', rfl, by decide, by rw [hof 8 (beq_iff_eq.mp hb)]; rfl⟩)
          next =>
            split
            next hf => exact .inr (.inl ⟨'f', rfl, by decide, by rw [hof 12 (beq_iff_eq.mp hf)]; rfl⟩)
            next =>
              split
              next hplain =>
                simp only [Bool.and_eq_true, decide_eq_true_eq] at hplain
                exact .inl ⟨rfl, h.1, h.2, by omega⟩
              next => exact .inr (.inr rfl)

theorem length_escapeChar_pos (c : Char) : 0 < (escapeChar c).length := by
  rcases escapeChar_cases c with ⟨h, -⟩ | ⟨e, h, -⟩ | h
  · rw [h]; simp
  · rw [h]; simp
  · rw [h]
    rcases units16_cases c with ⟨n, hn, -⟩ | ⟨high, low, hn, -⟩ <;> rw [hn] <;>
      simp [length_unitEscape]

/-- One step of reading takes what one character is written as. -/
theorem readString_step (start : Place) (fuel : Nat) {p : Place} (done : List Char) {c : Char}
    {rest : List Char} (hp : p.rest = escapeChar c ++ rest) (hrest : rest ≠ []) :
    readString start (fuel + 1) p done =
      readString start fuel (p.advance (escapeChar c).length) (c :: done) := by
  rcases escapeChar_cases c with ⟨h, hquote, hslash, hlow⟩ | ⟨e, h, hu, hsimple⟩ | h
  · rw [h, List.singleton_append] at hp
    rw [h, readString, hp]
    split
    · next heq => cases heq
    · next heq => exact absurd (List.cons.inj heq).1 hquote
    · next heq => exact absurd (List.cons.inj heq).1 hslash
    · next heq => exact absurd (List.cons.inj heq).1 hslash
    · next heq => exact absurd (List.cons.inj heq).1 hslash
    · next heq =>
      cases heq
      rw [if_neg hlow]
      rfl
  · rw [h, List.cons_append, List.singleton_append] at hp
    rw [h, readString, hp]
    simp only [hsimple]
    rfl
  · rw [h] at hp ⊢
    have hread : ∀ q n, readUnicode (p.advance 1) = .ok (c, q) →
        p.rest = '\\' :: 'u' :: n →
        readString start (fuel + 1) p done = readString start fuel q (c :: done) := by
      intro q n hread hp
      rw [readString, hp]
      simp only [hread]
      rfl
    rcases units16_cases c with ⟨n, hn, hn', half, hc⟩ | ⟨high, low, hn, h₁, h₂, h₃, h₄, hc⟩
    · rw [hn, List.flatMap_singleton] at hp ⊢
      rw [length_unitEscape]
      have hp' : (p.advance 1).rest = 'u' :: (hexDigits 4 n ++ rest) := by
        rw [Place.advance, hp]
        rfl
      refine hread _ _ ?_ hp
      rw [readUnicode_single hn' half hp' hrest, hc, Place.advance_advance]
    · rw [hn, List.flatMap_cons, List.flatMap_singleton] at hp ⊢
      rw [List.length_append, length_unitEscape, length_unitEscape]
      have hp' : (p.advance 1).rest = 'u' :: (hexDigits 4 high ++ (unitEscape low ++ rest)) := by
        rw [Place.advance, hp, List.append_assoc]
        rfl
      rw [List.append_assoc] at hp
      refine hread _ _ ?_ hp
      rw [readUnicode_pair h₁ h₂ h₃ h₄ hp' hrest, hc, Place.advance_advance]

/-- The fuel has to last for the characters; each takes one step. -/
theorem readString_escaped (start : Place) {text : List Char} {fuel : Nat}
    (hfuel : text.length < fuel) {p : Place} (done : List Char) {rest : List Char}
    (hp : p.rest = text.flatMap escapeChar ++ '"' :: rest) :
    readString start fuel p done = .ok (String.ofList (done.reverse ++ text),
      p.advance ((text.flatMap escapeChar).length + 1)) := by
  induction text generalizing fuel p done with
  | nil =>
    obtain ⟨fuel, rfl⟩ : ∃ n, fuel = n + 1 := ⟨fuel - 1, by simp only [List.length_nil] at hfuel; omega⟩
    rw [List.flatMap_nil, List.nil_append] at hp
    rw [readString, hp, List.append_nil]
    rfl
  | cons c text ih =>
    obtain ⟨fuel, rfl⟩ : ∃ n, fuel = n + 1 := ⟨fuel - 1, by rw [List.length_cons] at hfuel; omega⟩
    rw [List.flatMap_cons, List.append_assoc] at hp
    rw [readString_step start fuel done hp (by simp),
      ih (by rw [List.length_cons] at hfuel; omega) _ (Place.rest_advance hp), Place.advance_advance,
      List.reverse_cons, List.append_assoc, List.singleton_append, List.flatMap_cons, List.length_append,
      Nat.add_assoc]

theorem length_le_flatMap_escapeChar (text : List Char) :
    text.length ≤ (text.flatMap escapeChar).length := by
  induction text with
  | nil => exact Nat.le_refl _
  | cons c text ih =>
    have hpos := length_escapeChar_pos c
    rw [List.flatMap_cons, List.length_append, List.length_cons]
    omega

/-- A written text is read from behind its opening quote. -/
theorem readString_writeString {text : String} {p : Place} {body rest : List Char}
    (hp : p.rest = writeString text ++ rest) (hbody : p.rest = '"' :: body) :
    readString p (body.length + 1) (p.advance 1) [] =
      .ok (text, p.advance (writeString text).length) := by
  rw [writeString, List.cons_append, List.cons_append, List.append_assoc, List.singleton_append] at hp
  have hbody' : body = text.toList.flatMap escapeChar ++ '"' :: rest :=
    (List.cons.inj (hbody.symm.trans hp)).2
  have hrest : (p.advance 1).rest = text.toList.flatMap escapeChar ++ '"' :: rest := by
    rw [Place.advance, hp]
    rfl
  have hfuel : text.toList.length < body.length + 1 := by
    have hle := length_le_flatMap_escapeChar text.toList
    rw [hbody', List.length_append]
    omega
  rw [readString_escaped p hfuel [] hrest, Place.advance_advance, List.reverse_nil, List.nil_append,
    String.ofList_toList, writeString, List.length_append, List.length_cons, List.length_singleton]
  congr 3
  omega

/-! ## Integers -/

/-- What may follow a number without becoming a part of it. -/
def EndsNumber (rest : List Char) : Prop :=
  ∀ c ∈ rest.head?, isDigit c = false ∧ c ≠ '.' ∧ c ≠ 'e' ∧ c ≠ 'E'

theorem takeWhile_toDigits {n : Nat} {rest : List Char} (hrest : EndsNumber rest) :
    (Nat.toDigits 10 n ++ rest).takeWhile isDigit = Nat.toDigits 10 n := by
  have hdigits : ∀ c ∈ Nat.toDigits 10 n, isDigit c = true := fun c =>
    Text.isAsciiDigit_of_mem_toDigits
  rw [List.takeWhile_append_of_pos hdigits]
  cases rest with
  | nil => simp
  | cons c rest => rw [List.takeWhile_cons, (hrest c rfl).1]; simp

theorem fraction_of_endsNumber {rest : List Char} (h : EndsNumber rest) : fraction rest = ([], rest) := by
  unfold fraction
  split
  · exact absurd rfl (h '.' rfl).2.1
  · rfl

theorem exponentPart_of_endsNumber {rest : List Char} (h : EndsNumber rest) :
    exponentPart rest = (0, 0) := by
  cases rest with
  | nil => rfl
  | cons c rest =>
    obtain ⟨he, hE⟩ := (h c rfl).2.2
    have hc : ¬(c == 'e' || c == 'E') = true := by simp [he, hE]
    simp only [exponentPart, hc]
    rfl

theorem readNumber_toString {z : Int} (hz : z.natAbs < 10 ^ Text.maxDigits) {p : Place}
    {rest : List Char} (hp : p.rest = (toString z).toList ++ rest) (hrest : EndsNumber rest) :
    readNumber p = .ok (int z, p.advance (toString z).toList.length) := by
  rw [Text.toList_toString_int] at hp ⊢
  have hlength := (Nat.length_toDigits_le_iff (by decide) (by decide)).mpr hz
  have hvalue := Text.digitsValue_toDigits z.natAbs
  have htake := @takeWhile_toDigits z.natAbs rest hrest
  have hfraction := fraction_of_endsNumber hrest
  have hexponent := exponentPart_of_endsNumber hrest
  obtain ⟨c, digits, hdigits, hdigit, hzero⟩ := Text.exists_toDigits_eq_cons z.natAbs
  rw [hdigits] at hlength hvalue htake hp ⊢
  rw [List.cons_append] at htake
  rw [List.length_cons] at hlength
  have hdrop : (c :: (digits ++ rest)).drop (digits.length + 1) = rest := by
    rw [List.drop_succ_cons, List.drop_left]
  have hminus : c ≠ '-' := fun h => by
    rw [h] at hdigit
    cases hdigit
  -- A leading zero is read by itself, other digits together.
  have hsplit : (c = '0' ∧ digits = []) ∨ c ≠ '0' := by
    by_cases hc : c = '0'
    · exact .inl ⟨hc, hzero hc⟩
    · exact .inr hc
  unfold readNumber
  rw [hp]
  obtain ⟨n, hn⟩ : ∃ n, n = z.natAbs := ⟨_, rfl⟩
  rw [← hn] at hvalue
  by_cases hneg : z < 0
  · have hvalue' : -(n : Int) = z := by omega
    rcases hsplit with ⟨rfl, rfl⟩ | hc
    · simp [hneg, hfraction, hexponent, hvalue, hvalue', Text.maxDigits]
    · simp [hneg, hfraction, hexponent, hvalue, hvalue', hc, htake, hdrop, Nat.add_comm 1,
        Nat.not_lt.mpr hlength]
  · have hvalue' : (n : Int) = z := by omega
    rcases hsplit with ⟨rfl, rfl⟩ | hc
    · simp [hneg, hfraction, hexponent, hvalue, hvalue', Text.maxDigits]
    · simpa [hneg, hfraction, hexponent, hvalue, hvalue', hc, htake, hdrop, hminus] using hlength

/-- No other scalar starts like an integer. -/
theorem readScalar_toString {z : Int} (hz : z.natAbs < 10 ^ Text.maxDigits) {p : Place}
    {rest : List Char} (hp : p.rest = (toString z).toList ++ rest) (hrest : EndsNumber rest) :
    readScalar p = .ok (int z, p.advance (toString z).toList.length) := by
  have hnumber := readNumber_toString hz hp hrest
  rw [Text.toList_toString_int] at hp
  obtain ⟨c, digits, hdigits, hdigit : isDigit c = true, -⟩ := Text.exists_toDigits_eq_cons z.natAbs
  rw [hdigits] at hp
  have hne : ∀ letter ∈ ['n', 't', 'f', 'N', 'I', '-'], letter ≠ c := by
    rintro letter hletter rfl
    have hall : (['n', 't', 'f', 'N', 'I', '-'].all fun l => !isDigit l) = true := by decide
    have hletter := List.all_eq_true.mp hall letter hletter
    rw [hdigit] at hletter
    cases hletter
  simp only [List.mem_cons, List.not_mem_nil, or_false, forall_eq_or_imp, forall_eq] at hne
  have hnone : ∀ word ∈ words, word.1.toList.isPrefixOf p.rest = false := by
    intro word hword
    rw [hp]
    simp only [words, List.mem_cons, List.not_mem_nil, or_false] at hword
    by_cases hneg : z < 0 <;> rcases hword with rfl | rfl | rfl | rfl | rfl | rfl <;>
      simp [hneg, hne, List.isPrefixOf]
  have hfind : ∀ starts, (∀ word, starts word = word.1.toList.isPrefixOf p.rest) →
      words.find? starts = none := fun starts hstarts =>
    List.find?_eq_none.mpr fun word hword => by simp [hstarts, hnone word hword]
  rw [readScalar, hfind _ fun _ => rfl]
  exact hnumber

/-- What starts the text of an integer. -/
theorem head_toString_int (z : Int) : ∃ c rest, (toString z).toList = c :: rest ∧
    (c = '-' ∨ isDigit c = true) := by
  rw [Text.toList_toString_int]
  obtain ⟨c, digits, hdigits, hdigit, -⟩ := Text.exists_toDigits_eq_cons z.natAbs
  rw [hdigits]
  split
  · exact ⟨_, _, rfl, .inl rfl⟩
  · exact ⟨_, _, rfl, .inr hdigit⟩

end DelayInjection.Json
