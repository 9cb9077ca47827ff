import DelayInjection.Proofs.Json.Members
import DelayInjection.Proofs.Json.Scalar

/-! A written value is read back as it was, if its integers are not too long and the members of its
objects have different names. -/

namespace DelayInjection.Json

/-! ## Gaps -/

theorem Place.skipGaps_eq {p : Place} {close rest : List Char} {c : Char}
    (hclose : ∀ g ∈ close, isGap g = true) (hc : isGap c = false) (hp : p.rest = close ++ c :: rest) :
    p.skipGaps = p.advance close.length := by
  rw [skipGaps, hp, List.takeWhile_append_of_pos hclose, List.takeWhile_cons, hc]
  simp

mutual

/-- Values that are written in a form that is read back: no fractions, no integers that are too long,
no name twice in an object. -/
def IsPlain : Json → Prop
  | null => True
  | bool _ => True
  | int n => n.natAbs < 10 ^ Text.maxDigits
  | float _ => False
  | str _ => True
  | arr items => IsPlainItems items
  | obj members => (members.map (·.1)).Nodup ∧ IsPlainMembers members

def IsPlainItems : List Json → Prop
  | [] => True
  | v :: rest => v.IsPlain ∧ IsPlainItems rest

def IsPlainMembers : List (String × Json) → Prop
  | [] => True
  | (_, v) :: rest => v.IsPlain ∧ IsPlainMembers rest

end

section Write

variable {gap : Nat → List Char} (hgap : ∀ depth, ∀ g ∈ gap depth, isGap g = true)

/-- What may stand at the start of a written value. -/
def startsValue (c : Char) : Bool :=
  c == 'n' || c == 't' || c == 'f' || c == '-' || isDigit c || c == '"' || c == '[' || c == '\x7b'

theorem exists_write_eq_cons (gap : Nat → List Char) {v : Json} (hv : v.IsPlain) (depth : Nat) :
    ∃ c rest, write gap depth v = c :: rest ∧ startsValue c = true := by
  cases v with
  | null => exact ⟨_, _, rfl, rfl⟩
  | bool b => cases b <;> exact ⟨_, _, rfl, rfl⟩
  | int n =>
    obtain ⟨c, rest, hrest, hc⟩ := head_toString_int n
    refine ⟨c, rest, by rw [write, hrest], ?_⟩
    rcases hc with rfl | hc
    · rfl
    · simp [startsValue, hc]
  | float x => exact hv.elim
  | str s => exact ⟨_, _, rfl, rfl⟩
  | arr items => cases items <;> exact ⟨_, _, rfl, rfl⟩
  | obj members => cases members <;> exact ⟨_, _, rfl, rfl⟩

theorem isGap_of_startsValue {c : Char} (h : startsValue c = true) : isGap c = false := by
  rw [Bool.eq_false_iff]
  intro hgap
  simp only [isGap, Bool.or_eq_true, beq_iff_eq] at hgap
  rcases hgap with ((rfl | rfl) | rfl) | rfl <;> cases h

theorem endsNumber_of_isGap {close rest : List Char} {c : Char}
    (hclose : ∀ g ∈ close, isGap g = true) (hc : isDigit c = false ∧ c ≠ '.' ∧ c ≠ 'e' ∧ c ≠ 'E') :
    EndsNumber (close ++ c :: rest) := by
  intro g hg
  cases close with
  | nil =>
    cases hg
    exact hc
  | cons d close =>
    cases hg
    have hd := hclose g (by simp)
    simp only [isGap, Bool.or_eq_true, beq_iff_eq] at hd
    rcases hd with ((rfl | rfl) | rfl) | rfl <;> decide

theorem Place.skipGaps_of_head {p : Place} {rest : List Char} {c : Char} (hc : isGap c = false)
    (hp : p.rest = c :: rest) : p.skipGaps = p :=
  skipGaps_eq (fun _ h => absurd h List.not_mem_nil) hc hp

theorem readValue_of_scalar {p : Place} {c : Char} {rest : List Char} (hp : p.rest = c :: rest)
    (hc : c ≠ '"' ∧ c ≠ '[' ∧ c ≠ '\x7b') (fuel : Nat) : readValue (fuel + 1) p = readScalar p := by
  rw [readValue, hp]
  split
  · next heq => exact absurd (List.cons.inj heq).1 hc.1
  · next heq => exact absurd (List.cons.inj heq).1 hc.2.1
  · next heq => exact absurd (List.cons.inj heq).1 hc.2.2
  · rfl

theorem readScalar_word {word : String} {value : Json}
    (hword : (word, value) ∈ [("null", null), ("true", bool true), ("false", bool false)]) {p : Place}
    {rest : List Char} (hp : p.rest = word.toList ++ rest) :
    readScalar p = .ok (value, p.advance word.toList.length) := by
  simp only [List.mem_cons, List.not_mem_nil, or_false] at hword
  rcases hword with h | h | h <;> cases h <;> simp [readScalar, hp, words, List.isPrefixOf] <;> rfl

omit hgap in
theorem readValue_int {n : Int} (hn : n.natAbs < 10 ^ Text.maxDigits) (fuel : Nat) {p : Place}
    {rest : List Char} (hp : p.rest = (toString n).toList ++ rest) (hrest : EndsNumber rest) :
    readValue (fuel + 1) p = .ok (int n, p.advance (toString n).toList.length) := by
  obtain ⟨c, digits, hdigits, hc⟩ := head_toString_int n
  have hne : c ≠ '"' ∧ c ≠ '[' ∧ c ≠ '\x7b' := by
    refine ⟨?_, ?_, ?_⟩ <;> rintro rfl <;> rcases hc with hc | hc <;> cases hc
  have hcons := hp
  rw [hdigits, List.cons_append] at hcons
  rw [readValue_of_scalar hcons hne]
  exact readScalar_toString hn hp hrest

omit hgap in
theorem readValue_str (s : String) (fuel : Nat) {p : Place} {rest : List Char}
    (hp : p.rest = writeString s ++ rest) :
    readValue (fuel + 1) p = .ok (str s, p.advance (writeString s).length) := by
  have hbody : p.rest = '"' :: (s.toList.flatMap escapeChar ++ '"' :: rest) := by
    rw [hp, writeString]
    simp
  have hread := readString_writeString hp hbody
  rw [readValue, hbody]
  simp only [hread]
  rfl

omit hgap in
theorem readValue_empty (fuel : Nat) {p : Place} {rest : List Char} :
    (p.rest = '[' :: ']' :: rest → readValue (fuel + 1) p = .ok (arr [], p.advance 2)) ∧
      (p.rest = '\x7b' :: '\x7d' :: rest → readValue (fuel + 1) p = .ok (obj [], p.advance 2)) := by
  constructor
  · intro hp
    have hnext : (p.advance 1).rest = ']' :: rest := by rw [Place.advance, hp]; rfl
    have hskip := Place.skipGaps_of_head (by decide) hnext
    rw [readValue, hp]
    simp only [hskip, hnext, Place.advance_advance]
  · intro hp
    have hnext : (p.advance 1).rest = '\x7d' :: rest := by rw [Place.advance, hp]; rfl
    have hskip := Place.skipGaps_of_head (by decide) hnext
    rw [readValue, hp]
    simp only [hskip, hnext, Place.advance_advance]

section Open

variable {p q : Place} {spaces rest : List Char} {c : Char} (hspaces : ∀ g ∈ spaces, isGap g = true)
  (hc : isGap c = false)

include hspaces hc

omit hgap in
theorem readValue_arr (hend : c ≠ ']') (hp : p.rest = '[' :: (spaces ++ c :: rest)) {fuel : Nat}
    {items : List Json} (h : readItems fuel (p.advance (1 + spaces.length)) = .ok (items, q)) :
    readValue (fuel + 1) p = .ok (arr items, q) := by
  have hnext : (p.advance 1).rest = spaces ++ c :: rest := by rw [Place.advance, hp]; rfl
  have hskip := Place.skipGaps_eq hspaces hc hnext
  have hrest := Place.rest_advance hnext
  rw [Place.advance_advance] at hskip hrest
  rw [readValue, hp]
  simp only [hskip, hrest]
  split
  · next heq => exact absurd (List.cons.inj heq).1 hend
  · rw [h]
    rfl

omit hgap in
theorem readValue_obj (hend : c ≠ '\x7d') (hp : p.rest = '\x7b' :: (spaces ++ c :: rest)) {fuel : Nat}
    {members : List (String × Json)}
    (h : readMembers fuel (p.advance (1 + spaces.length)) = .ok (members, q)) :
    readValue (fuel + 1) p = .ok (obj (ofPairs members), q) := by
  have hnext : (p.advance 1).rest = spaces ++ c :: rest := by rw [Place.advance, hp]; rfl
  have hskip := Place.skipGaps_eq hspaces hc hnext
  have hrest := Place.rest_advance hnext
  rw [Place.advance_advance] at hskip hrest
  rw [readValue, hp]
  simp only [hskip, hrest]
  split
  · next heq => exact absurd (List.cons.inj heq).1 hend
  · rw [h]
    rfl

end Open

section Close

variable {p q : Place} {spaces rest : List Char} {v : Json} {fuel : Nat}
  (hspaces : ∀ g ∈ spaces, isGap g = true) (hv : readValue fuel p = .ok (v, q))

include hspaces hv

omit hgap hspaces in
/-- An item up to what follows it. -/
theorem readItems_eq : readItems (fuel + 1) p =
    match q.skipGaps.rest with
    | ']' :: _ => .ok ([v], q.skipGaps.advance 1)
    | ',' :: _ => do
      let (rest, p) ← readItems fuel (q.skipGaps.advance 1).skipGaps
      .ok (v :: rest, p)
    | _ => fail .comma q.skipGaps := by
  rw [readItems, hv]
  rfl

omit hgap in
theorem readItems_last (hq : q.rest = spaces ++ ']' :: rest) :
    readItems (fuel + 1) p = .ok ([v], q.advance (spaces.length + 1)) := by
  have hskip := Place.skipGaps_eq hspaces (by decide) hq
  have hrest := Place.rest_advance hq
  rw [readItems_eq hv]
  simp only [hskip, hrest, Place.advance_advance]

omit hgap in
theorem readItems_more {c : Char} (hc : isGap c = false) (hq : q.rest = ',' :: (spaces ++ c :: rest))
    {items : List Json} {r : Place}
    (h : readItems fuel (q.advance (1 + spaces.length)) = .ok (items, r)) :
    readItems (fuel + 1) p = .ok (v :: items, r) := by
  have hskip := Place.skipGaps_of_head (by decide) hq
  have hnext : (q.advance 1).rest = spaces ++ c :: rest := by rw [Place.advance, hq]; rfl
  have hskip' := Place.skipGaps_eq hspaces hc hnext
  rw [Place.advance_advance] at hskip'
  rw [readItems_eq hv, hskip, hq]
  simp only [hskip']
  simp only [h]
  rfl

end Close

section Member

variable {p r : Place} {spaces rest more : List Char} {n : String} {v : Json} {c : Char} {fuel : Nat}
  (hspaces : ∀ g ∈ spaces, isGap g = true) (hc : isGap c = false)
  (hp : p.rest = writeString n ++ ':' :: ' ' :: c :: more)
  (hv : readValue fuel (p.advance ((writeString n).length + 2)) = .ok (v, r))

omit hgap in
/-- A member up to what follows its name. -/
theorem readMembers_of_name {q : Place} {text : List Char} (hrest : p.rest = '"' :: text)
    (hname : readString p (text.length + 1) (p.advance 1) [] = .ok (n, q)) :
    readMembers (fuel + 1) p =
      match q.skipGaps.rest with
      | ':' :: _ => do
        let (v, p) ← readValue fuel (q.skipGaps.advance 1).skipGaps
        let p := p.skipGaps
        match p.rest with
        | '\x7d' :: _ => .ok ([(n, v)], p.advance 1)
        | ',' :: _ => do
          let (rest, p) ← readMembers fuel (p.advance 1).skipGaps
          .ok ((n, v) :: rest, p)
        | _ => fail .comma p
      | _ => fail .colon q.skipGaps := by
  rw [readMembers, hrest]
  simp only [hname]
  rfl

include hc hp hv

omit hgap in
/-- A member up to what follows its value. -/
theorem readMembers_eq : readMembers (fuel + 1) p =
    match r.skipGaps.rest with
    | '\x7d' :: _ => .ok ([(n, v)], r.skipGaps.advance 1)
    | ',' :: _ => do
      let (rest, p) ← readMembers fuel (r.skipGaps.advance 1).skipGaps
      .ok ((n, v) :: rest, p)
    | _ => fail .comma r.skipGaps := by
  have hbody : p.rest = '"' :: (n.toList.flatMap escapeChar ++ '"' :: ':' :: ' ' :: c :: more) := by
    rw [hp, writeString]
    simp
  have hname := readString_writeString hp hbody
  have hcolon := Place.rest_advance hp
  have hskip := Place.skipGaps_of_head (by decide) hcolon
  have hspace : (p.advance ((writeString n).length + 1)).rest = [' '] ++ c :: more := by
    rw [← Place.advance_advance, Place.advance, hcolon]
    rfl
  have hskip' := Place.skipGaps_eq (List.all_eq_true.mp (by decide)) hc hspace
  rw [Place.advance_advance] at hskip'
  rw [readMembers_of_name hbody hname, hskip, hcolon]
  simp only [Place.advance_advance, hskip']
  simp only [List.length_singleton, Nat.add_assoc, hv]
  rfl

include hspaces

omit hgap in
theorem readMembers_last (hr : r.rest = spaces ++ '\x7d' :: rest) :
    readMembers (fuel + 1) p = .ok ([(n, v)], r.advance (spaces.length + 1)) := by
  have hskip := Place.skipGaps_eq hspaces (by decide) hr
  have hrest := Place.rest_advance hr
  rw [readMembers_eq hc hp hv]
  simp only [hskip, hrest, Place.advance_advance]

omit hgap in
theorem readMembers_more {d : Char} (hd : isGap d = false) (hr : r.rest = ',' :: (spaces ++ d :: rest))
    {members : List (String × Json)} {q : Place}
    (h : readMembers fuel (r.advance (1 + spaces.length)) = .ok (members, q)) :
    readMembers (fuel + 1) p = .ok ((n, v) :: members, q) := by
  have hskip := Place.skipGaps_of_head (by decide) hr
  have hnext : (r.advance 1).rest = spaces ++ d :: rest := by rw [Place.advance, hr]; rfl
  have hskip' := Place.skipGaps_eq hspaces hd hnext
  rw [Place.advance_advance] at hskip'
  rw [readMembers_eq hc hp hv]
  simp only [hskip, hr, hskip', h]
  rfl

end Member

include hgap

mutual

theorem readValue_write : ∀ (v : Json), v.IsPlain → ∀ (depth fuel : Nat) {p : Place} {rest : List Char},
    (write gap depth v).length < fuel → p.rest = write gap depth v ++ rest → EndsNumber rest →
    readValue fuel p = .ok (v, p.advance (write gap depth v).length)
  | _, _, _, 0, _, _, hfuel, _, _ => absurd hfuel (Nat.not_lt_zero _)
  | null, _, _, fuel + 1, p, rest, _, hp, _ => by
    rw [write] at hp ⊢
    rw [readValue_of_scalar hp (by decide)]
    exact @readScalar_word "null" _ (by simp) _ _ hp
  | bool b, _, _, fuel + 1, p, rest, _, hp, _ => by
    rw [write] at hp ⊢
    cases b
    · rw [readValue_of_scalar hp (by decide)]
      exact @readScalar_word "false" _ (by simp) _ _ hp
    · rw [readValue_of_scalar hp (by decide)]
      exact @readScalar_word "true" _ (by simp) _ _ hp
  | int n, hv, _, fuel + 1, p, rest, _, hp, hrest => by
    rw [write] at hp ⊢
    exact readValue_int hv fuel hp hrest
  | float _, hv, _, _, _, _, _, _, _ => hv.elim
  | str s, _, _, fuel + 1, p, rest, _, hp, _ => by
    rw [write] at hp ⊢
    exact readValue_str s fuel hp
  | arr [], _, _, fuel + 1, p, rest, _, hp, _ => by
    rw [write] at hp ⊢
    exact (readValue_empty fuel).1 hp
  | arr (v :: items), hv, depth, fuel + 1, p, rest, hfuel, hp, _ => by
    rw [write] at hp hfuel ⊢
    obtain ⟨c, first, hfirst, hc⟩ := exists_write_eq_cons gap hv.1 (depth + 1)
    have hend : c ≠ ']' := by
      rintro rfl
      cases hc
    have hitems : (p.advance (1 + (gap (depth + 1)).length)).rest = write gap (depth + 1) v ++
        (writeItems gap (depth + 1) items ++ (gap depth ++ ']' :: rest)) := by
      rw [← Place.advance_advance]
      refine Place.rest_advance ?_
      rw [Place.advance, hp]
      simp
    have hread := readItems_write v items hv.1 hv.2 (depth + 1) fuel
      (by simp only [List.length_cons, List.length_append] at hfuel; omega) (hgap depth) hitems
    rw [readValue_arr (hgap (depth + 1)) (isGap_of_startsValue hc) hend (by rw [hp, hfirst]; simp; rfl) hread,
      Place.advance_advance]
    simp only [List.length_cons, List.length_append, List.length_nil]
    congr 3
    omega
  | obj [], _, _, fuel + 1, p, rest, _, hp, _ => by
    rw [write] at hp ⊢
    exact (readValue_empty fuel).2 hp
  | obj ((n, v) :: members), hv, depth, fuel + 1, p, rest, hfuel, hp, _ => by
    rw [write] at hp hfuel ⊢
    have hmembers : (p.advance (1 + (gap (depth + 1)).length)).rest = writeString n ++ ':' :: ' ' ::
        (write gap (depth + 1) v ++
          (writeMembers gap (depth + 1) members ++ (gap depth ++ '\x7d' :: rest))) := by
      rw [← Place.advance_advance]
      refine Place.rest_advance ?_
      rw [Place.advance, hp]
      simp
    have hread := readMembers_write n v members hv.2.1 hv.2.2 (depth + 1) fuel
      (by simp only [List.length_cons, List.length_append] at hfuel; omega) (hgap depth) hmembers
    rw [readValue_obj (hgap (depth + 1)) (by decide : isGap '"' = false) (by decide)
      (by rw [hp, writeString]; simp; rfl) hread, Place.advance_advance, ofPairs_of_nodup hv.1]
    simp only [List.length_cons, List.length_append, List.length_nil]
    congr 3
    omega

theorem readItems_write : ∀ (v : Json) (items : List Json), v.IsPlain → IsPlainItems items →
    ∀ (depth fuel : Nat) {p : Place} {close rest : List Char},
    (write gap depth v).length + (writeItems gap depth items).length + 1 < fuel →
    (∀ g ∈ close, isGap g = true) →
    p.rest = write gap depth v ++ (writeItems gap depth items ++ (close ++ ']' :: rest)) →
    readItems fuel p = .ok (v :: items, p.advance ((write gap depth v).length +
      (writeItems gap depth items).length + close.length + 1))
  | _, _, _, _, _, 0, _, _, _, hfuel, _, _ => absurd hfuel (Nat.not_lt_zero _)
  | v, [], hv, _, depth, fuel + 1, p, close, rest, hfuel, hclose, hp => by
    rw [writeItems, List.nil_append] at hp
    have hread := readValue_write v hv depth fuel (by omega) hp
      (endsNumber_of_isGap hclose (by decide))
    rw [readItems_last hclose hread (Place.rest_advance hp), Place.advance_advance]
    rfl
  | v, w :: items, hv, hitems, depth, fuel + 1, p, close, rest, hfuel, hclose, hp => by
    rw [writeItems] at hp hfuel ⊢
    obtain ⟨c, first, hfirst, hc⟩ := exists_write_eq_cons gap hitems.1 depth
    have hread := readValue_write v hv depth fuel (by omega) hp
      (fun g hg => by cases hg; decide)
    have hq := Place.rest_advance hp
    have hnext : (p.advance ((write gap depth v).length + (1 + (gap depth).length))).rest =
        write gap depth w ++ (writeItems gap depth items ++ (close ++ ']' :: rest)) := by
      rw [← Place.advance_advance, ← Place.advance_advance]
      refine Place.rest_advance ?_
      rw [Place.advance, hq]
      simp
    have hmore := readItems_write w items hitems.1 hitems.2 depth fuel
      (by simp only [List.length_cons, List.length_append] at hfuel; omega) hclose hnext
    rw [← Place.advance_advance] at hmore
    rw [readItems_more (hgap depth) hread (isGap_of_startsValue hc) (by rw [hq, hfirst]; simp; rfl) hmore,
      Place.advance_advance, Place.advance_advance]
    simp only [List.length_cons, List.length_append]
    congr 3
    omega

theorem readMembers_write : ∀ (n : String) (v : Json) (members : List (String × Json)), v.IsPlain →
    IsPlainMembers members → ∀ (depth fuel : Nat) {p : Place} {close rest : List Char},
    (write gap depth v).length + (writeMembers gap depth members).length + 1 < fuel →
    (∀ g ∈ close, isGap g = true) →
    p.rest = writeString n ++ ':' :: ' ' ::
      (write gap depth v ++ (writeMembers gap depth members ++ (close ++ '\x7d' :: rest))) →
    readMembers fuel p = .ok ((n, v) :: members, p.advance ((writeString n).length + 2 +
      (write gap depth v).length + (writeMembers gap depth members).length + close.length + 1))
  | _, _, _, _, _, _, 0, _, _, _, hfuel, _, _ => absurd hfuel (Nat.not_lt_zero _)
  | n, v, [], hv, _, depth, fuel + 1, p, close, rest, hfuel, hclose, hp => by
    obtain ⟨c, first, hfirst, hc⟩ := exists_write_eq_cons gap hv depth
    rw [writeMembers, List.nil_append] at hp
    have hvalue : (p.advance ((writeString n).length + 2)).rest = write gap depth v ++
        (close ++ '\x7d' :: rest) := by
      rw [← Place.advance_advance, Place.advance, Place.rest_advance hp]
      rfl
    have hread := readValue_write v hv depth fuel (by omega) hvalue
      (endsNumber_of_isGap hclose (by decide))
    rw [readMembers_last hclose (isGap_of_startsValue hc) (by rw [hp, hfirst]; rfl) hread
      (Place.rest_advance hvalue), Place.advance_advance, Place.advance_advance, writeMembers]
    simp only [List.length_nil, Nat.add_zero, Nat.add_assoc]
  | n, v, (m, w) :: members, hv, hmembers, depth, fuel + 1, p, close, rest, hfuel, hclose, hp => by
    rw [writeMembers] at hp hfuel ⊢
    obtain ⟨c, first, hfirst, hc⟩ := exists_write_eq_cons gap hv depth
    have hvalue : (p.advance ((writeString n).length + 2)).rest = write gap depth v ++
        (',' :: (gap depth ++ (writeString m ++ ':' :: ' ' ::
          (write gap depth w ++ writeMembers gap depth members))) ++ (close ++ '\x7d' :: rest)) := by
      rw [← Place.advance_advance, Place.advance, Place.rest_advance hp]
      rfl
    have hread := readValue_write v hv depth fuel (by omega) hvalue
      (fun g hg => by cases hg; decide)
    have hq := Place.rest_advance hvalue
    have hnext : (((p.advance ((writeString n).length + 2)).advance (write gap depth v).length).advance
        (1 + (gap depth).length)).rest = writeString m ++ ':' :: ' ' ::
          (write gap depth w ++ (writeMembers gap depth members ++ (close ++ '\x7d' :: rest))) := by
      rw [← Place.advance_advance _ 1]
      refine Place.rest_advance ?_
      rw [Place.advance, hq]
      simp
    have hmore := readMembers_write m w members hmembers.1 hmembers.2 depth fuel
      (by simp only [List.length_cons, List.length_append] at hfuel; omega) hclose hnext
    rw [readMembers_more (hgap depth) (isGap_of_startsValue hc) (by rw [hp, hfirst]; rfl) hread
      (by decide : isGap '"' = false) (by rw [hq, writeString]; simp; rfl) hmore]
    simp only [Place.advance_advance, List.length_cons, List.length_append]
    congr 3
    omega

end

end Write

/-! ## Whole texts -/

section Chars

variable {gap : Nat → List Char}

/-- No written text holds a carriage return, or anything beyond ASCII. -/
def isWritten (c : Char) : Bool := c == '\n' || (32 ≤ c.toNat && c.toNat < 127)

theorem isWritten_of_mem_hexDigits {count n : Nat} {c : Char} (h : c ∈ Text.hexDigits count n) :
    isWritten c = true := by
  have hdigit : ∀ m < 16, isWritten (Text.Utf8.hexDigit m) = true := by decide
  induction count generalizing n with
  | zero => cases h
  | succ count ih =>
    rw [Text.hexDigits, List.mem_append, List.mem_singleton] at h
    rcases h with h | rfl
    · exact ih h
    · exact hdigit _ (Nat.mod_lt _ (by decide))

theorem isWritten_of_mem_unitEscape {n : Nat} {c : Char} (h : c ∈ unitEscape n) :
    isWritten c = true := by
  rcases List.mem_cons.mp h with rfl | h
  · rfl
  · rcases List.mem_cons.mp h with rfl | h
    · rfl
    · exact isWritten_of_mem_hexDigits h

theorem isWritten_of_mem_escapeChar {c d : Char} (h : d ∈ escapeChar c) : isWritten d = true := by
  unfold escapeChar at h
  split at h
  next hc =>
    simp only [Bool.or_eq_true, beq_iff_eq] at hc
    rcases List.mem_cons.mp h with rfl | h
    · rfl
    · rw [List.mem_singleton.mp h]
      rcases hc with rfl | rfl <;> rfl
  next =>
    have hletter : ∀ e ∈ ['n', 'r', 't', 'b', 'f'], isWritten e = true :=
      List.all_eq_true.mp (by decide)
    have hshort : ∀ e ∈ ['n', 'r', 't', 'b', 'f'], d ∈ ['\\', e] → isWritten d = true := by
      intro e he hd
      rcases List.mem_cons.mp hd with rfl | hd
      · rfl
      · rw [List.mem_singleton.mp hd]
        exact hletter e he
    split at h
    · exact hshort _ (by simp) h
    · split at h
      · exact hshort _ (by simp) h
      · split at h
        · exact hshort _ (by simp) h
        · split at h
          · exact hshort _ (by simp) h
          · split at h
            · exact hshort _ (by simp) h
            · split at h
              next hplain =>
                rw [List.mem_singleton.mp h, isWritten, hplain, Bool.or_true]
              next =>
                obtain ⟨u, -, hu⟩ := List.mem_flatMap.mp h
                exact isWritten_of_mem_unitEscape hu

theorem isWritten_of_mem_writeString {s : String} {c : Char} (h : c ∈ writeString s) :
    isWritten c = true := by
  rw [writeString, List.mem_append, List.mem_cons, List.mem_singleton] at h
  rcases h with (rfl | h) | rfl
  · rfl
  · obtain ⟨d, -, hd⟩ := List.mem_flatMap.mp h
    exact isWritten_of_mem_escapeChar hd
  · rfl

theorem isWritten_of_mem_toString {n : Int} {c : Char} (h : c ∈ (toString n).toList) :
    isWritten c = true := by
  rcases Text.of_mem_toString_int h with rfl | h
  · rfl
  · obtain ⟨hlow, hhigh⟩ := Text.toNat_of_isAsciiDigit h
    simp only [isWritten, Bool.or_eq_true, Bool.and_eq_true, decide_eq_true_eq]
    omega

variable (hgap : ∀ depth, ∀ g ∈ gap depth, isWritten g = true)

include hgap

mutual

theorem isWritten_write : ∀ (v : Json), v.IsPlain → ∀ (depth : Nat),
    ∀ c ∈ write gap depth v, isWritten c = true
  | null, _, _ => by rw [write]; exact List.all_eq_true.mp (by decide)
  | bool b, _, _ => by rw [write]; cases b <;> exact List.all_eq_true.mp (by decide)
  | int n, _, _ => by
    rw [write]
    exact fun c => isWritten_of_mem_toString
  | float _, hv, _ => hv.elim
  | str s, _, _ => by
    rw [write]
    exact fun c => isWritten_of_mem_writeString
  | arr [], _, _ => by rw [write]; exact List.all_eq_true.mp (by decide)
  | arr (v :: items), hv, depth => by
    have hfirst := isWritten_write v hv.1 (depth + 1)
    have hitems := isWritten_writeItems items hv.2 (depth + 1)
    rw [write]
    simp only [List.mem_append, List.mem_cons, List.not_mem_nil, or_false]
    rintro c ((rfl | hc | hc | hc) | hc | rfl)
    exacts [rfl, hgap _ c hc, hfirst c hc, hitems c hc, hgap _ c hc, rfl]
  | obj [], _, _ => by rw [write]; exact List.all_eq_true.mp (by decide)
  | obj ((n, v) :: members), hv, depth => by
    have hfirst := isWritten_write v hv.2.1 (depth + 1)
    have hmembers := isWritten_writeMembers members hv.2.2 (depth + 1)
    rw [write]
    simp only [List.mem_append, List.mem_cons, List.not_mem_nil, or_false]
    rintro c ((rfl | hc | hc | rfl | rfl | hc | hc) | hc | rfl)
    exacts [rfl, hgap _ c hc, isWritten_of_mem_writeString hc, rfl, rfl, hfirst c hc, hmembers c hc,
      hgap _ c hc, rfl]

theorem isWritten_writeItems : ∀ (items : List Json), IsPlainItems items → ∀ (depth : Nat),
    ∀ c ∈ writeItems gap depth items, isWritten c = true
  | [], _, _ => by rw [writeItems]; simp
  | v :: items, hitems, depth => by
    have hfirst := isWritten_write v hitems.1 depth
    have hrest := isWritten_writeItems items hitems.2 depth
    rw [writeItems]
    simp only [List.mem_append, List.mem_cons]
    rintro c (rfl | hc | hc | hc)
    exacts [rfl, hgap _ c hc, hfirst c hc, hrest c hc]

theorem isWritten_writeMembers : ∀ (members : List (String × Json)), IsPlainMembers members →
    ∀ (depth : Nat), ∀ c ∈ writeMembers gap depth members, isWritten c = true
  | [], _, _ => by rw [writeMembers]; simp
  | (n, v) :: members, hmembers, depth => by
    have hfirst := isWritten_write v hmembers.1 depth
    have hrest := isWritten_writeMembers members hmembers.2 depth
    rw [writeMembers]
    simp only [List.mem_append, List.mem_cons]
    rintro c (rfl | hc | hc | rfl | rfl | hc | hc)
    exacts [rfl, hgap _ c hc, isWritten_of_mem_writeString hc, rfl, rfl, hfirst c hc, hrest c hc]

end

end Chars

theorem isGap_indentation (depth : Nat) :
    ∀ g ∈ '\n' :: List.replicate (2 * depth) ' ', isGap g = true := by
  intro g hg
  rcases List.mem_cons.mp hg with rfl | hg
  · rfl
  · rw [(List.mem_replicate.mp hg).2]
    rfl

theorem parse_indented {v : Json} (hv : v.IsPlain) : parse v.indented = .ok v := by
  obtain ⟨c, rest, hrest, hc⟩ :=
    exists_write_eq_cons (fun depth => '\n' :: List.replicate (2 * depth) ' ') hv 0
  have hstart : (⟨v.indented, 0⟩ : Place).rest = c :: rest := hrest
  have hmark : ¬(v.indented.head? == some '\uFEFF') = true := by
    rw [indented, hrest, List.head?_cons, beq_iff_eq, Option.some.injEq]
    rintro rfl
    cases hc
  have hread : readValue (v.indented.length + 1) ⟨v.indented, 0⟩ =
      .ok (v, Place.advance ⟨v.indented, 0⟩ v.indented.length) :=
    readValue_write isGap_indentation v hv 0 _ (Nat.lt_succ_self _) (List.append_nil _).symm
      (fun g hg => by cases hg)
  rw [parse, if_neg hmark, Place.skipGaps_of_head (isGap_of_startsValue hc) hstart, hread]
  simp [bind, Except.bind, Place.advance, Place.skipGaps]

theorem isWritten_of_mem_indented {v : Json} (hv : v.IsPlain) :
    ∀ c ∈ v.indented, isWritten c = true := by
  refine isWritten_write (fun depth g hg => ?_) v hv 0
  rcases List.mem_cons.mp hg with rfl | hg
  · rfl
  · rw [(List.mem_replicate.mp hg).2]
    rfl

end DelayInjection.Json
