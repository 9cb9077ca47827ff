import DelayInjection.Proofs.Python.Token

/-! What stands first in a text of Python, as the lexer finds it. Only the line in which it ends is looked
at, so what stands below may be replaced. -/

namespace DelayInjection.Python

/-- The texts agree up to the end of their first line. -/
inductive SameLine : List Char → List Char → Prop
  | nil : SameLine [] []
  | ended (v w : List Char) : SameLine ('\n' :: v) ('\n' :: w)
  | cons (c : Char) {x y : List Char} (h : SameLine x y) : SameLine (c :: x) (c :: y)

namespace SameLine

variable {x y v w : List Char}

theorem append (u : List Char) (h : SameLine v w) : SameLine (u ++ v) (u ++ w) := by
  induction u with
  | nil => exact h
  | cons c u ih => exact .cons c ih

theorem head?_eq (h : SameLine x y) : x.head? = y.head? := by
  cases h <;> rfl

theorem eq_nil_iff (h : SameLine x y) : x = [] ↔ y = [] := by
  cases h <;> simp

variable {p : Char → Bool}

theorem takeWhile_eq (h : SameLine x y) (hp : p '\n' = false) : x.takeWhile p = y.takeWhile p := by
  induction h with
  | nil => rfl
  | ended => rw [List.takeWhile_cons_of_neg (by simp [hp]), List.takeWhile_cons_of_neg (by simp [hp])]
  | cons c _ ih => rw [List.takeWhile_cons, List.takeWhile_cons, ih]

theorem drop {n : Nat} (h : SameLine x y) (hn : '\n' ∉ x.take n) : SameLine (x.drop n) (y.drop n) := by
  induction h generalizing n with
  | nil => simpa using .nil
  | ended v w =>
    cases n with
    | zero => exact .ended v w
    | succ n => exact absurd List.mem_cons_self hn
  | cons c h ih =>
    cases n with
    | zero => exact .cons c h
    | succ n => exact ih fun hmem => hn (List.mem_cons_of_mem c hmem)

theorem take_eq {n : Nat} (h : SameLine x y) (hn : '\n' ∉ x.take n) : x.take n = y.take n := by
  induction h generalizing n with
  | nil => rfl
  | ended v w =>
    cases n with
    | zero => rfl
    | succ n => exact absurd List.mem_cons_self hn
  | cons c h ih =>
    cases n with
    | zero => rfl
    | succ n =>
      rw [List.take_succ_cons, List.take_succ_cons, ih fun hmem => hn (List.mem_cons_of_mem c hmem)]

theorem isPrefixOf_eq {part : List Char} (h : SameLine x y) (hpart : '\n' ∉ part) :
    part.isPrefixOf x = part.isPrefixOf y := by
  induction h generalizing part with
  | nil => rfl
  | ended v w =>
    cases part with
    | nil => rfl
    | cons c part =>
      have hc : (c == '\n') = false := beq_eq_false_iff_ne.mpr fun hc => hpart (hc ▸ List.mem_cons_self)
      rw [List.isPrefixOf, List.isPrefixOf, hc, Bool.false_and, Bool.false_and]
  | cons c h ih =>
    cases part with
    | nil => rfl
    | cons d part =>
      rw [List.isPrefixOf, List.isPrefixOf, ih fun hmem => hpart (List.mem_cons_of_mem d hmem)]

theorem any_isPrefixOf_eq {words : List String} (h : SameLine x y)
    (hwords : ∀ w ∈ words, '\n' ∉ w.toList) :
    (words.any fun w => w.toList.isPrefixOf x) = words.any fun w => w.toList.isPrefixOf y := by
  rw [Bool.eq_iff_iff, List.any_eq_true, List.any_eq_true]
  exact exists_congr fun w => and_congr_right fun hw => by rw [h.isPrefixOf_eq (hwords w hw)]

theorem drop_takeWhile (h : SameLine x y) (hp : p '\n' = false) :
    SameLine (x.drop (x.takeWhile p).length) (y.drop (y.takeWhile p).length) := by
  rw [← h.takeWhile_eq hp]
  refine h.drop fun hmem => ?_
  rw [← List.prefix_iff_eq_take.mp (List.takeWhile_prefix p)] at hmem
  exact Bool.false_ne_true (hp.symm.trans (List.all_eq_true.mp List.all_takeWhile _ hmem))

end SameLine

/-! ## Quoted texts -/

section Texts

variable {x y u v w : List Char}

theorem prefixLength_eq (h : SameLine x y) (b u r f : Bool) :
    prefixLength b u r f x = prefixLength b u r f y := by
  induction h generalizing b u r f with
  | nil => rfl
  | ended v w => cases b <;> cases u <;> cases r <;> cases f <;> rfl
  | cons c h ih => simp only [prefixLength, ih]

theorem newline_not_mem_prefix (b u r f : Bool) (x : List Char) :
    '\n' ∉ x.take (prefixLength b u r f x) := by
  induction x generalizing b u r f with
  | nil => simp
  | cons c x ih =>
    by_cases hc : c = '\n'
    · subst hc
      have hzero : prefixLength b u r f ('\n' :: x) = 0 := by
        cases b <;> cases u <;> cases r <;> cases f <;> rfl
      simp [hzero]
    · have hmore : ∀ {n : Nat}, '\n' ∉ x.take n → '\n' ∉ (c :: x).take (1 + n) := by
        intro n hn
        rw [Nat.add_comm, List.take_succ_cons, List.mem_cons, not_or]
        exact ⟨Ne.symm hc, hn⟩
      unfold prefixLength
      simp only
      split
      · exact hmore (ih _ _ _ _)
      · split
        · exact hmore (ih _ _ _ _)
        · split
          · exact hmore (ih _ _ _ _)
          · split
            · exact hmore (ih _ _ _ _)
            · simp

theorem opensText_eq (h : SameLine x y) : opensText x = opensText y := by
  unfold opensText
  simp only [← prefixLength_eq h]
  have hagree : ∀ n ∈ List.range (prefixLength false false false false x + 1),
      ((x.drop n).head?.any fun c => c == '"' || c == '\'') =
        (y.drop n).head?.any fun c => c == '"' || c == '\'' := by
    intro n hn
    rw [List.mem_range] at hn
    have hnot : '\n' ∉ x.take n := fun hmem => newline_not_mem_prefix false false false false x
      ((List.take_subset_take_left x (by omega)) hmem)
    rw [(h.drop hnot).head?_eq]
  generalize List.range _ = candidates at hagree
  induction candidates with
  | nil => rfl
  | cons n candidates ih =>
    rw [List.find?_cons, List.find?_cons, hagree n List.mem_cons_self,
      ih fun m hm => hagree m (List.mem_cons_of_mem n hm)]

theorem le_of_closeText {quote : Char} {triple : Bool} {fuel n : Nat}
    (h : closeText quote triple fuel x = some n) : (if triple then 3 else 1) ≤ n := by
  induction fuel generalizing x n with
  | zero => cases h
  | succ fuel ih =>
    unfold closeText at h
    split at h
    · cases h
    · obtain ⟨m, hm, rfl⟩ := Option.map_eq_some_iff.mp h
      exact Nat.le_trans (ih hm) (Nat.le_add_right _ _)
    · split at h
      · split at h
        next htriple =>
          cases h
          simp_all
        · split at h
          · cases h
            split <;> omega
          · obtain ⟨m, hm, rfl⟩ := Option.map_eq_some_iff.mp h
            exact Nat.le_trans (ih hm) (Nat.le_add_right _ _)
      · split at h
        · cases h
        · obtain ⟨m, hm, rfl⟩ := Option.map_eq_some_iff.mp h
          exact Nat.le_trans (ih hm) (Nat.le_add_right _ _)

/-- Whether a text closes is settled by what it takes. -/
theorem closeText_append {quote : Char} {triple : Bool} {fuel fuel' : Nat} (hvw : v = [] ↔ w = [])
    (h : closeText quote triple fuel (u ++ v) = some u.length) (hfuel : u.length < fuel') :
    closeText quote triple fuel' (u ++ w) = some u.length := by
  induction fuel generalizing u fuel' with
  | zero => cases h
  | succ fuel ih =>
    obtain ⟨fuel', rfl⟩ : ∃ n, fuel' = n + 1 := ⟨fuel' - 1, by omega⟩
    have hpos := le_of_closeText h
    cases u with
    | nil => split at hpos <;> simp at hpos
    | cons c u =>
      rw [List.cons_append, List.length_cons] at h ⊢
      rw [List.length_cons] at hfuel
      have hstep : closeText quote triple fuel (u ++ v) = some u.length →
          closeText quote triple fuel' (u ++ w) = some u.length := fun h => ih h (by omega)
      by_cases hjoin : c = '\\' ∧ u ++ v ≠ []
      · obtain ⟨rfl, hne⟩ := hjoin
        cases u with
        | nil =>
          obtain ⟨d, v, rfl⟩ := List.exists_cons_of_ne_nil hne
          rw [List.nil_append, closeText] at h
          obtain ⟨m, -, hm⟩ := Option.map_eq_some_iff.mp h
          simp at hm
        | cons d u =>
          rw [List.cons_append, closeText] at h ⊢
          obtain ⟨m, hm, hlength⟩ := Option.map_eq_some_iff.mp h
          obtain rfl : m = u.length := by simpa using hlength
          rw [ih hm (by simp only [List.length_cons] at hfuel; omega)]
          rfl
      · have hjoin' : ∀ d rest, c = '\\' → u ++ w ≠ d :: rest := by
          intro d rest hc hrest
          have hnil : u ++ v = [] := by simpa [hc] using hjoin
          obtain ⟨rfl, rfl⟩ := List.append_eq_nil_iff.mp hnil
          rw [hvw.mp rfl] at hrest
          cases hrest
        have hjoin : ∀ d rest, c = '\\' → u ++ v ≠ d :: rest := by
          intro d rest hc hrest
          exact hjoin ⟨hc, by simp [hrest]⟩
        rw [closeText.eq_4 _ _ _ _ _ hjoin] at h
        rw [closeText.eq_4 _ _ _ _ _ hjoin']
        have hmap : Option.map (· + 1) (closeText quote triple fuel (u ++ v)) = some (u.length + 1) →
            Option.map (· + 1) (closeText quote triple fuel' (u ++ w)) = some (u.length + 1) := by
          intro h
          obtain ⟨m, hm, hlength⟩ := Option.map_eq_some_iff.mp h
          obtain rfl : m = u.length := by omega
          rw [hstep hm]
          rfl
        split at h
        next hc =>
          rw [if_pos hc]
          split at h
          next htriple =>
            rw [if_pos htriple]
            exact h
          next htriple =>
            rw [if_neg htriple]
            have htwo : 2 ≤ u.length := by
              split at h
              · have hlength := Option.some.inj h
                omega
              · obtain ⟨m, hm, hlength⟩ := Option.map_eq_some_iff.mp h
                have hthree := le_of_closeText hm
                rw [if_pos (by simpa using htriple)] at hthree
                omega
            rw [List.take_append_of_le_length htwo] at h ⊢
            split at h
            next htake =>
              rw [if_pos htake]
              exact h
            next htake =>
              rw [if_neg htake]
              exact hmap h
        next hc =>
          rw [if_neg hc]
          split at h
          · cases h
          next hbreak =>
            rw [if_neg hbreak]
            exact hmap h

/-- So is where it closes: an empty text is told from one that opens with three quotes by the character
behind it. -/
theorem textLength_append (hvw : SameLine v w) (h : textLength (u ++ v) = some u.length) :
    textLength (u ++ w) = some u.length := by
  have hshift : ∀ {quote : Char} {triple : Bool} (back : List Char) {fuel fuel' k : Nat},
      Option.map (· + k) (closeText quote triple fuel (back ++ v)) = some (back.length + k) →
      back.length < fuel' →
      Option.map (· + k) (closeText quote triple fuel' (back ++ w)) = some (back.length + k) := by
    intro quote triple back fuel fuel' k h hfuel
    obtain ⟨m, hm, hlength⟩ := Option.map_eq_some_iff.mp h
    obtain rfl : m = back.length := by omega
    rw [closeText_append hvw.eq_nil_iff hm hfuel, Option.map_some]
  have hlong : ∀ {quote : Char} {triple : Bool} {fuel k n : Nat} {x : List Char}, n ≤ k →
      Option.map (· + k) (closeText quote triple fuel x) ≠ some n := by
    intro quote triple fuel k n x hn hmap
    obtain ⟨m, hm, rfl⟩ := Option.map_eq_some_iff.mp hmap
    have hpos := le_of_closeText hm
    split at hpos <;> omega
  match u with
  | [] =>
    unfold textLength at h
    split at h
    · split at h
      · exact absurd h (hlong (by simp))
      · exact absurd h (hlong (by simp))
    · exact absurd h (hlong (by simp))
    · cases h
  | [a] =>
    unfold textLength at h
    split at h
    next heq =>
      cases heq
      split at h
      · exact absurd h (hlong (by simp))
      · exact absurd h (hlong (by simp))
    next heq =>
      cases heq
      exact absurd h (hlong (by simp))
    · cases h
  | [a, b] =>
    have hdrop : ∀ {c : Char} {v' w' : List Char}, v = c :: v' → w = c :: w' →
        textLength ([a, b] ++ w) = some [a, b].length := by
      rintro c v' w' rfl rfl
      change (if a = b && b = c then _ else _) = _ at h
      change (if a = b && b = c then _ else _) = _
      split at h
      · exact absurd h (hlong (by simp))
      next hne =>
        rw [if_neg hne]
        exact hshift [b] h (by simp)
    cases hvw with
    | nil => exact h
    | ended v w => exact hdrop rfl rfl
    | cons c _ => exact hdrop rfl rfl
  | a :: b :: c :: u =>
    change (if a = b && b = c then _ else _) = _ at h
    change (if a = b && b = c then _ else _) = _
    split at h
    next heq =>
      rw [if_pos heq]
      exact hshift u h (Nat.lt_succ_of_le (List.prefix_append u w).length_le)
    next hne =>
      rw [if_neg hne]
      exact hshift (b :: c :: u) h (by simp; omega)

end Texts

/-! ## Numbers -/

section Numbers

variable {x y : List Char} {p : Char → Bool}

theorem newline_not_mem_take_of_prefix {n : Nat} {front : List Char} (h : front <+: x)
    (hn : n ≤ front.length) (hfront : '\n' ∉ front) : '\n' ∉ x.take n := by
  obtain ⟨back, rfl⟩ := h
  rw [List.take_append_of_le_length hn]
  exact fun hmem => hfront (List.mem_of_mem_take hmem)

theorem newline_not_mem_takeWhile (hp : p '\n' = false) (x : List Char) : '\n' ∉ x.takeWhile p :=
  fun hmem => Bool.false_ne_true (hp.symm.trans (List.all_eq_true.mp List.all_takeWhile _ hmem))

theorem digitRun_eq {fuel fuel' : Nat} (hp : p '\n' = false) (h : SameLine x y)
    (hx : x.length < fuel) (hy : y.length < fuel') : digitRun p fuel x = digitRun p fuel' y := by
  induction fuel generalizing x y fuel' with
  | zero => omega
  | succ fuel ih =>
    obtain ⟨fuel', rfl⟩ : ∃ n, fuel' = n + 1 := ⟨fuel' - 1, by omega⟩
    unfold digitRun
    simp only [← h.takeWhile_eq hp]
    have hdrop := h.drop_takeWhile hp
    rw [← h.takeWhile_eq hp] at hdrop
    have hlx : (x.drop (x.takeWhile p).length).length ≤ x.length := by simp
    have hly : (y.drop (x.takeWhile p).length).length ≤ y.length := by simp
    generalize x.drop (x.takeWhile p).length = x' at hdrop hlx
    generalize y.drop (x.takeWhile p).length = y' at hdrop hly
    cases hdrop with
    | nil => rfl
    | ended v w => rfl
    | cons c hdrop =>
      by_cases hc : c = '_'
      · subst hc
        cases hdrop with
        | nil => rfl
        | ended v w => simp [hp]
        | cons d hdrop =>
          simp only [List.length_cons] at hlx hly
          have hmore := @ih _ _ fuel' (.cons d hdrop) (by simp only [List.length_cons]; omega)
            (by simp only [List.length_cons]; omega)
          simp only [hmore]
      · split <;> split <;> simp_all

/-- Digits with their underscores stand on one line. -/
theorem newline_not_mem_digitRun {fuel n : Nat} (hp : p '\n' = false)
    (h : digitRun p fuel x = some n) : '\n' ∉ x.take n := by
  induction fuel generalizing x n with
  | zero => cases h
  | succ fuel ih =>
    unfold digitRun at h
    simp only at h
    have hrun := newline_not_mem_takeWhile hp x
    have htake := List.prefix_iff_eq_take.mp (List.takeWhile_prefix p (l := x))
    have hsplit : x.takeWhile p ++ x.drop (x.takeWhile p).length = x :=
      (congrArg (· ++ _) htake).trans (List.take_append_drop _ _)
    generalize x.takeWhile p = run at h hrun hsplit
    split at h
    next c rest hrest =>
      split at h
      · obtain ⟨m, hm, rfl⟩ := Option.map_eq_some_iff.mp h
        rw [← hsplit, hrest, List.take_append, List.take_of_length_le (by omega),
          show run.length + 1 + m - run.length = m + 1 by omega, List.take_succ_cons]
        simp only [List.mem_append, List.mem_cons, not_or]
        exact ⟨hrun, by decide, ih hm⟩
      · cases h
    · cases h
    · cases h
      exact newline_not_mem_take_of_prefix ⟨_, hsplit⟩ (Nat.le_refl _) hrun

theorem digitsOf_eq (hp : p '\n' = false) (h : SameLine x y) : digitsOf p x = digitsOf p y :=
  digitRun_eq hp h (Nat.lt_succ_self _) (Nat.lt_succ_self _)

theorem endsNumber_eq (h : SameLine x y) : endsNumber x = endsNumber y := by
  rw [endsNumber, endsNumber, h.any_isPrefixOf_eq (by decide), h.head?_eq]

/-- The sign in front of an exponent. -/
def signLength : List Char → Nat
  | '+' :: _ => 1
  | '-' :: _ => 1
  | _ => 0

/-- What ends a number behind its first `n` characters: the sign of an imaginary one, or nothing. -/
def imaginaryTail (text : List Char) (n : Nat) : Option Nat :=
  match text.drop n with
  | c :: rest =>
    if c == 'j' || c == 'J' then (if endsNumber rest then some (n + 1) else none)
    else if endsNumber (c :: rest) then some n else none
  | [] => some n

theorem numberTail_cons (e : Char) (rest : List Char) : numberTail (e :: rest) =
    if e == 'e' || e == 'E' then
      if (rest.drop (signLength rest)).head?.any Char.isDigit then
        (digitsOf Char.isDigit (rest.drop (signLength rest))).bind fun n =>
          imaginaryTail (e :: rest) (1 + signLength rest + n)
      else if signLength rest = 1 then none
      else if endsNumber (e :: rest) then some 0 else none
    else imaginaryTail (e :: rest) 0 := rfl

theorem signLength_eq (h : SameLine x y) : signLength x = signLength y := by
  cases h with
  | nil => rfl
  | ended => rfl
  | cons c h => by_cases hplus : c = '+' <;> by_cases hminus : c = '-' <;> simp_all [signLength]

theorem newline_not_mem_sign (x : List Char) : '\n' ∉ x.take (signLength x) := by
  unfold signLength
  split <;> simp

theorem imaginaryTail_eq {n : Nat} (h : SameLine x y) (hn : '\n' ∉ x.take n) :
    imaginaryTail x n = imaginaryTail y n := by
  have hdrop := h.drop hn
  unfold imaginaryTail
  generalize x.drop n = x' at hdrop
  generalize y.drop n = y' at hdrop
  cases hdrop with
  | nil => rfl
  | ended v w => simp only [endsNumber_eq (.ended v w)]; rfl
  | cons c hdrop => simp only [endsNumber_eq (.cons c hdrop), endsNumber_eq hdrop]

theorem numberTail_eq (h : SameLine x y) : numberTail x = numberTail y := by
  cases h with
  | nil => rfl
  | ended v w => exact imaginaryTail_eq (n := 0) (.ended v w) (by simp)
  | @cons e x y h =>
    have hsign := newline_not_mem_sign x
    have hdigits := h.drop hsign
    have hwhole := SameLine.cons e h
    rw [numberTail_cons, numberTail_cons, ← signLength_eq h, hdigits.head?_eq,
      digitsOf_eq (p := Char.isDigit) (by decide) hdigits, endsNumber_eq hwhole,
      imaginaryTail_eq (n := 0) hwhole (by simp)]
    by_cases he : (e == 'e' || e == 'E') = true
    · cases hrun : digitsOf Char.isDigit (y.drop (signLength x)) with
      | none => rfl
      | some n =>
        rw [← digitsOf_eq (p := Char.isDigit) (by decide) hdigits] at hrun
        have hn := newline_not_mem_digitRun (by decide) hrun
        have he' : '\n' ≠ e := by
          rintro rfl
          exact absurd he (by decide)
        have htake : '\n' ∉ (e :: x).take (1 + signLength x + n) := by
          rw [Nat.add_assoc, Nat.add_comm 1, List.take_succ_cons, List.take_add]
          simp [he', hsign, hn]
        rw [Option.bind_some, Option.bind_some, imaginaryTail_eq hwhole htake]
    · rw [if_neg he, if_neg he]

theorem fractionTail_eq (h : SameLine x y) : fractionTail x = fractionTail y := by
  have hdigits : Char.isDigit '\n' = false := by decide
  cases h with
  | nil => rfl
  | ended v w => exact numberTail_eq (.ended v w)
  | @cons c x y h =>
    by_cases hc : c = '.'
    · subst hc
      simp only [fractionTail, ← h.head?_eq, ← digitsOf_eq hdigits h]
      split
      · cases hrun : digitsOf Char.isDigit x with
        | none => rfl
        | some n =>
          rw [Option.bind_some, Option.bind_some,
            numberTail_eq (h.drop (newline_not_mem_digitRun hdigits hrun))]
      · rw [Option.bind_some, Option.bind_some, List.drop_zero, List.drop_zero, numberTail_eq h]
    · have hother : ∀ z, fractionTail (c :: z) = numberTail (c :: z) := by
        intro z
        unfold fractionTail
        split
        next heq => exact absurd (List.cons.inj heq).1 hc
        · rfl
      rw [hother, hother, numberTail_eq (.cons c h)]

/-- A number whose base is named, from its third character on. -/
def basedLength (p : Char → Bool) (body : List Char) : Option Nat :=
  let (underscore, digits) := match body with
    | '_' :: rest => (1, rest)
    | rest => (0, rest)
  if digits.head?.any p then
    (digitsOf p digits).bind fun n =>
      let rest := digits.drop n
      if rest.head?.any Char.isDigit || !endsNumber rest then none else some (2 + underscore + n)
  else none

/-- The other numbers. -/
def decimalLength (text : List Char) : Option Nat :=
  (if text.head? == some '.' then some 0 else digitsOf Char.isDigit text).bind fun n =>
    let rest := text.drop n
    let whole := (text.take n).filter Char.isDigit
    (fractionTail rest).bind fun m =>
      let isWhole := m = 0
      let zeroed := whole.head? == some '0' && whole.any (· != '0')
      if isWhole && (zeroed || Text.maxDigits < whole.length) then none else some (n + m)

/-- The digits of the base that a letter behind a zero names. -/
def baseDigits (d : Char) : Option (Char → Bool) :=
  if d = 'x' ∨ d = 'X' then some isHex
  else if d = 'o' ∨ d = 'O' then some fun c => '0' ≤ c && c < '8'
  else if d = 'b' ∨ d = 'B' then some fun c => c == '0' || c == '1'
  else none

theorem numberLength_of_base {d : Char} (hd : baseDigits d = some p) (body : List Char) :
    numberLength ('0' :: d :: body) = basedLength p body := by
  unfold baseDigits at hd
  split at hd
  next h => obtain rfl | rfl := h <;> cases hd <;> rfl
  · split at hd
    next h => obtain rfl | rfl := h <;> cases hd <;> rfl
    · split at hd
      next h => obtain rfl | rfl := h <;> cases hd <;> rfl
      · cases hd

theorem numberLength_of_no_base (h : ∀ d body, x = '0' :: d :: body → baseDigits d = none) :
    numberLength x = decimalLength x := by
  unfold numberLength
  split
  · exact absurd (h _ _ rfl) (by decide)
  · exact absurd (h _ _ rfl) (by decide)
  · exact absurd (h _ _ rfl) (by decide)
  · exact absurd (h _ _ rfl) (by decide)
  · exact absurd (h _ _ rfl) (by decide)
  · exact absurd (h _ _ rfl) (by decide)
  · rfl

theorem newline_of_base {d : Char} (hd : baseDigits d = some p) : p '\n' = false := by
  unfold baseDigits at hd
  split at hd
  · cases hd
    decide
  · split at hd
    · cases hd
      decide
    · split at hd <;> cases hd
      decide

theorem basedLength_eq (h : SameLine x y) (hp : p '\n' = false) :
    basedLength p x = basedLength p y := by
  have hdigits : ∀ {k : Nat} {x y : List Char}, SameLine x y →
      (if x.head?.any p then
        (digitsOf p x).bind fun n =>
          if (x.drop n).head?.any Char.isDigit || !endsNumber (x.drop n) then none else some (2 + k + n)
      else none) =
      (if y.head?.any p then
        (digitsOf p y).bind fun n =>
          if (y.drop n).head?.any Char.isDigit || !endsNumber (y.drop n) then none else some (2 + k + n)
      else none) := by
    intro k x y h
    rw [h.head?_eq, ← digitsOf_eq hp h]
    cases hrun : digitsOf p x with
    | none => rfl
    | some n =>
      have hdrop := h.drop (newline_not_mem_digitRun hp hrun)
      simp only [Option.bind_some, hdrop.head?_eq, endsNumber_eq hdrop]
  cases h with
  | nil => rfl
  | ended v w => exact hdigits (.ended v w)
  | @cons c x y h =>
    by_cases hc : c = '_'
    · subst hc
      exact hdigits h
    · have hfirst : ∀ z, (match c :: z with
          | '_' :: rest => (1, rest)
          | rest => (0, rest)) = (0, c :: z) := by
        intro z
        split
        next heq => exact absurd (List.cons.inj heq).1 hc
        · rfl
      unfold basedLength
      rw [hfirst, hfirst]
      exact hdigits (.cons c h)

theorem decimalLength_eq (h : SameLine x y) : decimalLength x = decimalLength y := by
  have hdigits : Char.isDigit '\n' = false := by decide
  unfold decimalLength
  rw [← h.head?_eq, ← digitsOf_eq hdigits h]
  cases hrun : (if x.head? == some '.' then some 0 else digitsOf Char.isDigit x) with
  | none => rfl
  | some n =>
    have hn : '\n' ∉ x.take n := by
      split at hrun
      · cases hrun
        simp
      · exact newline_not_mem_digitRun hdigits hrun
    simp only [Option.bind_some, h.take_eq hn, fractionTail_eq (h.drop hn)]

theorem numberLength_eq (h : SameLine x y) : numberLength x = numberLength y := by
  have hdecimal : (∀ d body, x = '0' :: d :: body → baseDigits d = none) →
      (∀ d body, y = '0' :: d :: body → baseDigits d = none) → numberLength x = numberLength y := by
    intro hx hy
    rw [numberLength_of_no_base hx, numberLength_of_no_base hy, decimalLength_eq h]
  cases h with
  | nil => rfl
  | ended v w => exact hdecimal (fun _ _ h => by cases h) (fun _ _ h => by cases h)
  | cons c h =>
    cases h with
    | nil => rfl
    | ended v w => exact hdecimal (fun _ _ h => by cases h; decide) (fun _ _ h => by cases h; decide)
    | cons d h =>
      cases hd : baseDigits d with
      | none => exact hdecimal (fun _ _ h => by cases h; exact hd) (fun _ _ h => by cases h; exact hd)
      | some p =>
        by_cases hc : c = '0'
        · subst hc
          rw [numberLength_of_base hd, numberLength_of_base hd, basedLength_eq h (newline_of_base hd)]
        · exact hdecimal (fun _ _ h => absurd (List.cons.inj h).1 hc)
            (fun _ _ h => absurd (List.cons.inj h).1 hc)

end Numbers

/-! ## Marks -/

theorem markLength_eq {x y : List Char} (h : SameLine x y) : markLength x = markLength y := by
  rw [markLength, markLength, h.any_isPrefixOf_eq (by decide), h.any_isPrefixOf_eq (by decide)]

/-! ## What comes next -/

/-- What stands first behind blanks and a comment. -/
inductive Lexeme where
  | finish
  /-- The end of a line. -/
  | ended
  /-- A backslash that joins a line with the next one. -/
  | joined
  /-- A token of a kind, its number of characters, and the open brackets behind it. -/
  | token (kind : TokenKind) (length : Nat) (brackets : List Char)
  | fault (reported : Bool)

/-- The token that a character opens. -/
def tokenLexeme (brackets : List Char) (c : Char) (rest : List Char) : Lexeme :=
  match opensText (c :: rest) with
  | some n =>
    match textLength ((c :: rest).drop n) with
    | some m => .token .text (n + m) brackets
    | none => .fault true
  | none =>
    if isNameStartChar c then
      let name := (c :: rest).takeWhile isNameChar
      if name.all (·.toNat < 128) || isName name then .token .name name.length brackets
      else .fault true
    else if c.isDigit || (c == '.' && rest.head?.any Char.isDigit) then
      match numberLength (c :: rest) with
      | some n => .token .number n brackets
      | none => .fault true
    else
      let n := markLength (c :: rest)
      match if n = 1 then bracketsBehind brackets c else some brackets with
      | none => .fault true
      | some behind => if n = 1 && !Text.isPrintable c then .fault true else .token .mark n behind

def lexeme (brackets : List Char) (text : List Char) : Lexeme :=
  match text with
  | [] => if brackets.isEmpty then .finish else .fault false
  | '\n' :: _ => .ended
  | '\\' :: '\n' :: rest => if rest.isEmpty then .fault false else .joined
  | '\\' :: _ => .fault false
  | c :: rest => tokenLexeme brackets c rest

variable {u v w brackets behind : List Char} {kind : TokenKind}

/-- Neither the end of a line nor a change of the indentation, and not the end of the text. -/
def TokenKind.isPlain : TokenKind → Bool
  | name => true
  | number => true
  | text => true
  | mark => true
  | _ => false

theorem tokenLexeme_cases (brackets : List Char) (c : Char) (rest : List Char) :
    (∃ kind n behind, tokenLexeme brackets c rest = .token kind n behind ∧ kind.isPlain = true) ∨
      tokenLexeme brackets c rest = .fault true := by
  unfold tokenLexeme
  split
  · split
    · exact .inl ⟨_, _, _, rfl, rfl⟩
    · exact .inr rfl
  · split
    · simp only
      split
      · exact .inl ⟨_, _, _, rfl, rfl⟩
      · exact .inr rfl
    · split
      · split
        · exact .inl ⟨_, _, _, rfl, rfl⟩
        · exact .inr rfl
      · simp only
        split
        · exact .inr rfl
        · split
          · exact .inr rfl
          · exact .inl ⟨_, _, _, rfl, rfl⟩

theorem tokenLexeme_append {c : Char} {x y : List Char} (hvw : SameLine v w) (hrest : SameLine x y)
    (hx : u ++ v = c :: x) (hy : u ++ w = c :: y)
    (h : tokenLexeme brackets c x = .token kind u.length behind) :
    tokenLexeme brackets c y = .token kind u.length behind := by
  have hwhole : SameLine (c :: x) (c :: y) := .cons c hrest
  unfold tokenLexeme at h ⊢
  rw [← opensText_eq hwhole]
  split at h
  next n hopens =>
    split at h
    next m hlength =>
      injection h with hkind hn hbrackets
      have hle : n ≤ u.length := by omega
      have hm : m = (u.drop n).length := by rw [List.length_drop]; omega
      rw [← hx, List.drop_append_of_le_length hle, hm] at hlength
      rw [← hy, List.drop_append_of_le_length hle, textLength_append hvw hlength, ← hkind, ← hbrackets,
        ← hm]
      simp only [hn]
    · cases h
  · simpa only [← hwhole.takeWhile_eq (p := isNameChar) (by decide), ← numberLength_eq hwhole,
      ← markLength_eq hwhole, ← hrest.head?_eq] using h

theorem lexeme_cons {c : Char} (hnewline : c ≠ '\n') (hjoin : c ≠ '\\') (rest : List Char) :
    lexeme brackets (c :: rest) = tokenLexeme brackets c rest := by
  unfold lexeme
  split
  next heq => cases heq
  next heq => exact absurd (List.cons.inj heq).1 hnewline
  next heq => exact absurd (List.cons.inj heq).1 hjoin
  next heq => exact absurd (List.cons.inj heq).1 hjoin
  next heq => cases heq; rfl

/-- What comes next, by the characters that stand first. -/
theorem lexeme_cases (brackets x : List Char) :
    (x = [] ∧ (lexeme brackets x = .finish ∨ lexeme brackets x = .fault false)) ∨
    (∃ v, x = '\n' :: v ∧ lexeme brackets x = .ended) ∨
    (∃ c v, x = '\\' :: '\n' :: c :: v ∧ lexeme brackets x = .joined) ∨
    lexeme brackets x = .fault false ∨
    ∃ c v, x = c :: v ∧ c ≠ '\n' ∧ c ≠ '\\' ∧ lexeme brackets x = tokenLexeme brackets c v := by
  cases x with
  | nil =>
    refine .inl ⟨rfl, ?_⟩
    rw [lexeme]
    split
    · exact .inl rfl
    · exact .inr rfl
  | cons c v =>
    by_cases hnewline : c = '\n'
    · subst hnewline
      exact .inr (.inl ⟨v, rfl, rfl⟩)
    · by_cases hjoin : c = '\\'
      · subst hjoin
        cases v with
        | nil => exact .inr (.inr (.inr (.inl rfl)))
        | cons d v =>
          by_cases hd : d = '\n'
          · subst hd
            cases v with
            | nil => exact .inr (.inr (.inr (.inl rfl)))
            | cons e v => exact .inr (.inr (.inl ⟨e, v, rfl, rfl⟩))
          · refine .inr (.inr (.inr (.inl ?_)))
            unfold lexeme
            split
            next heq => cases heq
            next heq => cases heq
            next heq => exact absurd (List.cons.inj (List.cons.inj heq).2).1 hd
            · rfl
            next hjoin heq => exact (hjoin (List.cons.inj heq).1.symm).elim
      · exact .inr (.inr (.inr (.inr ⟨c, v, rfl, hnewline, hjoin, lexeme_cons hnewline hjoin v⟩)))

/-- What comes next depends on no more than the line in which it ends. -/
theorem lexeme_append (hvw : SameLine v w)
    (h : lexeme brackets (u ++ v) = .token kind u.length behind) :
    lexeme brackets (u ++ w) = .token kind u.length behind := by
  have hline := hvw.append u
  rcases lexeme_cases brackets (u ++ v) with ⟨-, hx | hx⟩ | ⟨x, -, hx⟩ | ⟨c, x, -, hx⟩ | hx |
    ⟨c, x, hx, hnewline, hjoin, htoken⟩
  · cases hx.symm.trans h
  · cases hx.symm.trans h
  · cases hx.symm.trans h
  · cases hx.symm.trans h
  · cases hx.symm.trans h
  · rw [htoken] at h
    rw [hx] at hline
    generalize hy : u ++ w = y at hline ⊢
    cases hline with
    | ended => exact absurd rfl hnewline
    | cons c hrest =>
      rw [lexeme_cons hnewline hjoin]
      exact tokenLexeme_append hvw hrest hx hy h

/-! ## Every token takes a character -/

theorem le_of_digitRun {p : Char → Bool} {fuel n : Nat} {x : List Char}
    (h : digitRun p fuel x = some n) : (x.takeWhile p).length ≤ n := by
  cases fuel with
  | zero => cases h
  | succ fuel =>
    unfold digitRun at h
    simp only at h
    split at h
    · split at h
      · obtain ⟨m, -, rfl⟩ := Option.map_eq_some_iff.mp h
        omega
      · cases h
    · cases h
    · cases h
      exact Nat.le_refl _

theorem numberLength_pos {c : Char} {rest : List Char} {n : Nat}
    (hc : (c.isDigit || (c == '.' && rest.head?.any Char.isDigit)) = true)
    (h : numberLength (c :: rest) = some n) : 0 < n := by
  have hdecimal : decimalLength (c :: rest) = some n → 0 < n := by
    intro h
    obtain ⟨k, hk, h⟩ := Option.bind_eq_some_iff.mp h
    obtain ⟨m, hm, h⟩ := Option.bind_eq_some_iff.mp h
    simp only [Option.ite_none_left_eq_some, Option.some.injEq] at h
    obtain ⟨-, rfl⟩ := h
    split at hk
    next hdot =>
      cases hk
      obtain rfl : c = '.' := by simpa using hdot
      obtain ⟨d, -, hm⟩ := Option.bind_eq_some_iff.mp hm
      obtain ⟨e, -, rfl⟩ := Option.map_eq_some_iff.mp hm
      omega
    next hdot =>
      have hdigit : c.isDigit = true := by
        have hdot : (c == '.') = false := by simpa using hdot
        simpa [hdot] using hc
      have hle := le_of_digitRun hk
      rw [List.takeWhile_cons_of_pos hdigit, List.length_cons] at hle
      omega
  by_cases hbase : ∃ d body p, c :: rest = '0' :: d :: body ∧ baseDigits d = some p
  · obtain ⟨d, body, p, heq, hd⟩ := hbase
    rw [heq, numberLength_of_base hd] at h
    unfold basedLength at h
    split at h
    split at h
    · obtain ⟨m, -, h⟩ := Option.bind_eq_some_iff.mp h
      simp only at h
      split at h <;> cases h
      omega
    · cases h
  · rw [numberLength_of_no_base fun d body heq => Option.eq_none_iff_forall_ne_some.mpr
      fun p hd => hbase ⟨d, body, p, heq, hd⟩] at h
    exact hdecimal h

theorem tokenLexeme_pos {c : Char} {rest : List Char} {n : Nat}
    (h : tokenLexeme brackets c rest = .token kind n behind) : 0 < n := by
  rw [tokenLexeme] at h
  split at h
  · split at h
    next hlength =>
      cases h
      obtain ⟨taken, last, htake, -⟩ := take_textLength hlength
      refine Nat.pos_of_ne_zero fun hzero => ?_
      rw [(Nat.add_eq_zero_iff.mp hzero).2] at htake
      exact absurd htake.symm (by simp)
    · cases h
  · split at h
    next hname =>
      simp only at h
      split at h <;> cases h
      rw [List.takeWhile_cons_of_pos (by simp [isNameChar, hname])]
      exact Nat.succ_pos _
    · split at h
      next hnumber =>
        split at h <;> cases h
        next hlength => exact numberLength_pos hnumber hlength
      · simp only at h
        split at h
        · cases h
        · split at h <;> cases h
          rw [markLength]
          split
          · omega
          · split <;> omega

end DelayInjection.Python
