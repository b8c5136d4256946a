import Culvert.Lib.Scan

/-! What `strtoul` makes of the number that a text begins with. -/

namespace Text

/-- The text begins with the hexadecimal number `z`: after white space and a sign, and `0x`, as many digits as there are. -/
def Numeral (text : List Char) (z : Int) : Prop := ∃ space sign zeroX ds rest,
  text = space ++ (sign ++ (zeroX ++ (ds ++ rest))) ∧ (∀ c ∈ space, isSpace c) ∧ sign ∈ [[], ['+'], ['-']] ∧
  zeroX ∈ [[], ['0', 'x'], ['0', 'X']] ∧ ds ≠ [] ∧ (∀ c ∈ ds, isHex c) ∧ (∀ c ∈ rest.head?, isHex c = false) ∧
  (zeroX = [] → ds = ['0'] → ∀ x c rest', rest = x :: c :: rest' → x = 'x' ∨ x = 'X' → isHex c = false) ∧
  z = if sign = ['-'] then -((digits 16 0 ds).1 : Int) else (digits 16 0 ds).1

section
variable {c : Char} {text number ds rest : List Char} {base acc n : Nat} {z : Int}

/-- The digits that a text begins with. -/
theorem digits_split (base acc : Nat) (text : List Char) : ∃ ds, text = ds ++ (digits base acc text).2 ∧
    (∀ c ∈ ds, (digitIn base c).isSome) ∧ (∀ c ∈ (digits base acc text).2.head?, digitIn base c = none) ∧
    (digits base acc ds).1 = (digits base acc text).1 := by
  induction text generalizing acc with
  | nil => exact ⟨[], rfl, by simp, by simp [digits], rfl⟩
  | cons c text ih =>
    cases digit : digitIn base c with
    | none =>
      have stop : digits base acc (c :: text) = (acc, c :: text) := by simp only [digits, digit]
      rw [stop]
      refine ⟨[], rfl, by simp, fun c' mem => ?_, rfl⟩
      cases mem
      exact digit
    | some d =>
      have step (text : List Char) : digits base acc (c :: text) = digits base (acc * base + d) text := by
        simp only [digits, digit]
      obtain ⟨ds, split, all, stop, value⟩ := @ih (acc * base + d)
      rw [step]
      refine ⟨c :: ds, by rw [List.cons_append, ← split], fun c' mem => ?_, stop, by rw [step, value]⟩
      rcases List.mem_cons.mp mem with rfl | later
      · rw [digit]
        rfl
      · exact all c' later

/-- The number behind a prefix that `strtoul` takes. -/
theorem prefixed_split (text : List Char) : ∃ zeroX number, prefixed 16 text = (16, number) ∧ text = zeroX ++ number ∧
    zeroX ∈ [[], ['0', 'x'], ['0', 'X']] ∧
    (zeroX = [] → ∀ x c rest, text = '0' :: x :: c :: rest → x = 'x' ∨ x = 'X' → isHex c = false) := by
  by_cases bare : ∃ x c rest, text = '0' :: x :: c :: rest ∧ (x = 'x' ∨ x = 'X') ∧ isHex c
  · obtain ⟨x, c, rest, rfl, letter, hex⟩ := bare
    refine ⟨['0', x], c :: rest, ?_, rfl, ?_, fun never => nomatch never⟩
    · rw [prefixed, if_pos ⟨Or.inr rfl, letter, hex⟩]
    · rcases letter with rfl | rfl <;> simp
  · refine ⟨[], text, ?_, rfl, by simp, fun _ x c rest shape letter => ?_⟩
    · unfold prefixed
      split
      · rename_i x c rest
        rw [if_neg fun both => bare ⟨x, c, rest, rfl, both.2.1, both.2.2⟩]
        rfl
      · rfl
      · rfl
    · rw [← Bool.not_eq_true]
      exact fun hex => bare ⟨x, c, rest, shape, letter, hex⟩

theorem skipSpace_append {space : List Char} (all : ∀ c ∈ space, isSpace c) (stop : ∀ c ∈ text.head?, isSpace c = false) :
    skipSpace (space ++ text) = text := by
  rw [skipSpace, List.dropWhile_append_of_pos all]
  cases text with
  | nil => rfl
  | cons c text => rw [List.dropWhile_cons_of_neg (by simp [stop c rfl])]

/-- A number that begins with these digits, with or without a prefix. -/
theorem prefixed_digits {zeroX : List Char} (ok : zeroX ∈ [[], ['0', 'x'], ['0', 'X']]) (some' : ds ≠ [])
    (hex : ∀ c ∈ ds, isHex c) (stop : ∀ c ∈ rest.head?, isHex c = false)
    (bare : zeroX = [] → ds = ['0'] → ∀ x c rest', rest = x :: c :: rest' → x = 'x' ∨ x = 'X' → isHex c = false) :
    prefixed 16 (zeroX ++ (ds ++ rest)) = (16, ds ++ rest) := by
  obtain ⟨c, ds, rfl⟩ := List.exists_cons_of_ne_nil some'
  have first : isHex c := hex c List.mem_cons_self
  simp only [List.mem_cons, List.not_mem_nil, or_false] at ok
  rcases ok with rfl | rfl | rfl
  · unfold prefixed
    split
    · rename_i x d rest' shape
      rw [if_neg]
      · rfl
      · rintro ⟨_, letter, digit⟩
        have never : isHex x = false := by
          rcases letter with rfl | rfl <;> decide
        cases ds with
        | nil =>
          obtain ⟨rfl, rfl⟩ : c = '0' ∧ rest = x :: d :: rest' := by simpa using shape
          have not := bare rfl rfl x d rest' rfl letter
          rw [isHex, digit] at not
          cases not
        | cons c' ds =>
          have same : c' = x := by
            simp only [List.nil_append, List.cons_append, List.cons.injEq] at shape
            exact shape.2.1
          have hex' := hex c' (by simp)
          rw [same, never] at hex'
          cases hex'
    · rfl
    · rfl
  · exact if_pos ⟨Or.inr rfl, Or.inl rfl, first⟩
  · exact if_pos ⟨Or.inr rfl, Or.inr rfl, first⟩

/-- The digits are all that is read. -/
theorem digits_number (hex : ∀ c ∈ ds, isHex c) (stop : ∀ c ∈ rest.head?, isHex c = false) :
    digits 16 0 (ds ++ rest) = ((digits 16 0 ds).1, rest) := by
  rw [digits_append hex]
  exact digits_stop fun c mem => not_isHex_iff.mp (stop c mem)

/-- A number does not begin with white space. -/
theorem number_start {sign zeroX : List Char} (plusMinus : sign ∈ [[], ['+'], ['-']])
    (zero : zeroX ∈ [[], ['0', 'x'], ['0', 'X']]) (some' : ds ≠ []) (hex : ∀ c ∈ ds, isHex c) :
    ∃ c u, sign ++ (zeroX ++ (ds ++ rest)) = c :: u ∧ isSpace c = false := by
  obtain ⟨c, ds, rfl⟩ := List.exists_cons_of_ne_nil some'
  have digit : isSpace c = false := not_isSpace (hex c List.mem_cons_self)
  simp only [List.mem_cons, List.not_mem_nil, or_false] at zero plusMinus
  rcases plusMinus with rfl | rfl | rfl
  · rcases zero with rfl | rfl | rfl
    · exact ⟨c, ds ++ rest, rfl, digit⟩
    · exact ⟨'0', _, rfl, by decide⟩
    · exact ⟨'0', _, rfl, by decide⟩
  · exact ⟨'+', _, rfl, by decide⟩
  · exact ⟨'-', _, rfl, by decide⟩

theorem numeral_cons_space (blank : isSpace c) : Numeral (c :: text) z ↔ Numeral text z := by
  constructor
  · rintro ⟨space, sign, zeroX, ds, rest, shape, all, plusMinus, zero, some', hex, last⟩
    cases space with
    | nil =>
      obtain ⟨c', u, start, solid⟩ := @number_start ds rest sign zeroX plusMinus zero some' hex
      rw [List.nil_append, start] at shape
      rw [← (List.cons.inj shape).1, blank] at solid
      cases solid
    | cons c' space =>
      exact ⟨space, sign, zeroX, ds, rest, (List.cons.inj shape).2, fun x mem => all x (List.mem_cons_of_mem c' mem),
        plusMinus, zero, some', hex, last⟩
  · rintro ⟨space, sign, zeroX, ds, rest, rfl, all, last⟩
    refine ⟨c :: space, sign, zeroX, ds, rest, rfl, fun x mem => ?_, last⟩
    rcases List.mem_cons.mp mem with rfl | later
    · exact blank
    · exact all x later

/-- Digits on their own, of which a single 0 has no `x` behind it. -/
theorem numeral_digits (some' : ds ≠ []) (hex : ∀ c ∈ ds, isHex c) (stop : ∀ c ∈ rest.head?, isHex c = false)
    (plain : ∀ c ∈ rest.head?, c ≠ 'x' ∧ c ≠ 'X') : Numeral (ds ++ rest) (digits 16 0 ds).1 := by
  refine ⟨[], [], [], ds, rest, rfl, fun _ never => (by cases never), by simp, by simp, some', hex, stop, ?_, rfl⟩
  rintro _ _ x c rest' rfl letter
  have other := plain x rfl
  rcases letter with rfl | rfl
  · exact absurd rfl other.1
  · exact absurd rfl other.2

/-- `strtoul` reads the number that a text begins with, as 64 bits. -/
theorem strtoul_numeral (numeral : Numeral text z) : strtoulRange 16 text = decide (2 ^ 64 ≤ z.natAbs) ∧
    (strtoul 16 text).1 = if 2 ^ 64 ≤ z.natAbs then 2 ^ 64 - 1 else (z % 2 ^ 64).toNat := by
  obtain ⟨space, sign, zeroX, ds, rest, rfl, blank, plusMinus, zero, some', hex, stop, bare, rfl⟩ := numeral
  have number := prefixed_digits zero some' hex stop bare
  have value := digits_number hex stop
  generalize (digits 16 0 ds).1 = n at value ⊢
  obtain ⟨c, u, shape, start⟩ : ∃ c u, zeroX ++ (ds ++ rest) = c :: u ∧ isHex c := by
    obtain ⟨c, ds, rfl⟩ := List.exists_cons_of_ne_nil some'
    simp only [List.mem_cons, List.not_mem_nil, or_false] at zero
    rcases zero with rfl | rfl | rfl
    · exact ⟨c, ds ++ rest, rfl, hex c List.mem_cons_self⟩
    · exact ⟨'0', _, rfl, by decide⟩
    · exact ⟨'0', _, rfl, by decide⟩
  have long : rest.length ≠ (ds ++ rest).length := by
    have := List.length_pos_iff.mpr some'
    rw [List.length_append]
    omega
  have minus : c ≠ '-' := isHex_ne start (by decide)
  have plus : c ≠ '+' := isHex_ne start (by decide)
  have skip : skipSpace (space ++ (sign ++ (zeroX ++ (ds ++ rest)))) = sign ++ (zeroX ++ (ds ++ rest)) := by
    refine skipSpace_append blank ?_
    obtain ⟨c', u', start', solid⟩ := @number_start ds rest sign zeroX plusMinus zero some' hex
    rw [start']
    rintro _ ⟨⟩
    exact solid
  rw [shape] at number skip ⊢
  simp only [strtoul, strtoulRange, skip]
  simp only [List.mem_cons, List.not_mem_nil, or_false] at plusMinus
  rcases plusMinus with rfl | rfl | rfl
  · by_cases big : 18446744073709551616 ≤ n
    · simp [minus, plus, number, value, some', big]
    · simp [minus, plus, number, value, some', big]
      omega
  · by_cases big : 18446744073709551616 ≤ n
    · simp [number, value, some', big]
    · simp [number, value, some', big]
      omega
  · by_cases big : 18446744073709551616 ≤ n
    · simp [number, value, some', big]
    · simp [number, value, some', big]
      omega

/-- Only a number is out of range. -/
theorem numeral_of_range (range : strtoulRange 16 text = true) : ∃ z, Numeral text z := by
  obtain ⟨sign, u, plusMinus, shape, unsigned⟩ : ∃ sign u, sign ∈ [[], ['+'], ['-']] ∧ skipSpace text = sign ++ u ∧
      (if (skipSpace text).head? = some '-' ∨ (skipSpace text).head? = some '+' then (skipSpace text).tail
        else skipSpace text) = u := by
    cases start : skipSpace text with
    | nil => exact ⟨[], [], by simp, rfl, rfl⟩
    | cons c u =>
      by_cases minus : c = '-'
      · subst minus
        exact ⟨['-'], u, by simp, rfl, rfl⟩
      by_cases plus : c = '+'
      · subst plus
        exact ⟨['+'], u, by simp, rfl, rfl⟩
      · exact ⟨[], c :: u, by simp, rfl, by simp [minus, plus]⟩
  obtain ⟨zeroX, number, prefixes, rfl, zero, bare⟩ := prefixed_split u
  obtain ⟨ds, split, hex, stop, value⟩ := digits_split 16 0 number
  simp only [strtoulRange, unsigned, prefixes, decide_eq_true_eq] at range
  refine ⟨_, text.takeWhile isSpace, sign, zeroX, ds, (digits 16 0 number).2, ?_, ?_, plusMinus, zero, ?_, hex, ?_, ?_, rfl⟩
  · rw [← split, ← shape, skipSpace, List.takeWhile_append_dropWhile]
  · exact fun c mem => List.mem_takeWhile_imp mem
  · rintro rfl
    rw [← value] at range
    exact absurd range (by decide)
  · exact fun c mem => not_isHex_iff.mpr (stop c mem)
  · rintro rfl rfl x c rest' tail letter
    refine bare rfl x c rest' ?_ letter
    rw [split, tail]
    rfl

end

end Text
