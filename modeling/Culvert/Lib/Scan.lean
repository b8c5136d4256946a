import Culvert.Lib.ByteMem
import Culvert.Lib.Text

/-! Searching, splitting and reading texts, and the bytes they are sent as. -/

namespace Text

/-- Bytes read as `char`s. -/
def ofBytes (bs : List Byte) : List Char := bs.map fun b => Char.ofNat b.toNat

def toBytes (text : List Char) : List Byte := text.map fun c => BitVec.ofNat 8 c.toNat

/-- `printf("%x")`. -/
def hex (n : Nat) : List Char := Nat.toDigits 16 n

def isHex (c : Char) : Bool := (digitIn 16 c).isSome

/-- `strchr`: the text from the first `c` on. -/
def strchr (text : List Char) (c : Char) : Option (List Char) :=
  match text.dropWhile (· ≠ c) with
  | [] => none
  | found => some found

/-- The words that `strtok_r` finds in a text, one after the other. -/
def tokens (delim : Char) (text : List Char) : List (List Char) := (text.splitOn delim).filter (· ≠ [])

/-- `memmem`: where `needle` occurs first. -/
def memmem {α : Type} [DecidableEq α] (needle : List α) : List α → Option Nat
  | [] => if needle = [] then some 0 else none
  | x :: hay => if needle <+: x :: hay then some 0 else (memmem needle hay).map (· + 1)

/-- What a conversion of `scanf` comes to: the input ends first, it does not match, or a byte is assigned and the
rest of the input is left. -/
inductive Conv where
  | ended
  | unmatched
  | got (b : Byte) (rest : List Char)
  deriving DecidableEq

/-- `scanf("%2hhx")`. The item is a number of up to two characters, which a sign may take one of; `0x` on its own
is none. -/
def scanHhx (input : List Char) : Conv :=
  match skipSpace input with
  | [] => .ended
  | c :: rest =>
    if c = '+' ∨ c = '-' then
      match rest.head?.bind (digitIn 16) with
      | none => .unmatched
      | some d => .got (if c = '-' then -BitVec.ofNat 8 d else BitVec.ofNat 8 d) rest.tail
    else
      match digitIn 16 c with
      | none => .unmatched
      | some d =>
        if c = '0' ∧ (rest.head? = some 'x' ∨ rest.head? = some 'X') then .unmatched
        else
          match rest.head?.bind (digitIn 16) with
          | none => .got (BitVec.ofNat 8 d) rest
          | some d' => .got (BitVec.ofNat 8 (16 * d + d')) rest.tail

/-- So many `%2hhx` in a row: the bytes assigned, and whether the input ended before the first. -/
def scanBytes : Nat → List Char → List Byte × Bool
  | 0, _ => ([], false)
  | n + 1, input =>
    match scanHhx input with
    | .ended => ([], true)
    | .unmatched => ([], false)
    | .got b rest => (b :: (scanBytes n rest).1, false)

example : scanBytes 4 "31e01002".toList = ([0x31, 0xe0, 0x10, 0x02], false) := by decide
example : scanBytes 4 " 3-1 +e0x".toList = ([0x03, 0xff, 0x0e], false) := by decide
example : scanBytes 4 "\r\n".toList = ([], true) := by decide
example : tokens ' ' "  31e01002 20433002\r\n".toList = ["31e01002".toList, "20433002\r\n".toList] := by decide

section
variable {base acc : Nat} {c : Char} {text rest : List Char}

theorem digitIn_lt {d : Nat} (digit : digitIn base c = some d) : d < base := by
  obtain ⟨_, small⟩ := Option.filter_eq_some_iff.mp digit
  exact of_decide_eq_true small

theorem isHex_iff : isHex c = true ↔ ∃ d < 16, digitIn 16 c = some d := by
  rw [isHex, Option.isSome_iff_exists]
  constructor
  · rintro ⟨d, digit⟩
    exact ⟨d, digitIn_lt digit, digit⟩
  · rintro ⟨d, _, digit⟩
    exact ⟨d, digit⟩

theorem not_isHex_iff : isHex c = false ↔ digitIn 16 c = none := by
  rw [isHex, Option.isSome_eq_false_iff, Option.isNone_iff_eq_none]

theorem digits_append (all : ∀ c ∈ text, (digitIn base c).isSome) :
    digits base acc (text ++ rest) = digits base (digits base acc text).1 rest := by
  induction text generalizing acc with
  | nil => rfl
  | cons c text ih =>
    obtain ⟨d, digit⟩ := Option.isSome_iff_exists.mp (all c List.mem_cons_self)
    simp only [List.cons_append, digits, digit]
    exact ih fun c' mem => all c' (List.mem_cons_of_mem c mem)

theorem digits_stop (stop : ∀ c ∈ text.head?, digitIn base c = none) : digits base acc text = (acc, text) := by
  cases text with
  | nil => rfl
  | cons c text =>
    have none := stop c rfl
    simp only [digits, none]

theorem digitIn_digitChar {d : Nat} (small : d < 16) : digitIn 16 d.digitChar = some d := by
  revert d
  decide

theorem hex_digits (n : Nat) : (∀ c ∈ hex n, isHex c) ∧ (digits 16 0 (hex n)).1 = n := by
  induction n using Nat.strong_induction_on with
  | _ n ih =>
    by_cases small : n < 16
    · rw [hex, Nat.toDigits_of_lt_base small]
      refine ⟨fun c mem => ?_, ?_⟩
      · rw [List.mem_singleton.mp mem]
        exact isHex_iff.mpr ⟨n, small, digitIn_digitChar small⟩
      · simp [digits, digitIn_digitChar small]
    · obtain ⟨all, value⟩ := ih (n / 16) (by omega)
      have last : digitIn 16 (n % 16).digitChar = some (n % 16) := digitIn_digitChar (by omega)
      rw [hex, Nat.toDigits_of_base_le (by decide) (by omega), ← hex]
      refine ⟨fun c mem => ?_, ?_⟩
      · rcases List.mem_append.mp mem with front | back
        · exact all c front
        · rw [List.mem_singleton.mp back]
          exact isHex_iff.mpr ⟨_, by omega, last⟩
      · rw [digits_append fun c mem => all c mem, value]
        simp only [digits, last]
        omega

theorem isHex_of_mem_hex {n : Nat} (mem : c ∈ hex n) : isHex c := (hex_digits n).1 c mem

theorem hex_ne_nil (n : Nat) : hex n ≠ [] := Nat.toDigits_ne_nil

/-- A number reads back as it was printed. -/
theorem digits_hex (n : Nat) (stop : ∀ c ∈ rest.head?, isHex c = false) : digits 16 0 (hex n ++ rest) = (n, rest) := by
  obtain ⟨all, value⟩ := hex_digits n
  rw [digits_append fun c mem => all c mem, value]
  exact digits_stop fun c mem => not_isHex_iff.mp (stop c mem)

theorem hex_length {n k : Nat} (pos : 0 < k) (small : n < 16 ^ k) : (hex n).length ≤ k :=
  (Nat.length_toDigits_le_iff (by decide) pos).mpr small

end

section
variable {c c' : Char} {input rest : List Char} {d d' n : Nat}

theorem isHex_ne {x : Char} (hex : isHex c) (other : isHex x = false) : c ≠ x := by
  rintro rfl
  rw [hex] at other
  cases other

theorem not_isSpace (hex : isHex c) : isSpace c = false := by
  rw [isSpace, Bool.or_eq_false_iff]
  refine ⟨decide_eq_false (isHex_ne hex (by decide)), ?_⟩
  by_contra blank
  have range : 9 ≤ c.toNat ∧ c.toNat ≤ 13 := by simpa using blank
  have small : c.toNat ∈ [9, 10, 11, 12, 13] := by
    simp only [List.mem_cons, List.not_mem_nil]
    omega
  have none (k : Nat) (mem : k ∈ [9, 10, 11, 12, 13]) : isHex (Char.ofNat k) = false := by
    revert k
    decide
  have not := none c.toNat small
  rw [Char.ofNat_toNat, hex] at not
  cases not

/-- Two digits in a row are one conversion. -/
theorem scanHhx_pair (high : digitIn 16 c = some d) (low : digitIn 16 c' = some d') :
    scanHhx (c :: c' :: rest) = .got (BitVec.ofNat 8 (16 * d + d')) rest := by
  have hex : isHex c := isHex_iff.mpr ⟨d, digitIn_lt high, high⟩
  have hex' : isHex c' := isHex_iff.mpr ⟨d', digitIn_lt low, low⟩
  have unsigned : ¬ (c = '+' ∨ c = '-') := by
    rintro (plus | minus)
    · exact isHex_ne hex (by decide) plus
    · exact isHex_ne hex (by decide) minus
  have bare : ¬ (c = '0' ∧ ((c' :: rest).head? = some 'x' ∨ (c' :: rest).head? = some 'X')) := by
    rintro ⟨_, lower | upper⟩
    · exact isHex_ne hex' (by decide) (Option.some.inj lower)
    · exact isHex_ne hex' (by decide) (Option.some.inj upper)
  have start : skipSpace (c :: c' :: rest) = c :: c' :: rest := by
    rw [skipSpace, List.dropWhile_cons_of_neg (by simp [not_isSpace hex])]
  rw [scanHhx, start]
  simp only [if_neg unsigned, high]
  rw [if_neg bare]
  simp only [List.head?_cons, Option.bind_some, low, List.tail_cons]

/-- The input ends before the first conversion where there is nothing but space. -/
theorem scanBytes_ended : (scanBytes (n + 1) input).2 = true ↔ input.all isSpace := by
  rw [List.all_eq_true]
  have blank : skipSpace input = [] ↔ ∀ c ∈ input, isSpace c := List.dropWhile_eq_nil_iff
  rw [← blank, scanBytes, scanHhx]
  cases skipSpace input with
  | nil => simp
  | cons c rest =>
    simp only [reduceCtorEq, iff_false, Bool.not_eq_true]
    split
    · rename_i ended
      exfalso
      revert ended
      repeat' split
      all_goals exact fun never => nomatch never
    · rfl
    · rfl

theorem scanBytes_length_le (n : Nat) (input : List Char) : (scanBytes n input).1.length ≤ n := by
  induction n generalizing input with
  | zero => exact Nat.le_refl 0
  | succ n ih =>
    rw [scanBytes]
    split
    · exact Nat.zero_le _
    · exact Nat.zero_le _
    · rename_i rest _
      exact Nat.succ_le_succ (ih rest)

/-- Nothing is assigned once the input has ended. -/
theorem scanBytes_of_ended (ended : (scanBytes n input).2 = true) : (scanBytes n input).1 = [] := by
  cases n with
  | zero => rfl
  | succ n =>
    rw [scanBytes] at ended ⊢
    split at ended
    · rfl
    · cases ended
    · cases ended

end

section
variable {c : Char} {text : List Char}

theorem toNat_lt_of_isHex (hex : isHex c) : c.toNat < 128 := by
  obtain ⟨d, _, digit⟩ := isHex_iff.mp hex
  obtain ⟨found, _⟩ := Option.filter_eq_some_iff.mp digit
  have kind : c.isDigit ∨ c.isLower ∨ c.isUpper := by
    by_contra none
    rw [not_or, not_or] at none
    rw [Text.digit, if_neg none.1, if_neg none.2.1, if_neg none.2.2] at found
    cases found
  simp only [Char.isDigit, Char.isLower, Char.isUpper, Bool.and_eq_true, decide_eq_true_eq, ge_iff_le,
    UInt32.le_iff_toNat_le] at kind
  have digits : '9'.val.toNat = 57 := rfl
  have lower : 'z'.val.toNat = 122 := rfl
  have upper : 'Z'.val.toNat = 90 := rfl
  rw [Char.toNat]
  omega

theorem toBytes_append (text text' : List Char) : toBytes (text ++ text') = toBytes text ++ toBytes text' :=
  List.map_append

/-- One byte for each character. -/
def Narrow (text : List Char) : Prop := ∀ c ∈ text, c.toNat < 256

theorem ofBytes_toBytes (narrow : Narrow text) : ofBytes (toBytes text) = text := by
  rw [ofBytes, toBytes, List.map_map]
  have each (c : Char) (mem : c ∈ text) : ((fun b : Byte => Char.ofNat b.toNat) ∘ fun c => BitVec.ofNat 8 c.toNat) c = id c := by
    rw [Function.comp_apply, BitVec.toNat_ofNat, Nat.mod_eq_of_lt (narrow c mem), Char.ofNat_toNat]
    rfl
  rw [List.map_congr_left each, List.map_id]

theorem toNat_ofNat_byte (b : Byte) : (Char.ofNat b.toNat).toNat = b.toNat := by
  rw [Char.toNat_ofNat, if_pos (Or.inl (b.isLt.trans (by decide)))]

theorem mem_ofBytes {bs : List Byte} {b : Byte} : Char.ofNat b.toNat ∈ ofBytes bs ↔ b ∈ bs := by
  rw [ofBytes, List.mem_map]
  constructor
  · rintro ⟨b', mem, same⟩
    have code := congrArg Char.toNat same
    rw [toNat_ofNat_byte, toNat_ofNat_byte] at code
    rwa [BitVec.eq_of_toNat_eq code] at mem
  · exact fun mem => ⟨b, mem, rfl⟩

/-- A C string ends at the first NUL byte. -/
theorem cString_ofBytes (bs : List Byte) : cString (ofBytes bs) = ofBytes (bs.takeWhile (· ≠ 0)) := by
  have each : ((fun c : Char => decide (c.toNat ≠ 0)) ∘ fun b : Byte => Char.ofNat b.toNat) = fun b => decide (b ≠ 0) := by
    funext b
    rw [Function.comp_apply, toNat_ofNat_byte, decide_eq_decide]
    exact not_congr (BitVec.toNat_inj (y := 0))
  rw [cString, ofBytes, List.takeWhile_map, each, ofBytes]

theorem narrow_append {text' : List Char} : Narrow (text ++ text') ↔ Narrow text ∧ Narrow text' := List.forall_mem_append

theorem narrow_hex (n : Nat) : Narrow (hex n) := fun c mem => by
  have := toNat_lt_of_isHex (isHex_of_mem_hex mem)
  omega

theorem not_mem_toBytes (narrow : Narrow text) (small : c.toNat < 256) (fresh : c ∉ text) :
    BitVec.ofNat 8 c.toNat ∉ toBytes text := by
  intro mem
  obtain ⟨c', mem', same⟩ := List.mem_map.mp mem
  have number := congrArg BitVec.toNat same
  rw [BitVec.toNat_ofNat, BitVec.toNat_ofNat, Nat.mod_eq_of_lt (narrow c' mem'), Nat.mod_eq_of_lt small] at number
  exact fresh (Char.toNat_inj.mp number ▸ mem')

end

section
variable {c : Char} {text found : List Char}

theorem strchr_none : strchr text c = none ↔ c ∉ text := by
  rw [strchr]
  cases rest : text.dropWhile (· ≠ c) with
  | nil =>
    simp only [true_iff]
    intro mem
    have all := List.dropWhile_eq_nil_iff.mp rest c mem
    simp at all
  | cons x xs =>
    have head : x = c := by
      have := List.head?_dropWhile_not (fun y => decide (y ≠ c)) text
      rw [rest] at this
      simpa using this
    have mem : c ∈ text := by
      rw [← head]
      exact List.dropWhile_subset _ (rest ▸ List.mem_cons_self)
    simp [mem]

theorem strchr_some (run : strchr text c = some found) :
    ∃ before after, text = before ++ c :: after ∧ c ∉ before ∧ found = c :: after := by
  rw [strchr] at run
  cases rest : text.dropWhile (· ≠ c) with
  | nil =>
    rw [rest] at run
    cases run
  | cons x xs =>
    rw [rest] at run
    cases run
    have head : x = c := by
      have := List.head?_dropWhile_not (fun y => decide (y ≠ c)) text
      rw [rest] at this
      simpa using this
    subst head
    refine ⟨text.takeWhile (· ≠ x), xs, ?_, ?_, rfl⟩
    · rw [← rest, List.takeWhile_append_dropWhile]
    · intro mem
      have := List.mem_takeWhile_imp mem
      simp at this

theorem strchr_append {before : List Char} (after : List Char) (fresh : c ∉ before) :
    strchr (before ++ c :: after) c = some (c :: after) := by
  rw [strchr, List.dropWhile_append_of_pos]
  · simp
  · intro x mem
    simp only [ne_eq, decide_eq_true_eq]
    rintro rfl
    exact fresh mem

end

section
variable {α : Type} [DecidableEq α] {needle hay : List α} {p k : Nat}

theorem memmem_none_iff : memmem needle hay = none ↔ ¬ needle <:+: hay := by
  induction hay with
  | nil =>
    rw [memmem, List.infix_nil]
    split
    · simp [*]
    · simp [*]
  | cons x hay ih =>
    rw [memmem, List.infix_cons_iff, not_or]
    split
    case isTrue here => simp [here]
    case isFalse away => rw [Option.map_eq_none_iff, ih, and_iff_right away]

/-- What begins with something new is found where it is put. -/
theorem memmem_fresh {x : α} {front rest : List α} (fresh : x ∉ front) :
    memmem (x :: needle) (front ++ (x :: needle ++ rest)) = some front.length := by
  induction front with
  | nil => exact if_pos (List.prefix_append (x :: needle) rest)
  | cons y front ih =>
    rw [List.mem_cons, not_or] at fresh
    have away : ¬ x :: needle <+: y :: (front ++ (x :: needle ++ rest)) :=
      fun here => fresh.1 (List.cons_prefix_cons.mp here).1
    rw [List.cons_append, memmem, if_neg away, ih fresh.2, Option.map_some, List.length_cons]

theorem memmem_le (found : memmem needle hay = some p) : p + needle.length ≤ hay.length := by
  induction hay generalizing p with
  | nil =>
    rw [memmem] at found
    split at found
    · rename_i empty
      cases found
      simp [empty]
    · cases found
  | cons x hay ih =>
    rw [memmem] at found
    split at found
    · rename_i here
      cases found
      simpa using here.length_le
    · obtain ⟨q, later, rfl⟩ := Option.map_eq_some_iff.mp found
      have := ih later
      simp only [List.length_cons]
      omega

/-- What is found in the first bytes is what is found in all of them, if it ends there. -/
theorem memmem_take (some' : needle ≠ []) : memmem needle (hay.take k) = some p ↔
    memmem needle hay = some p ∧ p + needle.length ≤ k := by
  have long : 0 < needle.length := List.length_pos_iff.mpr some'
  induction hay generalizing k p with
  | nil => simp [memmem, some']
  | cons x hay ih =>
    cases k with
    | zero =>
      simp only [List.take_zero, memmem, if_neg some']
      constructor
      · intro never
        cases never
      · rintro ⟨_, le⟩
        omega
    | succ k =>
      rw [List.take_succ_cons, memmem, memmem]
      have start : needle <+: x :: hay.take k ↔ needle <+: x :: hay ∧ needle.length ≤ k + 1 := by
        rw [← List.take_succ_cons, List.prefix_take_iff]
      by_cases here : needle <+: x :: hay
      · rw [if_pos here]
        by_cases short : needle.length ≤ k + 1
        · rw [if_pos (start.mpr ⟨here, short⟩)]
          constructor
          · intro at0
            cases at0
            exact ⟨rfl, by omega⟩
          · rintro ⟨at0, _⟩
            exact at0
        · rw [if_neg fun both => short (start.mp both).2]
          constructor
          · intro later
            obtain ⟨q, found, rfl⟩ := Option.map_eq_some_iff.mp later
            have := (ih.mp found).2
            omega
          · rintro ⟨at0, le⟩
            cases at0
            omega
      · rw [if_neg here, if_neg fun both => here (start.mp both).1]
        simp only [Option.map_eq_some_iff]
        constructor
        · rintro ⟨q, found, rfl⟩
          obtain ⟨whole, le⟩ := ih.mp found
          exact ⟨⟨q, whole, rfl⟩, by omega⟩
        · rintro ⟨⟨q, whole, rfl⟩, le⟩
          exact ⟨q, ih.mpr ⟨whole, by omega⟩, rfl⟩

end

end Text
