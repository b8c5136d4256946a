import Mathlib

/-! A bank of fuses: bits that are set once and stay set, whose value is their exclusive or. -/

namespace Fuses

/-- The value of the bank. -/
def value (bank : List Bool) : Bool := bank.foldr xor false

/-- How many fuses are blown. -/
def blown (bank : List Bool) : Nat := bank.count true

/-- The first fuse that is not blown. -/
def spare (bank : List Bool) : Option Nat := bank.findIdx? (! ·)

variable {bank : List Bool} {i : Nat}

theorem blown_le (bank : List Bool) : blown bank ≤ bank.length := List.count_le_length

theorem spare_lt (found : spare bank = some i) : i < bank.length := (List.findIdx?_eq_some_iff_getElem.mp found).1

theorem spare_clear (found : spare bank = some i) : bank[i]? = some false := by
  obtain ⟨inside, clear, _⟩ := List.findIdx?_eq_some_iff_getElem.mp found
  rw [List.getElem?_eq_getElem inside]
  simpa using clear

theorem spare_eq_none_iff : spare bank = none ↔ blown bank = bank.length := by
  unfold spare blown
  rw [List.findIdx?_eq_none_iff, List.count_eq_length]
  constructor
  · intro all b mem
    have set := all b mem
    cases b with
    | true => rfl
    | false => cases set
  · intro all b mem
    rw [← all b mem]
    rfl

/-- Blowing a fuse adds one to their number. -/
theorem blown_set (clear : bank[i]? = some false) : blown (bank.set i true) = blown bank + 1 := by
  induction bank generalizing i with
  | nil => cases clear
  | cons b rest ih =>
    cases i with
    | zero =>
      obtain rfl : b = false := Option.some.inj clear
      simp [blown]
    | succ i =>
      have tail := ih clear
      unfold blown at tail ⊢
      rw [List.set_cons_succ, List.count_cons, List.count_cons, tail]
      omega

/-- Blowing a fuse flips the value. -/
theorem value_set (clear : bank[i]? = some false) : value (bank.set i true) = ! value bank := by
  induction bank generalizing i with
  | nil => cases clear
  | cons b rest ih =>
    cases i with
    | zero =>
      obtain rfl : b = false := Option.some.inj clear
      simp [value]
    | succ i =>
      show xor b (value (rest.set i true)) = ! xor b (value rest)
      rw [ih clear]
      cases b <;> cases value rest <;> rfl

end Fuses
