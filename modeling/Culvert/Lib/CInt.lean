import Culvert.Lib.Prog

/-! Arithmetic in an `int` of 32 bits and in an `unsigned int`. What C leaves undefined is a fault. -/

namespace CInt
variable {σ : Type}

/-- A value of an `int`. -/
def Fits (v : Int) : Prop := -2 ^ 31 ≤ v ∧ v < 2 ^ 31

instance (v : Int) : Decidable (Fits v) := inferInstanceAs (Decidable (_ ∧ _))

/-- What an operation on `int` gives, if it is one. -/
def ofInt (v : Int) : Prog σ Int := if Fits v then pure v else throw .fault

def add (a b : Int) : Prog σ Int := ofInt (a + b)

def mul (a b : Int) : Prog σ Int := ofInt (a * b)

/-- Towards zero. -/
def div (a b : Int) : Prog σ Int := if b = 0 then throw .fault else ofInt (a.tdiv b)

/-- The quotient of two values of an `unsigned int`. -/
def udiv {w : Nat} (a b : BitVec w) : Prog σ (BitVec w) := if b = 0 then throw .fault else pure (a / b)

section
variable {a b : Nat}

theorem ofInt_fits {v : Int} (fits : Fits v) : (ofInt v : Prog σ Int) = pure v := if_pos fits

theorem ofInt_nat (small : a < 2 ^ 31) : (ofInt (a : Int) : Prog σ Int) = pure (a : Int) :=
  ofInt_fits ⟨by omega, by omega⟩

theorem add_nat (small : a + b < 2 ^ 31) : (add a b : Prog σ Int) = pure ((a + b : Nat) : Int) := by
  rw [add, ← Int.natCast_add, ofInt_nat small]

theorem add_one_nat (small : a + 1 < 2 ^ 31) : (add a 1 : Prog σ Int) = pure ((a + 1 : Nat) : Int) := @add_nat σ a 1 small

theorem mul_nat (small : a * b < 2 ^ 31) : (mul a b : Prog σ Int) = pure ((a * b : Nat) : Int) := by
  rw [mul, ← Int.natCast_mul, ofInt_nat small]

theorem div_nat (small : a < 2 ^ 31) (pos : 0 < b) : (div a b : Prog σ Int) = pure ((a / b : Nat) : Int) := by
  have quotient : ((a : Int).tdiv b) = ((a / b : Nat) : Int) := (Int.ofNat_tdiv a b).symm
  have le : a / b ≤ a := Nat.div_le_self a b
  rw [div, if_neg (by omega), quotient, ofInt_nat (by omega)]

theorem udiv_pos {w : Nat} {a b : BitVec w} (pos : b ≠ 0) : (udiv a b : Prog σ (BitVec w)) = pure (a / b) := if_neg pos

end

end CInt
