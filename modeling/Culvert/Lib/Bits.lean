import Mathlib

/-- Only bits of `mask` may differ. -/
def Within {w : Nat} (mask old new : BitVec w) : Prop := new &&& ~~~mask = old &&& ~~~mask

namespace Within
variable {w : Nat} {mask wider bits old mid new : BitVec w}

theorem refl (mask old : BitVec w) : Within mask old old := rfl

theorem trans (first : Within mask old mid) (second : Within mask mid new) : Within mask old new :=
  Eq.trans second first

/-- All of `bits` is in `mask`. -/
theorem and_not_of_sub (sub : bits &&& ~~~mask = 0) (old : BitVec w) : old &&& ~~~bits &&& ~~~mask = old &&& ~~~mask := by
  ext i inside
  have bit : (bits &&& ~~~mask)[i] = false := by
    rw [sub]
    exact BitVec.getElem_zero inside
  simp only [BitVec.getElem_and, BitVec.getElem_not] at bit ⊢
  cases same : bits[i]
  · simp
  · rw [same] at bit
    simp_all

theorem clear (sub : bits &&& ~~~mask = 0) (old : BitVec w) : Within mask old (old &&& ~~~bits) := and_not_of_sub sub old

theorem set (sub : bits &&& ~~~mask = 0) (old : BitVec w) : Within mask old (old ||| bits) := by
  have none : ~~~mask &&& bits = 0#w := by
    rw [BitVec.and_comm]
    exact sub
  unfold Within
  rw [BitVec.and_comm, BitVec.and_or_distrib_left, none, BitVec.or_zero, BitVec.and_comm]

/-- A field is put in. -/
theorem replace (sub : bits &&& ~~~mask = 0) (old : BitVec w) : Within mask old (old &&& ~~~mask ||| bits) :=
  (clear (BitVec.and_not_self mask) old).trans (set sub (old &&& ~~~mask))

theorem mono (within : Within mask old new) (sub : mask &&& ~~~wider = 0) : Within wider old new := by
  have narrow (x : BitVec w) : x &&& ~~~mask &&& ~~~wider = x &&& ~~~wider := and_not_of_sub sub x
  unfold Within at within ⊢
  rw [← narrow new, within, narrow old]

end Within

namespace BitVec
variable {w : Nat} (old mask : BitVec w)

theorem or_and_self_right : (old ||| mask) &&& mask = mask := by
  rw [BitVec.and_comm, BitVec.and_or_distrib_left, BitVec.and_self]
  ext i inside
  simp only [BitVec.getElem_or, BitVec.getElem_and]
  cases mask[i] <;> simp

theorem and_not_and_self : old &&& ~~~mask &&& mask = 0 := by
  rw [BitVec.and_assoc, BitVec.and_comm (~~~mask), BitVec.and_not_self]
  exact BitVec.and_zero

theorem and_not_or_and_left (x : BitVec w) : old &&& ~~~(mask ||| x) &&& mask = 0 := by
  rw [BitVec.not_or, ← BitVec.and_assoc, BitVec.and_assoc _ (~~~x), BitVec.and_comm (~~~x), ← BitVec.and_assoc,
    and_not_and_self]
  exact BitVec.zero_and

theorem and_not_or_and_right (x : BitVec w) : old &&& ~~~(x ||| mask) &&& mask = 0 := by
  rw [BitVec.or_comm]
  exact and_not_or_and_left old mask x

/-- Bits set after others are cleared do not bring these back. -/
theorem and_not_or_and {x : BitVec w} (apart : x &&& mask = 0) : (old &&& ~~~mask ||| x) &&& mask = 0 := by
  rw [BitVec.and_comm, BitVec.and_or_distrib_left, BitVec.and_comm mask, BitVec.and_comm mask, and_not_and_self, apart]
  exact BitVec.or_self

/-- Oring bits to some that are all among them gives them. -/
theorem replace_and {x : BitVec w} (sub : x &&& ~~~mask = 0) : (old &&& ~~~mask ||| x) &&& mask = x := by
  ext i inside
  have bit : (x &&& ~~~mask)[i] = false := by
    rw [sub]
    exact BitVec.getElem_zero inside
  simp only [BitVec.getElem_and, BitVec.getElem_or, BitVec.getElem_not] at bit ⊢
  revert bit
  cases mask[i] with
  | false => simp
  | true => simp

theorem or_eq_right_iff {old x : BitVec w} : old ||| x = x ↔ old &&& ~~~x = 0 := by
  constructor
  · intro whole
    rw [← whole, BitVec.not_or, ← BitVec.and_assoc, BitVec.and_not_self]
    exact BitVec.zero_and
  · intro sub
    ext i inside
    have bit : (old &&& ~~~x)[i] = false := by
      rw [sub]
      exact BitVec.getElem_zero inside
    simp only [BitVec.getElem_and, BitVec.getElem_not] at bit
    rw [BitVec.getElem_or]
    grind

/-- Anding the bits of `x` to those that have them all leaves them. -/
theorem and_eq_of_sub {old x : BitVec w} (sub : x &&& ~~~old = 0) : old &&& x = x := by
  have all : x &&& (old ||| ~~~old) = x := by
    rw [BitVec.or_not_self, BitVec.and_allOnes]
  have none : x &&& ~~~old = 0#w := sub
  rw [BitVec.and_or_distrib_left, none, BitVec.or_zero] at all
  rw [BitVec.and_comm, all]

theorem and_mask_toNat (x : BitVec w) {bits : Nat} (small : bits ≤ w) :
    (x &&& BitVec.ofNat w (2 ^ bits - 1)).toNat = x.toNat % 2 ^ bits := by
  have le : 2 ^ bits ≤ 2 ^ w := Nat.pow_le_pow_right (by decide) small
  have pos : 0 < 2 ^ bits := Nat.two_pow_pos bits
  rw [BitVec.toNat_and, BitVec.toNat_ofNat, Nat.mod_eq_of_lt (by omega), Nat.and_two_pow_sub_one_eq_mod]

theorem and_mask_eq_zero {x : BitVec w} {bits : Nat} (small : bits ≤ w) (aligned : x.toNat % 2 ^ bits = 0) :
    x &&& BitVec.ofNat w (2 ^ bits - 1) = 0 := by
  apply BitVec.eq_of_toNat_eq
  rw [and_mask_toNat x small, aligned]
  rfl

theorem or_and_mask_eq_zero_iff {x y : BitVec w} {bits : Nat} (small : bits ≤ w) :
    (x ||| y) &&& BitVec.ofNat w (2 ^ bits - 1) = 0 ↔ x.toNat % 2 ^ bits = 0 ∧ y.toNat % 2 ^ bits = 0 := by
  rw [BitVec.and_comm, BitVec.and_or_distrib_left, BitVec.and_comm _ x, BitVec.and_comm _ y]
  constructor
  · intro both
    obtain ⟨first, second⟩ := BitVec.or_eq_zero_iff.mp both
    rw [← and_mask_toNat x small, ← and_mask_toNat y small, first, second]
    exact ⟨rfl, rfl⟩
  · rintro ⟨first, second⟩
    rw [and_mask_eq_zero small first, and_mask_eq_zero small second]
    exact BitVec.or_self

theorem eq_zero_of_cpop {x : BitVec w} (none : x.cpop.toNat = 0) : x = 0#w := by
  induction w with
  | zero => exact BitVec.of_length_zero
  | succ w ih =>
    rw [← BitVec.cons_msb_setWidth x, BitVec.toNat_cpop_cons] at none
    have low : x.setWidth w = 0#w := ih (by omega)
    have high : x.msb = false := by
      cases top : x.msb
      · rfl
      · rw [top] at none
        exact absurd none (by simp)
    rw [← BitVec.cons_msb_setWidth x, low, high]
    simp

/-- A vector with one bit set is a power of two. -/
theorem isPowerOfTwo_of_cpop {x : BitVec w} (one : x.cpop.toNat = 1) : x.toNat.isPowerOfTwo := by
  induction w with
  | zero =>
    rw [BitVec.of_length_zero (x := x)] at one
    exact absurd one (by decide)
  | succ w ih =>
    have split := BitVec.cons_msb_setWidth x
    rw [← split, BitVec.toNat_cpop_cons] at one
    cases top : x.msb
    · rw [top, Bool.toNat_false, Nat.zero_add] at one
      rw [← split, top, BitVec.toNat_cons]
      simpa using ih one
    · rw [top, Bool.toNat_true] at one
      have low : x.setWidth w = 0#w := eq_zero_of_cpop (by omega)
      rw [← split, top, low, BitVec.toNat_cons]
      exact ⟨w, by simp [Nat.shiftLeft_eq]⟩

/-- The highest bit set, as the count of the zeros before it finds it. -/
theorem log2_toNat {x : BitVec w} (some : x ≠ 0#w) : x.toNat.log2 = w - 1 - x.clz.toNat := by
  have wide : 0 < w := by
    rcases Nat.eq_zero_or_pos w with rfl | wide
    · exact absurd BitVec.of_length_zero some
    · exact wide
  have pos : x.toNat ≠ 0 := fun zero => some (BitVec.eq_of_toNat_eq (by simpa using zero))
  have lead : x.clz.toNat < w := by
    have := BitVec.clz_lt_iff_ne_zero.mpr some
    have small : w < 2 ^ w := Nat.lt_two_pow_self
    simpa [BitVec.lt_def, Nat.mod_eq_of_lt small] using this
  have lower := BitVec.two_pow_sub_clz_le_toNat_of_ne_zero wide some
  have upper := BitVec.toNat_lt_two_pow_sub_clz (x := x)
  have high := (Nat.le_log2 pos).mpr lower
  have low := (Nat.log2_lt pos).mpr upper
  omega

/-- A range that starts below its end, is not empty and ends below a limit does not wrap around. -/
theorem range_iff (start size limit : BitVec w) : ¬ (start + size ≤ start ∨ size = 0 ∨ start + size > limit) ↔
    0 < size.toNat ∧ start.toNat + size.toNat ≤ limit.toNat := by
  have sum : (start + size).toNat = (start.toNat + size.toNat) % 2 ^ w := BitVec.toNat_add start size
  have none : size = 0 ↔ size.toNat = 0 := by
    rw [← BitVec.toNat_inj]
    simp
  have first := start.isLt
  have second := size.isLt
  have last := limit.isLt
  rw [BitVec.le_def, gt_iff_lt, BitVec.lt_def, none, sum]
  by_cases fits : start.toNat + size.toNat < 2 ^ w
  · rw [Nat.mod_eq_of_lt fits]
    omega
  · have wrapped : (start.toNat + size.toNat) % 2 ^ w = start.toNat + size.toNat - 2 ^ w := by
      rw [Nat.mod_eq_sub_mod (by omega), Nat.mod_eq_of_lt (by omega)]
    omega

end BitVec
