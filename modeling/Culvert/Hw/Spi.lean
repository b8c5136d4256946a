import Culvert.Lib.ByteMem
import Culvert.Lib.Takes

namespace Culvert

/-- The `n` bytes of a number, most significant first. -/
def msbFirst : Nat → Nat → List Byte
  | 0, _ => []
  | n + 1, v => msbFirst n (v / 256) ++ [BitVec.ofNat 8 v]

/-- The number that bytes spell, most significant first. -/
def msbValue (bs : List Byte) : Nat := bs.foldl (fun v b => 256 * v + b.toNat) 0

@[simp] theorem msbFirst_length (n v : Nat) : (msbFirst n v).length = n := by
  induction n generalizing v with
  | zero => rfl
  | succ n ih => rw [msbFirst, List.length_append, ih, List.length_singleton]

theorem msbFirst_succ (n v : Nat) : msbFirst (n + 1) v = BitVec.ofNat 8 (v / 256 ^ n) :: msbFirst n v := by
  induction n generalizing v with
  | zero => rw [msbFirst, msbFirst, msbFirst, Nat.pow_zero, Nat.div_one, List.nil_append]
  | succ n ih =>
    have high : v / 256 / 256 ^ n = v / 256 ^ (n + 1) := by
      rw [Nat.div_div_eq_div_mul, ← Nat.pow_succ']
    rw [msbFirst, ih, high, List.cons_append]
    rfl

theorem msbValue_msbFirst (n v : Nat) : msbValue (msbFirst n v) = v % 256 ^ n := by
  induction n generalizing v with
  | zero => rw [Nat.pow_zero, Nat.mod_one, msbFirst, msbValue, List.foldl_nil]
  | succ n ih =>
    have high : msbValue (msbFirst n (v / 256)) = v / 256 % 256 ^ n := ih (v / 256)
    have last : (BitVec.ofNat 8 v).toNat = v % 256 := BitVec.toNat_ofNat v 8
    rw [msbValue] at high ⊢
    rw [msbFirst, List.foldl_append, high, List.foldl_cons, List.foldl_nil, last, Nat.pow_succ',
      Nat.mod_mul, Nat.add_comm]

/-- A chip on the SPI bus: it sees CE# going active and inactive and the bytes that are shifted out to
it, and gives the bytes that are shifted in. `mapped` are its contents in the read mode of the
controller. -/
structure SpiChip (χ : Type) where
  select : χ → χ
  deselect : χ → χ
  shiftOut : Byte → χ → χ
  shiftIn : χ → Byte × χ
  mapped : χ → Nat → Byte

namespace SpiChip
variable {χ : Type} (spi : SpiChip χ)

def sends : List Byte → χ → χ
  | [], c => c
  | b :: bs, c => sends bs (spi.shiftOut b c)

def receives : Nat → χ → List Byte × χ
  | 0, c => ([], c)
  | n + 1, c =>
    let rest := receives n (spi.shiftIn c).2
    ((spi.shiftIn c).1 :: rest.1, rest.2)

/-- One assertion of CE# in which the bytes `out` are shifted out and then `n` bytes in. -/
def transfer (out : List Byte) (n : Nat) (c : χ) : List Byte × χ :=
  let got := spi.receives n (spi.sends out (spi.select c))
  (got.1, spi.deselect got.2)

variable {c : χ} {n m : Nat} {bs bs' : List Byte}

@[simp] theorem receives_length : (spi.receives n c).1.length = n := by
  induction n generalizing c with
  | zero => rfl
  | succ n ih => rw [receives, List.length_cons, ih]

theorem sends_append : spi.sends (bs ++ bs') c = spi.sends bs' (spi.sends bs c) := by
  induction bs generalizing c with
  | nil => rfl
  | cons b bs ih =>
    rw [List.cons_append, sends, sends]
    exact ih

theorem receives_add : spi.receives (n + m) c =
    ((spi.receives n c).1 ++ (spi.receives m (spi.receives n c).2).1, (spi.receives m (spi.receives n c).2).2) := by
  induction n generalizing c with
  | zero => rw [Nat.zero_add, receives, List.nil_append]
  | succ n ih => rw [Nat.succ_add, receives, ih, receives, List.cons_append]

end SpiChip

/-- The offset of the control register of the controller's only chip. -/
def ceCtrl : Word := 0x10

/-- The SPI controller: its registers by offset, the state of CE#, and the chip. -/
structure SpiHost (χ : Type) where
  regs : Word → Word
  active : Bool
  chip : χ

namespace SpiHost
variable {χ : Type} (spi : SpiChip χ)

def assertCe (h : SpiHost χ) : SpiHost χ :=
  if h.active then h else { h with active := true, chip := spi.select h.chip }

def releaseCe (h : SpiHost χ) : SpiHost χ :=
  if h.active then { h with active := false, chip := spi.deselect h.chip } else h

def readl (off : Word) (h : SpiHost χ) : Word × SpiHost χ := (h.regs off, h)

/-- A control value that ends in 3 makes CE# active, one that ends in 7 makes it inactive. -/
def writel (off val : Word) (h : SpiHost χ) : SpiHost χ :=
  let h' := { h with regs := Function.update h.regs off val }
  if off = ceCtrl ∧ val &&& 7 = 3 then h'.assertCe spi
  else if off = ceCtrl ∧ val &&& 7 = 7 then h'.releaseCe spi
  else h'

/-- A byte written to the flash window in user mode is shifted out. -/
def windowWrite (b : Byte) (h : SpiHost χ) : SpiHost χ :=
  if h.active then { h with chip := spi.shiftOut b h.chip } else h

/-- A word read from the flash window in user mode is four bytes shifted in, the first of them in
bits 7:0. -/
def windowReadl (h : SpiHost χ) : Word × SpiHost χ :=
  if h.active then
    let got := spi.receives 4 h.chip
    (ByteMem.wordOf got.1, { h with chip := got.2 })
  else (ByteMem.readWord (spi.mapped h.chip) 0, h)

/-- The bytes from `off` of the window in read mode. -/
def windowRead (off len : Nat) (h : SpiHost χ) : List Byte × SpiHost χ := (ByteMem.read (spi.mapped h.chip) off len, h)

section
variable {h : SpiHost χ} {val : Word} {b : Byte}

theorem writel_assert (user : val &&& 7 = 3) : writel spi ceCtrl val h =
    { regs := Function.update h.regs ceCtrl val, active := true,
      chip := if h.active then h.chip else spi.select h.chip } := by
  rw [writel, if_pos ⟨rfl, user⟩, assertCe]
  cases h.active
  · rfl
  · rfl

theorem writel_release (user : val &&& 7 = 7) : writel spi ceCtrl val h =
    { regs := Function.update h.regs ceCtrl val, active := false,
      chip := if h.active then spi.deselect h.chip else h.chip } := by
  have other : ¬(ceCtrl = ceCtrl ∧ val &&& 7 = 3) := by
    rintro ⟨_, three⟩
    rw [user] at three
    exact absurd three (by decide)
  rw [writel, if_neg other, if_pos ⟨rfl, user⟩, releaseCe]
  cases h.active
  · simp
  · simp

theorem writel_plain {off : Word} (plain : off = ceCtrl → val &&& 7 = 0) :
    writel spi off val h = { h with regs := Function.update h.regs off val } := by
  have ends (x : Word) (more : x ≠ 0) : ¬(off = ceCtrl ∧ val &&& 7 = x) := by
    rintro ⟨here, same⟩
    exact more (same.symm.trans (plain here))
  rw [writel, if_neg (ends 3 (by decide)), if_neg (ends 7 (by decide))]

theorem windowWrite_active (active : h.active = true) :
    windowWrite spi b h = { h with chip := spi.shiftOut b h.chip } := by
  rw [windowWrite, if_pos active]

theorem windowReadl_active (active : h.active = true) :
    windowReadl spi h = (ByteMem.wordOf (spi.receives 4 h.chip).1, { h with chip := (spi.receives 4 h.chip).2 }) := by
  rw [windowReadl, if_pos active]

end

/-- The chip once CE# is inactive. -/
def rested (h : SpiHost χ) : χ := if h.active then spi.deselect h.chip else h.chip

end SpiHost

end Culvert
