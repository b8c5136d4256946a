import Culvert.Hw.Straps
import Culvert.Lib.CInt
import Culvert.Lib.Takes
import Culvert.Soc.Clk

/-! The frequency of the AHB, as the driver works it out and as the comments have it. -/

namespace Culvert

open Prog

def scuHwStrapClkinInMod : Word := 1 <<< 23
def scuHwStrapAxiClkFreqRatioMask : Word := 0xe00
def scuHwStrapAxiClkFreqRatioShift : Nat := 9

def ast2500ScuHPll : Word := 0x24
def ast2600ScuHPll : Word := 0x200

def ast2600ScuHwStrap1CpuAxiRatio : Word := 1 <<< 16
def ast2600ScuHwStrap1AhbFreqRatioMask : Word := 0x1800
def ast2600ScuHwStrap1AhbFreqRatioShift : Nat := 11

/-- `cpu_freqs_24_48`. -/
def cpuFreqs2448 : Fin 4 → Word
  | 0 => 384000000
  | 1 => 360000000
  | 2 => 336000000
  | 3 => 408000000

/-- `cpu_freqs_25`. -/
def cpuFreqs25 : Fin 4 → Word
  | 0 => 400000000
  | 1 => 375000000
  | 2 => 350000000
  | 3 => 425000000

/-- `ahb_div`. -/
def ahbDiv : Fin 4 → Word
  | 0 => 1
  | 1 => 2
  | 2 => 4
  | 3 => 3

def cpuClk (strap : Word) : Word :=
  if strap &&& scuHwStrapClkinInMod ≠ 0 then cpuFreqs25 (strap.extractLsb' 8 2).toFin
  else cpuFreqs2448 (strap.extractLsb' 8 2).toFin

/-- The fields of the H-PLL register. -/
structure HPllReg where
  m : Nat
  n : Nat
  p : Nat
  mBound : m < 2 ^ 13
  nBound : n < 2 ^ 6
  pBound : p < 2 ^ 6

/-- `union ast2500_h_pll_reg`. -/
def ast2500HPllReg (w : Word) : HPllReg where
  m := (w.extractLsb' 5 8).toNat
  n := (w.extractLsb' 0 5).toNat
  p := (w.extractLsb' 13 6).toNat
  mBound := Nat.lt_of_lt_of_le (BitVec.isLt _) (by decide)
  nBound := Nat.lt_of_lt_of_le (BitVec.isLt _) (by decide)
  pBound := BitVec.isLt _

/-- `union ast2600_h_pll_reg`. -/
def ast2600HPllReg (w : Word) : HPllReg where
  m := (w.extractLsb' 0 13).toNat
  n := (w.extractLsb' 13 6).toNat
  p := (w.extractLsb' 19 4).toNat
  mBound := BitVec.isLt _
  nBound := BitVec.isLt _
  pBound := Nat.lt_of_lt_of_le (BitVec.isLt _) (by decide)

section
variable {σ : Type}

/-- `CLKIN * (M + 1) / (N + 1) / (P + 1)`, with `CLKIN` in megahertz. -/
def hPllOf (clkin : Nat) (reg : HPllReg) : Prog σ Word := do
  let num ← CInt.add reg.m 1
  let product ← CInt.mul clkin num
  let den ← CInt.add reg.n 1
  let quotient ← CInt.div product den
  let den ← CInt.add reg.p 1
  let quotient ← CInt.div quotient den
  return BitVec.ofInt 32 quotient

/-- `h_pll / 2 / ahb_ratio`, as the `int64_t` returned. -/
def hclkOf (hPll ahbRatio : Word) : Prog σ Int := do
  let half ← CInt.udiv hPll 2
  let hclk ← CInt.udiv half ahbRatio
  return hclk.toNat

variable (bus : Bus σ)

def ast2400ClkRateAhb : Prog (Faulty σ) Int := do
  let strap ← scuReadl bus scuClkStrap
  let rate ← CInt.udiv (cpuClk strap) (ahbDiv (strap.extractLsb' 10 2).toFin)
  return rate.toNat

def ast2500ClkRateAhb : Prog (Faulty σ) Int := do
  let strap ← scuReadl bus scuClkStrap
  let hPllReg ← scuReadl bus ast2500ScuHPll
  let hPll ← hPllOf (if strap &&& scuHwStrapClkinInMod ≠ 0 then 25 else 24) (ast2500HPllReg hPllReg)
  let ahbRatio := (strap &&& scuHwStrapAxiClkFreqRatioMask) >>> scuHwStrapAxiClkFreqRatioShift
  if ahbRatio = 0 then Prog.fail einval
  else hclkOf hPll (ahbRatio + 1)

/-- A ratio of 0 is refused before the 200 of the comment could be returned. -/
def ast2600ClkRateAhb : Prog (Faulty σ) Int := do
  let strap ← scuReadl bus ast2600ScuHwStrap1
  let hPllReg ← scuReadl bus ast2600ScuHPll
  let hPll ← hPllOf 25 (ast2600HPllReg hPllReg)
  let cpuAxiRatio := strap &&& ast2600ScuHwStrap1CpuAxiRatio
  let ahbRatio := (strap &&& ast2600ScuHwStrap1AhbFreqRatioMask) >>> ast2600ScuHwStrap1AhbFreqRatioShift
  if ahbRatio = 0 then Prog.fail einval
  else hclkOf hPll (if cpuAxiRatio ≠ 0 then (ahbRatio + 1) * 2 else ahbRatio + 1)

def clkRateAhb : AstGeneration → Prog (Faulty σ) Int
  | .g4 => ast2400ClkRateAhb bus
  | .g5 => ast2500ClkRateAhb bus
  | .g6 => ast2600ClkRateAhb bus

def clkGetRate (gen : AstGeneration) (src : Clksrc) : Prog (Faulty σ) Int :=
  if src ≠ .ahb then Prog.fail enotsup else clkRateAhb bus gen

/-- `ast_ahb_freq` before and after. What the clock driver returns becomes an unsigned value, an error too. -/
def ast2500GetAhbFreq (gen : AstGeneration) (astAhbFreq : Word) : Prog (Faulty σ) Word :=
  if astAhbFreq ≠ 0 then return astAhbFreq
  else do
    match ← attempt (clkGetRate bus gen .ahb) with
    | .ok rate => return BitVec.ofInt 32 rate
    | .error e => return BitVec.ofInt 32 e.code

end

/-! ## What the comments say -/

/-- CLKIN of the AST2500 in megahertz. -/
def clkin (strap : Word) : Nat := if strap &&& scuHwStrapClkinInMod ≠ 0 then 25 else 24

/-- The ratio of the AHB, if one is selected. -/
def ahbRatio : AstGeneration → Word → Nat
  | .g4, strap => (ahbDiv (strap.extractLsb' 10 2).toFin).toNat
  | .g5, strap => (strap.extractLsb' 9 3).toNat + 1
  | .g6, strap => ((strap.extractLsb' 11 2).toNat + 1) * if strap &&& ast2600ScuHwStrap1CpuAxiRatio ≠ 0 then 2 else 1

/-- `CLKIN * (M + 1) / (N + 1) / (P + 1) / 2 / ratio`, with `CLKIN` in hertz. -/
def hclkHertz (clkin : Nat) (reg : HPllReg) (ratio : Nat) : ℚ :=
  clkin * 1000000 * (reg.m + 1) / (reg.n + 1) / (reg.p + 1) / 2 / ratio

/-- The AHB's frequency in hertz. The AST2400 is strapped to one of a few. -/
def ahbHertz (regs : Regs) : AstGeneration → ℚ
  | .g4 =>
    let strap := regs (scuBase + scuClkStrap)
    (cpuClk strap).toNat / ahbRatio .g4 strap
  | .g5 =>
    let strap := regs (scuBase + scuClkStrap)
    hclkHertz (clkin strap) (ast2500HPllReg (regs (scuBase + ast2500ScuHPll))) (ahbRatio .g5 strap)
  | .g6 =>
    let strap := regs (scuBase + ast2600ScuHwStrap1)
    hclkHertz 25 (ast2600HPllReg (regs (scuBase + ast2600ScuHPll))) (ahbRatio .g6 strap)

/-- Nothing is left undefined, a rate is right to within a hertz, and `ast_ahb_freq` does not become an error. -/
structure RateRight (gen : AstGeneration) (s : Faulty Regs) (astAhbFreq : Word) : Prop where
  defined : ∀ e s', (clkGetRate (strapBus gen) gen .ahb).run s = .error e s' → ∃ n, e = .rc n
  hertz : ∀ rate s', (clkGetRate (strapBus gen) gen .ahb).run s = .ok rate s' → |(rate : ℚ) - ahbHertz s.dev gen| < 1
  cached : ∀ e s' freq s'', (clkGetRate (strapBus gen) gen .ahb).run s = .error e s' →
    (ast2500GetAhbFreq (strapBus gen) gen astAhbFreq).run s = .ok freq s'' → freq = astAhbFreq

/-- The registers can be read, and a ratio is selected. -/
def RateKnown (gen : AstGeneration) (s : Faulty Regs) : Prop :=
  match gen with
  | .g4 => s.Clear 1
  | .g5 => s.Clear 2 ∧ (s.dev (scuBase + scuClkStrap)).extractLsb' 9 3 ≠ 0
  | .g6 => s.Clear 2 ∧ (s.dev (scuBase + ast2600ScuHwStrap1)).extractLsb' 11 2 ≠ 0

section
variable {σ : Type} {gen : AstGeneration} {s : Faulty Regs} {regs : Regs}

theorem hPllOf_eq {clkin : Nat} (low : clkin ≤ 25) (reg : HPllReg) :
    (hPllOf clkin reg : Prog σ Word) = pure (BitVec.ofNat 32 (clkin * (reg.m + 1) / (reg.n + 1) / (reg.p + 1))) := by
  have m := reg.mBound
  have n := reg.nBound
  have p := reg.pBound
  have product : clkin * (reg.m + 1) < 2 ^ 31 := by
    have := Nat.mul_le_mul low (by omega : reg.m + 1 ≤ 8192)
    omega
  have first : clkin * (reg.m + 1) / (reg.n + 1) < 2 ^ 31 := Nat.lt_of_le_of_lt (Nat.div_le_self _ _) product
  rw [hPllOf, CInt.add_one_nat (by omega), pure_bind, CInt.mul_nat product, pure_bind, CInt.add_one_nat (by omega), pure_bind,
    CInt.div_nat product (by omega), pure_bind, CInt.add_one_nat (by omega), pure_bind, CInt.div_nat first (by omega),
    pure_bind, BitVec.ofInt_natCast]

theorem hclkOf_eq {hPll ratio : Word} (some : ratio ≠ 0) :
    (hclkOf hPll ratio : Prog σ Int) = pure ((hPll.toNat / 2 / ratio.toNat : Nat) : Int) := by
  rw [hclkOf, CInt.udiv_pos (by decide), pure_bind, CInt.udiv_pos some, pure_bind, BitVec.toNat_udiv, BitVec.toNat_udiv]
  rfl

theorem field_toNat (strap mask : Word) {shift bits : Nat} (small : bits ≤ 32)
    (field : mask >>> shift = BitVec.ofNat 32 (2 ^ bits - 1)) :
    ((strap &&& mask) >>> shift).toNat = (strap.extractLsb' shift bits).toNat := by
  rw [BitVec.ushiftRight_and_distrib, field, BitVec.and_mask_toNat _ small, BitVec.toNat_ushiftRight,
    BitVec.extractLsb'_toNat]

theorem scuReadl_takes (gen : AstGeneration) (reg : Word) (regs : Regs) :
    Faulty.Takes (fun _ => True) regs (scuReadl (strapBus gen) reg) 1 (regs (scuBase + reg)) regs :=
  Faulty.Takes.access _ trivial

/-- What the two reads come to. -/
theorem reads_run (gen : AstGeneration) (strapReg hPllReg : Word) (f : Word → Word → Prog (Faulty Regs) Int)
    (s : Faulty Regs) :
    (s.Clear 2 → (scuReadl (strapBus gen) strapReg >>= fun strap => scuReadl (strapBus gen) hPllReg >>= f strap).run s =
      (f (s.dev (scuBase + strapReg)) (s.dev (scuBase + hPllReg))).run (s.after 2 s.dev)) ∧
    (¬ s.Clear 2 → ∃ e s', (scuReadl (strapBus gen) strapReg >>= fun strap =>
      scuReadl (strapBus gen) hPllReg >>= f strap).run s = .error (.rc e) s') := by
  have takes := (scuReadl_takes gen strapReg s.dev).bind (f := fun strap =>
    scuReadl (strapBus gen) hPllReg >>= fun hPll => pure (strap, hPll))
    ((scuReadl_takes gen hPllReg s.dev).bind (f := fun hPll => pure (s.dev (scuBase + strapReg), hPll)) (Faulty.Takes.pure _))
  have run := takes.bind_run rfl fun both => f both.1 both.2
  simp only [bind_assoc, pure_bind] at run
  exact run

theorem ratio_eq_zero_iff {strap mask : Word} {shift bits : Nat} (small : bits ≤ 32)
    (field : mask >>> shift = BitVec.ofNat 32 (2 ^ bits - 1)) :
    (strap &&& mask) >>> shift = 0 ↔ strap.extractLsb' shift bits = 0 := by
  have same := @field_toNat strap mask shift bits small field
  constructor
  · intro none
    rw [none] at same
    exact BitVec.eq_of_toNat_eq same.symm
  · intro none
    rw [none] at same
    exact BitVec.eq_of_toNat_eq (same.trans rfl)

/-- The ratio that the register holds, counted from one. -/
theorem ratio_succ {strap mask : Word} {shift bits : Nat} (small : bits ≤ 31)
    (field : mask >>> shift = BitVec.ofNat 32 (2 ^ bits - 1)) :
    ((strap &&& mask) >>> shift + 1).toNat = (strap.extractLsb' shift bits).toNat + 1 := by
  have same := @field_toNat strap mask shift bits (by omega) field
  have bound := (strap.extractLsb' shift bits).isLt
  have wide : 2 ^ bits ≤ 2 ^ 31 := Nat.pow_le_pow_right (by decide) small
  rw [BitVec.toNat_add, same, show (1 : Word).toNat = 1 from rfl, Nat.mod_eq_of_lt (by omega)]

/-- What the two later generations return. -/
def hclkMhz (clkin : Nat) (reg : HPllReg) (ratio : Nat) : Nat := clkin * (reg.m + 1) / (reg.n + 1) / (reg.p + 1) / 2 / ratio

theorem hclkOf_hPll {clkin : Nat} (low : clkin ≤ 25) (reg : HPllReg) {ratio : Word} (some : ratio ≠ 0) :
    (hclkOf (BitVec.ofNat 32 (clkin * (reg.m + 1) / (reg.n + 1) / (reg.p + 1))) ratio : Prog σ Int) =
      pure (hclkMhz clkin reg ratio.toNat : Int) := by
  have m := reg.mBound
  have product : clkin * (reg.m + 1) ≤ 25 * 8192 := Nat.mul_le_mul low (by omega)
  have first : clkin * (reg.m + 1) / (reg.n + 1) ≤ clkin * (reg.m + 1) := Nat.div_le_self _ _
  have second : clkin * (reg.m + 1) / (reg.n + 1) / (reg.p + 1) ≤ clkin * (reg.m + 1) / (reg.n + 1) := Nat.div_le_self _ _
  rw [hclkOf_eq some, BitVec.toNat_ofNat, Nat.mod_eq_of_lt (by omega), hclkMhz]

/-- What is returned once the registers are read. -/
def ahbRate (gen : AstGeneration) (regs : Regs) : Nat :=
  match gen with
  | .g4 =>
    let strap := regs (scuBase + scuClkStrap)
    (cpuClk strap).toNat / ahbRatio .g4 strap
  | .g5 =>
    let strap := regs (scuBase + scuClkStrap)
    hclkMhz (clkin strap) (ast2500HPllReg (regs (scuBase + ast2500ScuHPll))) (ahbRatio .g5 strap)
  | .g6 =>
    let strap := regs (scuBase + ast2600ScuHwStrap1)
    hclkMhz 25 (ast2600HPllReg (regs (scuBase + ast2600ScuHPll))) (ahbRatio .g6 strap)

theorem clkin_le (strap : Word) : clkin strap ≤ 25 := by
  rw [clkin]
  split
  · exact Nat.le_refl _
  · decide

/-- What a run that needs `known` comes to. -/
def RateRuns (known : Prop) (m : Prog (Faulty Regs) Int) (s : Faulty Regs) (rate : Nat) : Prop :=
  (known → ∃ s', m.run s = .ok (rate : Int) s') ∧ (¬ known → ∃ e s', m.run s = .error (.rc e) s')

theorem ast2400_rate_run (s : Faulty Regs) : RateRuns (RateKnown .g4 s) (ast2400ClkRateAhb (strapBus .g4)) s (ahbRate .g4 s.dev) := by
  have run := (scuReadl_takes .g4 scuClkStrap s.dev).bind_run rfl fun strap => (do
    let rate ← CInt.udiv (cpuClk strap) (ahbDiv (strap.extractLsb' 10 2).toFin)
    return rate.toNat : Prog (Faulty Regs) Int)
  have some (i : Fin 4) : ahbDiv i ≠ 0 := by
    revert i
    decide
  refine ⟨fun clear => ⟨s.after 1 s.dev, (run.1 clear).trans ?_⟩, run.2⟩
  rw [CInt.udiv_pos (some _), pure_bind, BitVec.toNat_udiv]
  rfl

/-- Both later generations take the ratio from a field of the strap register, and the H-PLL from its own. -/
theorem hclk_rate_run (gen : AstGeneration) (strapReg hPllReg mask : Word) {shift bits : Nat} (small : bits ≤ 31)
    (field : mask >>> shift = BitVec.ofNat 32 (2 ^ bits - 1)) {clk : Word → Nat} (low : ∀ strap, clk strap ≤ 25)
    (layout : Word → HPllReg) {scaled : Word → Word → Word} {ratio : Word → Nat} (some : ∀ strap, ratio strap ≠ 0)
    (right : ∀ strap, (scaled strap ((strap &&& mask) >>> shift)).toNat = ratio strap) (s : Faulty Regs) :
    RateRuns (s.Clear 2 ∧ (s.dev (scuBase + strapReg)).extractLsb' shift bits ≠ 0) (do
      let strap ← scuReadl (strapBus gen) strapReg
      let pll ← scuReadl (strapBus gen) hPllReg
      let hPll ← hPllOf (clk strap) (layout pll)
      if (strap &&& mask) >>> shift = 0 then Prog.fail einval
      else hclkOf hPll (scaled strap ((strap &&& mask) >>> shift))) s
      (hclkMhz (clk (s.dev (scuBase + strapReg))) (layout (s.dev (scuBase + hPllReg))) (ratio (s.dev (scuBase + strapReg)))) := by
  have body (strap pll : Word) : (do
      let hPll ← hPllOf (clk strap) (layout pll)
      if (strap &&& mask) >>> shift = 0 then Prog.fail einval
      else hclkOf hPll (scaled strap ((strap &&& mask) >>> shift)) : Prog (Faulty Regs) Int) =
      if strap.extractLsb' shift bits = 0 then Prog.fail einval
      else pure (hclkMhz (clk strap) (layout pll) (ratio strap) : Int) := by
    have more : scaled strap ((strap &&& mask) >>> shift) ≠ 0 := fun zero => by
      have same := right strap
      rw [zero] at same
      exact some strap same.symm
    rw [hPllOf_eq (low strap), pure_bind, hclkOf_hPll (low strap) _ more, right]
    simp only [ratio_eq_zero_iff (by omega : bits ≤ 32) field]
  simp only [body]
  have run := reads_run gen strapReg hPllReg (fun strap pll => if strap.extractLsb' shift bits = 0 then Prog.fail einval
    else pure (hclkMhz (clk strap) (layout pll) (ratio strap) : Int)) s
  by_cases clear : s.Clear 2
  · by_cases none : (s.dev (scuBase + strapReg)).extractLsb' shift bits = 0
    · refine ⟨fun known => absurd none known.2, fun _ => ⟨einval, s.after 2 s.dev, (run.1 clear).trans ?_⟩⟩
      rw [if_pos none]
      rfl
    · refine ⟨fun _ => ⟨s.after 2 s.dev, (run.1 clear).trans ?_⟩, fun unknown => absurd ⟨clear, none⟩ unknown⟩
      rw [if_neg none]
      rfl
  · exact ⟨fun known => absurd known.1 clear, fun _ => run.2 clear⟩

theorem ast2500_rate_run (s : Faulty Regs) : RateRuns (RateKnown .g5 s) (ast2500ClkRateAhb (strapBus .g5)) s (ahbRate .g5 s.dev) :=
  @hclk_rate_run .g5 scuClkStrap ast2500ScuHPll scuHwStrapAxiClkFreqRatioMask 9 3 (by decide) (by decide) clkin clkin_le
    ast2500HPllReg (fun _ ratio => ratio + 1) (ahbRatio .g5) (fun _ => Nat.succ_ne_zero _)
    (fun _ => ratio_succ (by decide) (by decide)) s

theorem ast2600_rate_run (s : Faulty Regs) : RateRuns (RateKnown .g6 s) (ast2600ClkRateAhb (strapBus .g6)) s (ahbRate .g6 s.dev) := by
  refine @hclk_rate_run .g6 ast2600ScuHwStrap1 ast2600ScuHPll ast2600ScuHwStrap1AhbFreqRatioMask 11 2 (by decide) (by decide)
    (fun _ => 25) (fun _ => Nat.le_refl _) ast2600HPllReg
    (fun strap ratio => if strap &&& ast2600ScuHwStrap1CpuAxiRatio ≠ 0 then (ratio + 1) * 2 else ratio + 1) (ahbRatio .g6)
    (fun strap => ?_) (fun strap => ?_) s
  · rw [ahbRatio]
    split
    · omega
    · omega
  · have one := @ratio_succ strap ast2600ScuHwStrap1AhbFreqRatioMask 11 2 (by decide) (by decide)
    have bound := (strap.extractLsb' 11 2).isLt
    rw [ahbRatio]
    by_cases axi : strap &&& ast2600ScuHwStrap1CpuAxiRatio ≠ 0
    · rw [if_pos axi, if_pos axi, BitVec.toNat_mul, one, show (2 : Word).toNat = 2 from rfl, Nat.mod_eq_of_lt (by omega)]
    · rw [if_neg axi, if_neg axi, one, Nat.mul_one]

theorem clkGetRate_run (gen : AstGeneration) (s : Faulty Regs) :
    RateRuns (RateKnown gen s) (clkGetRate (strapBus gen) gen .ahb) s (ahbRate gen s.dev) := by
  rw [clkGetRate, if_neg (by decide)]
  cases gen with
  | g4 => exact ast2400_rate_run s
  | g5 => exact ast2500_rate_run s
  | g6 => exact ast2600_rate_run s

/-- A quotient of natural numbers is the exact one but for less than one. -/
theorem cast_div_near {a b : Nat} : |((a / b : Nat) : ℚ) - a / b| < 1 := by
  have low : ((a / b : Nat) : ℚ) ≤ a / b := Nat.cast_div_le
  have high : (a : ℚ) / b < (a / b : Nat) + 1 := by
    rw [← Nat.floor_div_eq_div (K := ℚ)]
    exact Nat.lt_floor_add_one _
  rw [abs_sub_lt_iff]
  constructor
  · linarith
  · linarith

theorem ahbRatio_pos (gen : AstGeneration) (strap : Word) : 0 < ahbRatio gen strap := by
  cases gen with
  | g4 =>
    have some (i : Fin 4) : 0 < (ahbDiv i).toNat := by
      revert i
      decide
    exact some _
  | g5 => exact Nat.succ_pos _
  | g6 =>
    rw [ahbRatio]
    split
    · omega
    · omega

theorem ahbRatio_le (gen : AstGeneration) (strap : Word) : ahbRatio gen strap ≤ 8 := by
  cases gen with
  | g4 =>
    have few (i : Fin 4) : (ahbDiv i).toNat ≤ 8 := by
      revert i
      decide
    exact few _
  | g5 =>
    have bound := (strap.extractLsb' 9 3).isLt
    rw [ahbRatio]
    omega
  | g6 =>
    have bound := (strap.extractLsb' 11 2).isLt
    rw [ahbRatio]
    split
    · omega
    · omega

/-- A frequency in megahertz is not one in hertz. -/
theorem hclkMhz_far {clkin ratio : Nat} (fast : 24 ≤ clkin) (reg : HPllReg) (pos : 0 < ratio) (low : ratio ≤ 8) :
    ¬ |(hclkMhz clkin reg ratio : ℚ) - hclkHertz clkin reg ratio| < 1 := by
  have n := reg.nBound
  have p := reg.pBound
  let cut : Nat := (reg.n + 1) * (reg.p + 1) * 2 * ratio
  let exact' : ℚ := clkin * (reg.m + 1) / cut
  have whole : hclkMhz clkin reg ratio = clkin * (reg.m + 1) / cut := by
    simp only [hclkMhz, Nat.div_div_eq_div_mul, cut, Nat.mul_assoc]
  have hertz : hclkHertz clkin reg ratio = 1000000 * exact' := by
    simp only [hclkHertz, exact', cut, Nat.cast_mul, Nat.cast_add, Nat.cast_one, Nat.cast_ofNat]
    field_simp
  have below : (hclkMhz clkin reg ratio : ℚ) ≤ exact' := by
    have le : ((clkin * (reg.m + 1) / cut : Nat) : ℚ) ≤ (clkin * (reg.m + 1) : Nat) / cut := Nat.cast_div_le
    rw [whole]
    simpa [exact'] using le
  have divisor : cut ≤ 64 * 64 * 2 * 8 :=
    Nat.mul_le_mul (Nat.mul_le_mul_right 2 (Nat.mul_le_mul (by omega) (by omega))) low
  have some : 0 < cut := by positivity
  have large : (24 : ℚ) / (64 * 64 * 2 * 8) ≤ exact' := by
    have top : (24 : ℚ) ≤ clkin * (reg.m + 1) := by
      have : 24 * 1 ≤ clkin * (reg.m + 1) := Nat.mul_le_mul fast (Nat.succ_pos _)
      exact_mod_cast this
    have bottom : (cut : ℚ) ≤ 64 * 64 * 2 * 8 := by exact_mod_cast divisor
    exact div_le_div₀ (by positivity) top (by exact_mod_cast some) bottom
  rw [hertz, abs_sub_lt_iff]
  rintro ⟨_, near⟩
  norm_num at large
  linarith

/-- What an error leaves in an unsigned value is not 0. -/
theorem errno_word_ne_zero (e : Errno) : BitVec.ofInt 32 e.code ≠ 0 := by
  intro zero
  have value := congrArg BitVec.toNat zero
  have pos := e.pos
  have bound := e.bound
  rw [BitVec.toNat_ofInt, Errno.code, show (0 : Word).toNat = 0 from rfl] at value
  omega

theorem ahbRate_hertz_iff (gen : AstGeneration) (regs : Regs) : |(ahbRate gen regs : ℚ) - ahbHertz regs gen| < 1 ↔ gen = .g4 := by
  have fast (strap : Word) : 24 ≤ clkin strap := by
    rw [clkin]
    split
    · decide
    · decide
  cases gen with
  | g4 => exact iff_of_true cast_div_near rfl
  | g5 => exact iff_of_false (hclkMhz_far (fast _) _ (ahbRatio_pos .g5 _) (ahbRatio_le .g5 _)) (by decide)
  | g6 => exact iff_of_false (hclkMhz_far (by decide) _ (ahbRatio_pos .g6 _) (ahbRatio_le .g6 _)) (by decide)

/-- What becomes of an error that is stored. -/
theorem ast2500GetAhbFreq_error {gen : AstGeneration} {s s' : Faulty Regs} {e : Errno}
    (run : (clkGetRate (strapBus gen) gen .ahb).run s = .error (.rc e) s') (astAhbFreq : Word) :
    ∃ s'', (ast2500GetAhbFreq (strapBus gen) gen astAhbFreq).run s =
      .ok (if astAhbFreq ≠ 0 then astAhbFreq else BitVec.ofInt 32 e.code) s'' := by
  rw [ast2500GetAhbFreq]
  by_cases cached : astAhbFreq ≠ 0
  · rw [if_pos cached, if_pos cached]
    exact ⟨s, rfl⟩
  · rw [if_neg cached, if_neg cached, run_bind_ok (attempt_rc run)]
    exact ⟨s', rfl⟩

end

/-- A rate that is known is right on the AST2400 only, where it is in hertz and not in megahertz; one that is not
known does no harm where a frequency is cached. -/
theorem rateRight_iff (gen : AstGeneration) (s : Faulty Regs) (astAhbFreq : Word) :
    RateRight gen s astAhbFreq ↔ (RateKnown gen s → gen = .g4) ∧ (¬ RateKnown gen s → astAhbFreq ≠ 0) := by
  obtain ⟨known, unknown⟩ := clkGetRate_run gen s
  by_cases here : RateKnown gen s
  · obtain ⟨s', run⟩ := known here
    constructor
    · intro right
      exact ⟨fun _ => (ahbRate_hertz_iff gen s.dev).mp (by exact_mod_cast right.hertz _ s' run), fun none => absurd here none⟩
    · rintro ⟨early, _⟩
      refine ⟨fun e s₁ failed => ?_, fun rate s₁ ok => ?_, fun e s₁ _ _ failed => ?_⟩
      · rw [run] at failed
        cases failed
      · rw [run] at ok
        cases ok
        exact_mod_cast (ahbRate_hertz_iff gen s.dev).mpr (early here)
      · rw [run] at failed
        cases failed
  · obtain ⟨e, s', run⟩ := unknown here
    obtain ⟨s'', stored⟩ := ast2500GetAhbFreq_error run astAhbFreq
    constructor
    · intro right
      refine ⟨fun known => absurd known here, fun _ empty => ?_⟩
      have kept := right.cached _ _ _ _ run stored
      rw [if_neg (not_not.mpr empty), empty] at kept
      exact errno_word_ne_zero e kept
    · rintro ⟨_, cached⟩
      refine ⟨fun e' s₁ failed => ?_, fun rate s₁ ok => ?_, fun e' s₁ freq s₂ _ getting => ?_⟩
      · rw [run] at failed
        cases failed
        exact ⟨e, rfl⟩
      · rw [run] at ok
        cases ok
      · rw [stored, if_pos (cached here)] at getting
        cases getting
        rfl

/-- An AST2500 with CLKIN at 24 MHz, the H-PLL at 792 MHz and a ratio of 2: 198 MHz. -/
def ast2500Usual : Faulty Regs where
  dev phys := if phys = scuBase + scuClkStrap then 0x200 else if phys = scuBase + ast2500ScuHPll then 0x400 else 0
  fails := fun _ => none
  accesses := 0

/-- An AST2500 as it usually runs. -/
theorem rate_megahertz : ¬ RateRight .g5 ast2500Usual 0 := by
  intro right
  have known : RateKnown .g5 ast2500Usual := ⟨fun _ _ => rfl, by decide⟩
  obtain ⟨s', run⟩ := (clkGetRate_run .g5 ast2500Usual).1 known
  have near := right.hertz _ s' run
  rw [Int.cast_natCast, ahbRate_hertz_iff] at near
  cases near

end Culvert
