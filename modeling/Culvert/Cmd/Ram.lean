import Culvert.Soc.Sdmc

namespace Culvert

/-- How wide `unsigned long`, `size_t` and `ssize_t` are on the host. -/
inductive UnsignedLong where
  | w32
  | w64
  deriving DecidableEq, Repr

namespace UnsignedLong

def bits : UnsignedLong → Nat
  | w32 => 32
  | w64 => 64

abbrev Val (w : UnsignedLong) : Type := BitVec w.bits

def uint32Max (w : UnsignedLong) : w.Val := BitVec.ofNat _ (2 ^ 32 - 1)

/-- `SSIZE_MAX` -/
def ssizeMax (w : UnsignedLong) : w.Val := BitVec.ofNat _ (2 ^ (w.bits - 1) - 1)

/-- The conversion of a `uint32_t`. -/
def ofWord (w : UnsignedLong) (val : Word) : w.Val := val.setWidth _

end UnsignedLong

/-- The region a command took from its arguments, as numbers that `parse_mem_arg` accepts. -/
structure MemArgs (w : UnsignedLong) where
  memBase : w.Val
  memSize : w.Val
  base_le : memBase.toNat ≤ 2 ^ 32 - 1
  size_le : memSize.toNat ≤ 2 ^ 32 - 1

def exitFailure : Int := 1

/-- What a command hands to the siphon, or the status with which it turns the request down. -/
abbrev RamVerdict (w : UnsignedLong) := Except Int (w.Val × w.Val)

section
variable {σ : Type} (bus : Bus σ) (gen : AstGeneration) {w : UnsignedLong} (arguments : MemArgs w)

/-- Whether the region sticks out of the DRAM, as the three commands have it. -/
def illFormed (dram : SocRegion) : Bool :=
  arguments.memBase < w.ofWord dram.start ∨
    arguments.memBase + arguments.memSize > w.ofWord (dram.start + dram.length)

/-- `cmd_write_ram` once the controller is acquired. -/
def cmdWriteRam : Prog (Faulty σ) (RamVerdict w) := do
  let dram ← sdmcGetDram bus gen
  if illFormed arguments dram then return .error einval.code
  if w.uint32Max > w.ssizeMax ∧ w.ssizeMax < arguments.memSize then return .error einval.code
  return .ok (arguments.memBase, arguments.memSize)

/-- `cmd_read_ram` -/
def cmdReadRam : Prog (Faulty σ) (RamVerdict w) := do
  if w.uint32Max - arguments.memSize < arguments.memBase then return .error einval.code
  let dram ← sdmcGetDram bus gen
  if arguments.memBase ≠ 0 ∧ arguments.memSize ≠ 0 then
    if illFormed arguments dram then return .error einval.code
    return .ok (arguments.memBase, arguments.memSize)
  let vram ← sdmcGetVram bus gen
  return .ok (w.ofWord dram.start, w.ofWord (dram.length - vram.length))

/-- `cmd_coprocessor_run` up to the SCU. -/
def cmdCoprocessorRun : Prog (Faulty σ) (RamVerdict w) := do
  if gen ≠ .g6 then return .error exitFailure
  match ← Prog.attempt (sdmcGetDram bus gen) with
  | .error _ => return .error exitFailure
  | .ok dram =>
    if arguments.memBase > w.uint32Max then return .error exitFailure
    if (arguments.memBase + arguments.memSize) &&& w.uint32Max < arguments.memBase then return .error exitFailure
    if illFormed arguments dram then return .error exitFailure
    return .ok (arguments.memBase, arguments.memSize)

end

/-! What the commands make of a region, in numbers. -/

section
variable {gen : AstGeneration} {w : UnsignedLong} {arguments : MemArgs w} {dram : SocRegion}

theorem UnsignedLong.toNat_ofWord (val : Word) : (w.ofWord val).toNat = val.toNat := by
  have small := val.isLt
  have wide : 2 ^ 32 ≤ 2 ^ w.bits := Nat.pow_le_pow_right (by decide) (by cases w <;> decide)
  rw [ofWord, BitVec.toNat_setWidth]
  exact Nat.mod_eq_of_lt (Nat.lt_of_lt_of_le small wide)

theorem UnsignedLong.toNat_uint32Max : w.uint32Max.toNat = 2 ^ 32 - 1 := by
  cases w <;> rfl

theorem not_illFormed_iff : illFormed arguments dram = false ↔ dram.start.toNat ≤ arguments.memBase.toNat ∧
    (arguments.memBase.toNat + arguments.memSize.toNat) % 2 ^ w.bits ≤
      (dram.start.toNat + dram.length.toNat) % 2 ^ 32 := by
  simp only [illFormed, decide_eq_false_iff_not, not_or, BitVec.lt_def, gt_iff_lt, BitVec.toNat_add,
    UnsignedLong.toNat_ofWord, Nat.not_lt]

/-- The sum of the two arguments wraps on a 32-bit host alone. -/
theorem memSum_mod : (arguments.memBase.toNat + arguments.memSize.toNat) % 2 ^ w.bits =
    if w = .w32 then (arguments.memBase.toNat + arguments.memSize.toNat) % 2 ^ 32
    else arguments.memBase.toNat + arguments.memSize.toNat := by
  have base := arguments.base_le
  have size := arguments.size_le
  cases w with
  | w32 => rfl
  | w64 =>
    rw [if_neg (by decide)]
    have small : arguments.memBase.toNat + arguments.memSize.toNat < 2 ^ 64 := by omega
    exact Nat.mod_eq_of_lt small

theorem ssizeMax_lt_iff : (w.uint32Max > w.ssizeMax ∧ w.ssizeMax < arguments.memSize) ↔
    w = .w32 ∧ 2 ^ 31 ≤ arguments.memSize.toNat := by
  cases w with
  | w32 =>
    have limit : (UnsignedLong.ssizeMax .w32).toNat = 2 ^ 31 - 1 := rfl
    have above : UnsignedLong.uint32Max .w32 > UnsignedLong.ssizeMax .w32 := by decide
    simp only [above, true_and, BitVec.lt_def, limit]
    omega
  | w64 =>
    have below : ¬ UnsignedLong.uint32Max .w64 > UnsignedLong.ssizeMax .w64 := by decide
    simp only [below, false_and, reduceCtorEq]

theorem size_guard_iff : w.uint32Max - arguments.memSize < arguments.memBase ↔
    2 ^ 32 ≤ arguments.memBase.toNat + arguments.memSize.toNat := by
  have size := arguments.size_le
  have le : arguments.memSize ≤ w.uint32Max := by
    rw [BitVec.le_def, UnsignedLong.toNat_uint32Max]
    exact size
  rw [BitVec.lt_def, BitVec.toNat_sub_of_le le, UnsignedLong.toNat_uint32Max]
  omega

theorem sum_guard_iff : (arguments.memBase + arguments.memSize) &&& w.uint32Max < arguments.memBase ↔
    2 ^ 32 ≤ arguments.memBase.toNat + arguments.memSize.toNat := by
  have base := arguments.base_le
  have size := arguments.size_le
  rw [BitVec.lt_def, BitVec.toNat_and, UnsignedLong.toNat_uint32Max, Nat.and_two_pow_sub_one_eq_mod,
    BitVec.toNat_add, memSum_mod]
  split <;> omega

theorem base_guard : ¬ arguments.memBase > w.uint32Max := by
  have base := arguments.base_le
  rw [gt_iff_lt, BitVec.lt_def, UnsignedLong.toNat_uint32Max]
  omega

end

/-- The commands that take a region of the RAM. -/
inductive RamCommand where
  | write
  | read
  | coprocessorRun
  deriving DecidableEq, Repr

namespace RamCommand

def run {σ : Type} (bus : Bus σ) (gen : AstGeneration) {w : UnsignedLong} (arguments : MemArgs w) :
    RamCommand → Prog (Faulty σ) (RamVerdict w)
  | write => cmdWriteRam bus gen arguments
  | read => cmdReadRam bus gen arguments
  | coprocessorRun => cmdCoprocessorRun bus gen arguments

/-- The SSP is one of the AST2600, and a read without a region takes all of the RAM. -/
def Applies {w : UnsignedLong} (gen : AstGeneration) (arguments : MemArgs w) : RamCommand → Prop
  | write => True
  | read => arguments.memBase.toNat ≠ 0 ∧ arguments.memSize.toNat ≠ 0
  | coprocessorRun => gen = .g6

/-- The command goes on to the siphon with its own arguments. -/
def Accepts {w : UnsignedLong} (gen : AstGeneration) (arguments : MemArgs w) (cmd : RamCommand) (s : Faulty Regs) :
    Prop := ∃ s', (cmd.run regBus gen arguments).run s = .ok (.ok (arguments.memBase, arguments.memSize)) s'

end RamCommand

section
variable {gen : AstGeneration} {w : UnsignedLong} {arguments : MemArgs w} {s : Faulty Regs}

/-- The region that `sdmc_get_dram` finds. -/
def dramOf (gen : AstGeneration) (regs : Regs) : SocRegion :=
  sdmcDramRegion gen (regs ((sdmc gen).iomem + mcrConfig))

theorem sdmcGetDram_observes : Faulty.Observes (sdmcGetDram regBus gen) (dramOf gen) :=
  (socReadl_observes _).bind fun mcrConf => .pure (sdmcDramRegion gen mcrConf)

theorem write_accepts_iff (sound : s.Sound) : RamCommand.write.Accepts gen arguments s ↔
    illFormed arguments (dramOf gen s.dev) = false ∧ ¬ (w = .w32 ∧ 2 ^ 31 ≤ arguments.memSize.toNat) := by
  rw [← ssizeMax_lt_iff]
  obtain ⟨s₁, found, _⟩ := sdmcGetDram_observes.yields s.dev s sound rfl
  rw [RamCommand.Accepts, RamCommand.run, cmdWriteRam, Prog.run_bind_ok found]
  cases outside : illFormed arguments (dramOf gen s.dev) with
  | true => simp
  | false =>
    by_cases long : w.uint32Max > w.ssizeMax ∧ w.ssizeMax < arguments.memSize
    · simp [long]
    · simp [long]

theorem read_accepts_iff (sound : s.Sound) (applies : RamCommand.read.Applies gen arguments) :
    RamCommand.read.Accepts gen arguments s ↔ illFormed arguments (dramOf gen s.dev) = false ∧
      arguments.memBase.toNat + arguments.memSize.toNat < 2 ^ 32 := by
  rw [← Nat.not_le, ← size_guard_iff]
  obtain ⟨s₁, found, _⟩ := sdmcGetDram_observes.yields s.dev s sound rfl
  have region : arguments.memBase ≠ 0 ∧ arguments.memSize ≠ 0 :=
    ⟨fun zero => applies.1 (by rw [zero]; rfl), fun zero => applies.2 (by rw [zero]; rfl)⟩
  rw [RamCommand.Accepts, RamCommand.run, cmdReadRam]
  by_cases wraps : w.uint32Max - arguments.memSize < arguments.memBase
  · simp [wraps]
  · rw [if_neg wraps, Prog.run_bind_ok found, if_pos region]
    cases outside : illFormed arguments (dramOf gen s.dev) with
    | true => simp
    | false => simp [wraps]

theorem coprocessorRun_accepts_iff (sound : s.Sound) (applies : RamCommand.coprocessorRun.Applies gen arguments) :
    RamCommand.coprocessorRun.Accepts gen arguments s ↔ illFormed arguments (dramOf gen s.dev) = false ∧
      arguments.memBase.toNat + arguments.memSize.toNat < 2 ^ 32 := by
  rw [← Nat.not_le, ← sum_guard_iff]
  obtain rfl : gen = .g6 := applies
  obtain ⟨s₁, found, _⟩ := (sdmcGetDram_observes.yields s.dev).attempt s sound rfl
  rw [RamCommand.Accepts, RamCommand.run, cmdCoprocessorRun, if_neg (fun ne => ne rfl), Prog.run_bind_ok found]
  by_cases wraps : (arguments.memBase + arguments.memSize) &&& w.uint32Max < arguments.memBase
  · simp [base_guard, wraps]
  · cases outside : illFormed arguments (dramOf .g6 s.dev) with
    | true => simp [base_guard, wraps, outside]
    | false => simp [base_guard, wraps, outside]

/-- The DRAM starts above 0 and ends at `2 ^ 32` at the latest, which only its largest size reaches. -/
theorem dramOf_bounds (gen : AstGeneration) (regs : Regs) : 0 < (dramOf gen regs).start.toNat ∧
    (dramOf gen regs).start.toNat + (dramOf gen regs).length.toNat ≤ 2 ^ 32 ∧
    ((dramOf gen regs).start.toNat + (dramOf gen regs).length.toNat < 2 ^ 32 →
      (dramOf gen regs).length.toNat < 2 ^ 31) := by
  have index : (regs ((sdmc gen).iomem + mcrConfig) &&& 3).toNat < 4 := by
    rw [BitVec.toNat_and]
    exact Nat.lt_of_le_of_lt Nat.and_le_right (by decide)
  rw [dramOf, sdmcDramRegion]
  generalize (regs ((sdmc gen).iomem + mcrConfig) &&& 3).toNat = i at index
  have each : ∀ gen, ∀ i < 4, 0 < (dramStart gen).toNat ∧
      (dramStart gen).toNat + ((dramSizes gen).getD i 0).toNat ≤ 2 ^ 32 ∧
      ((dramStart gen).toNat + ((dramSizes gen).getD i 0).toNat < 2 ^ 32 →
        ((dramSizes gen).getD i 0).toNat < 2 ^ 31) := by
    rintro ⟨⟩ <;> decide
  exact each gen i index

end

/-- The request lies in the region, in unbounded arithmetic. -/
def MemArgs.Inside {w : UnsignedLong} (arguments : MemArgs w) (dram : SocRegion) : Prop :=
  dram.start.toNat ≤ arguments.memBase.toNat ∧
    arguments.memBase.toNat + arguments.memSize.toNat ≤ dram.start.toNat + dram.length.toNat

/-- A write on a 32-bit host, which lacks a guard against a request that wraps. -/
def RamCommand.Wrapping (cmd : RamCommand) (w : UnsignedLong) : Prop := cmd = .write ∧ w = .w32

/-- When the range check is the right one. -/
def RamCommand.Judges {w : UnsignedLong} (cmd : RamCommand) (arguments : MemArgs w) (dram : SocRegion) : Prop :=
  if dram.start.toNat + dram.length.toNat < 2 ^ 32 then
    ¬ (cmd.Wrapping w ∧ dram.start.toNat ≤ arguments.memBase.toNat ∧ arguments.memSize.toNat < 2 ^ 31 ∧
      2 ^ 32 ≤ arguments.memBase.toNat + arguments.memSize.toNat ∧
      arguments.memBase.toNat + arguments.memSize.toNat ≤ 2 ^ 32 + (dram.start.toNat + dram.length.toNat))
  else ¬ arguments.Inside dram ∨
    cmd.Wrapping w ∧ arguments.memSize.toNat < 2 ^ 31 ∧ arguments.memBase.toNat + arguments.memSize.toNat = 2 ^ 32

section
variable {gen : AstGeneration} {w : UnsignedLong} {arguments : MemArgs w} {s : Faulty Regs}

theorem write_judges_iff (sound : s.Sound) : (RamCommand.write.Accepts gen arguments s ↔
    arguments.Inside (dramOf gen s.dev)) ↔ RamCommand.write.Judges arguments (dramOf gen s.dev) := by
  obtain ⟨start, ends, short⟩ := dramOf_bounds gen s.dev
  have base := arguments.base_le
  have size := arguments.size_le
  rw [write_accepts_iff sound, not_illFormed_iff, memSum_mod, RamCommand.Judges, RamCommand.Wrapping, MemArgs.Inside]
  by_cases below : (dramOf gen s.dev).start.toNat + (dramOf gen s.dev).length.toNat < 2 ^ 32
  · rw [if_pos below, Nat.mod_eq_of_lt below]
    cases w with
    | w32 =>
      simp only [if_true, true_and, and_self]
      omega
    | w64 => simp [reduceCtorEq]
  · have whole : (dramOf gen s.dev).start.toNat + (dramOf gen s.dev).length.toNat = 2 ^ 32 := by omega
    rw [if_neg below, whole, Nat.mod_self]
    cases w with
    | w32 =>
      simp only [if_true, true_and, and_self]
      omega
    | w64 =>
      simp only [reduceCtorEq, if_false, false_and, and_false, or_false, not_false_eq_true, and_true]
      omega

/-- The two commands that turn a request down which reaches `2 ^ 32`. -/
theorem guarded_judges_iff {cmd : RamCommand} (guarded : ¬ cmd.Wrapping w)
    (accepts : cmd.Accepts gen arguments s ↔ illFormed arguments (dramOf gen s.dev) = false ∧
      arguments.memBase.toNat + arguments.memSize.toNat < 2 ^ 32) :
    (cmd.Accepts gen arguments s ↔ arguments.Inside (dramOf gen s.dev)) ↔
      cmd.Judges arguments (dramOf gen s.dev) := by
  obtain ⟨start, ends, short⟩ := dramOf_bounds gen s.dev
  rw [accepts, not_illFormed_iff, memSum_mod, RamCommand.Judges, MemArgs.Inside]
  simp only [guarded, false_and, not_false_eq_true, or_false]
  by_cases below : (dramOf gen s.dev).start.toNat + (dramOf gen s.dev).length.toNat < 2 ^ 32
  · rw [if_pos below, Nat.mod_eq_of_lt below, iff_true]
    split <;> omega
  · have whole : (dramOf gen s.dev).start.toNat + (dramOf gen s.dev).length.toNat = 2 ^ 32 := by omega
    rw [if_neg below, whole, Nat.mod_self]
    split <;> omega

end

/-- Without failing accesses, the range check of each command lets exactly the requests inside the DRAM
through when the DRAM ends below `2 ^ 32` and the command is not a write on a 32-bit host which wraps back
below that end, or when the DRAM ends at `2 ^ 32` and the request is outside, but for a short write on a
32-bit host which ends there too. -/
theorem ram_range_exact (cmd : RamCommand) (gen : AstGeneration) (w : UnsignedLong) (arguments : MemArgs w)
    (s : Faulty Regs) (sound : s.Sound) (applies : cmd.Applies gen arguments) :
    (cmd.Accepts gen arguments s ↔ arguments.Inside (dramOf gen s.dev)) ↔
      cmd.Judges arguments (dramOf gen s.dev) := by
  cases cmd with
  | write => exact write_judges_iff sound
  | read => exact guarded_judges_iff (fun wrapping => nomatch wrapping.1) (read_accepts_iff sound applies)
  | coprocessorRun =>
    exact guarded_judges_iff (fun wrapping => nomatch wrapping.1) (coprocessorRun_accepts_iff sound applies)

/-- A page of the RAM of an AST2500. -/
theorem ram_range_exact_read : RamCommand.read.Accepts .g5 (w := .w64) ⟨0x80000000, 0x1000, by decide, by decide⟩
    ⟨fun _ => 0, fun _ => none, 0⟩ := by
  have exact := ram_range_exact .read .g5 .w64 ⟨0x80000000, 0x1000, by decide, by decide⟩
    ⟨fun _ => 0, fun _ => none, 0⟩ (fun _ => rfl) ⟨by decide, by decide⟩
  have judges : RamCommand.read.Judges (w := .w64) ⟨0x80000000, 0x1000, by decide, by decide⟩
      (dramOf .g5 fun _ => 0) := by
    rw [RamCommand.Judges, if_pos (by decide)]
    exact fun wrapping => nomatch wrapping.1.1
  exact (exact.mpr judges).mpr ⟨by decide, by decide⟩

/-- Of the 2GiB of an AST2600 nothing can be written. -/
theorem ram_range_rejects_2gib : ¬ (RamCommand.write.Accepts .g6 (w := .w64) ⟨0x80000000, 0x1000, by decide, by decide⟩
    ⟨fun _ => 3, fun _ => none, 0⟩ ↔
      MemArgs.Inside (w := .w64) ⟨0x80000000, 0x1000, by decide, by decide⟩ (dramOf .g6 fun _ => 3)) := by
  intro claim
  have inside : MemArgs.Inside (w := .w64) ⟨0x80000000, 0x1000, by decide, by decide⟩ (dramOf .g6 fun _ => 3) :=
    ⟨by decide, by decide⟩
  have judges := (write_judges_iff fun _ => rfl).mp claim
  rw [RamCommand.Judges, if_neg (by decide)] at judges
  rcases judges with outside | wrapping
  · exact outside inside
  · exact nomatch wrapping.1.2

end Culvert
