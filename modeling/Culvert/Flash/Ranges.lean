import Culvert.Flash.SmartWrite

namespace Culvert

/-- What the range checks read of a chip that `flash_identify` has found. -/
structure FlashGeometry where
  info : FlashInfo
  tsize : Word
  minEraseMask : Word
  mode4b : Bool
  mask : flMinEraseMask info.flags = some minEraseMask

namespace FlashGeometry
variable (g : FlashGeometry)

/-- The chip behind a controller. -/
def behind {σ : Type} (ctrl : Sfc σ) : FlashChip σ := ⟨ctrl, g.info, g.tsize, g.minEraseMask, g.mode4b⟩

/-- There are controllers with which `f` does more than to return `-EINVAL`. -/
def GetsPast (f : (σ : Type) → FlashChip σ → Prog σ Unit) : Prop :=
  ∃ (σ : Type) (ctrl : Sfc σ), f σ (g.behind ctrl) ≠ Prog.fail einval

/-- A range of the chip that is not empty. -/
def Holds (dst size : Nat) : Prop := 0 < size ∧ dst + size ≤ g.tsize.toNat

/-- A multiple of the erase granule. -/
def Aligned (n : Nat) : Prop := n % (g.minEraseMask.toNat + 1) = 0

end FlashGeometry

/-- A controller that refuses every operation. -/
def sfcRefuses : Sfc Unit where
  setup := none
  set4b := none
  chipId := none
  directRead := none
  write := none
  erase := some fun _ _ => Prog.fail eopnotsupp
  rd := none
  wr := none
  finfo := none

section
variable {g : FlashGeometry} {f : (σ : Type) → FlashChip σ → Prog σ Unit} {c : Prop}

theorem refusal_ne_einval : (Prog.fail eopnotsupp : Prog Unit Unit) ≠ Prog.fail einval := by
  intro same
  have run := congrArg (fun m => EStateM.run m ()) same
  cases run

/-- What stops at a check, and elsewhere does what the controller lets it do. -/
theorem FlashGeometry.getsPast_iff (stops : c → ∀ (σ : Type) (ctrl : Sfc σ), f σ (g.behind ctrl) = Prog.fail einval)
    (goes : ¬ c → f Unit (g.behind sfcRefuses) = Prog.fail eopnotsupp) : g.GetsPast f ↔ ¬ c := by
  constructor
  · rintro ⟨σ, ctrl, past⟩ stop
    exact past (stops stop σ ctrl)
  · intro free
    refine ⟨Unit, sfcRefuses, fun same => ?_⟩
    rw [goes free] at same
    exact refusal_ne_einval same

theorem flashErase_getsPast (fuel : Nat) (dst size : Size) : g.GetsPast (fun _ c => flashErase c fuel dst size) ↔
    g.Holds dst.toNat size.toNat ∧ g.Aligned dst.toNat ∧ g.Aligned size.toNat := by
  obtain ⟨bits, op, granule⟩ := granule_of_mask g.mask
  have small : bits ≤ 16 := granule.small
  have less : 2 ^ bits ≤ 2 ^ 16 := Nat.pow_le_pow_right (by decide) small
  have pos : 0 < 2 ^ bits := Nat.two_pow_pos bits
  have mask : g.minEraseMask.toNat + 1 = 2 ^ bits := by
    rw [granule.mask, BitVec.toNat_ofNat, Nat.mod_eq_of_lt (by omega)]
    omega
  have wide : (g.minEraseMask.setWidth 64 : Size) = BitVec.ofNat 64 (2 ^ bits - 1) := by
    apply BitVec.eq_of_toNat_eq
    rw [BitVec.toNat_setWidth_of_le (by decide), BitVec.toNat_ofNat, Nat.mod_eq_of_lt (by omega)]
    omega
  have tsize : (g.tsize.setWidth 64 : Size).toNat = g.tsize.toNat := BitVec.toNat_setWidth_of_le (by decide)
  have range := BitVec.range_iff dst size (g.tsize.setWidth 64)
  have boundaries := @BitVec.or_and_mask_eq_zero_iff 64 dst size bits (by omega)
  rw [tsize] at range
  rw [← wide] at boundaries
  let outside := dst + size ≤ dst ∨ size = 0 ∨ dst + size > g.tsize.setWidth 64
  let across := (dst ||| size) &&& g.minEraseMask.setWidth 64 ≠ 0
  have past : g.GetsPast (fun _ c => flashErase c fuel dst size) ↔ ¬ (outside ∨ across) := by
    refine FlashGeometry.getsPast_iff (fun stop σ ctrl => ?_) fun free => ?_
    · rw [flashErase]
      split
      · rfl
      · rename_i inside
        exact if_pos (stop.resolve_left inside)
    · rw [not_or] at free
      exact (if_neg free.1).trans ((if_neg free.2).trans rfl)
  rw [past, not_or, FlashGeometry.Holds, FlashGeometry.Aligned, FlashGeometry.Aligned, mask]
  exact and_congr range (not_not.trans boundaries)

theorem flashWrite_getsPast (fuel : Nat) (dst : Word) {src : List Byte} (small : src.length < 2 ^ 32) (verify : Bool) :
    g.GetsPast (fun _ c => flashWrite c fuel dst src verify) ↔ g.Holds dst.toNat src.length := by
  have size : (BitVec.ofNat 32 src.length).toNat = src.length := by
    rw [BitVec.toNat_ofNat, Nat.mod_eq_of_lt small]
  have range := BitVec.range_iff dst (BitVec.ofNat 32 src.length) g.tsize
  rw [size] at range
  refine (FlashGeometry.getsPast_iff (fun stop σ ctrl => ?_) fun free => ?_).trans range
  · exact if_pos stop
  · exact (if_neg free).trans rfl

/-- Where `flash_smart_write` takes its range to end. -/
theorem smartStop_toNat (dst : Size) (n : Nat) :
    ((dst + BitVec.ofNat 64 n).setWidth 32 : Word).toNat = (dst.toNat + n) % 2 ^ 32 := by
  rw [BitVec.toNat_setWidth, BitVec.toNat_add, BitVec.toNat_ofNat]
  omega

/-- The range check of `flash_smart_write` looks at the low half of the end alone. -/
theorem flashSmartWrite_getsPast (fuel : Nat) (dst : Size) {src : List Byte} (small : src.length < 2 ^ 64) :
    g.GetsPast (fun _ c => flashSmartWrite c fuel dst src) ↔
      0 < src.length ∧ dst.toNat < (dst.toNat + src.length) % 2 ^ 32 ∧
        (dst.toNat + src.length) % 2 ^ 32 ≤ g.tsize.toNat := by
  have stop := smartStop_toNat dst src.length
  have none : BitVec.ofNat 64 src.length = 0 ↔ src.length = 0 := by
    rw [← BitVec.toNat_inj, BitVec.toNat_ofNat, Nat.mod_eq_of_lt small]
    rfl
  let last : Word := (dst + BitVec.ofNat 64 src.length).setWidth 32
  have wide : (last.setWidth 64 : Size).toNat = (dst.toNat + src.length) % 2 ^ 32 :=
    (BitVec.toNat_setWidth_of_le (by decide)).trans stop
  have past : g.GetsPast (fun _ c => flashSmartWrite c fuel dst src) ↔
      ¬ (last.setWidth 64 ≤ dst ∨ BitVec.ofNat 64 src.length = 0 ∨ last > g.tsize) := by
    refine FlashGeometry.getsPast_iff (fun stop σ ctrl => if_pos stop) fun free => (if_neg free).trans ?_
    have less : dst < last.setWidth 64 := BitVec.not_le.mp fun le => free (Or.inl le)
    rw [flashSmartWriteLoop, if_pos less]
    rfl
  rw [past, none, BitVec.le_def, gt_iff_lt, BitVec.lt_def, wide, stop]
  omega

/-- The range checks of the three functions let through what unbounded arithmetic does. -/
structure FlashGeometry.Ranged (g : FlashGeometry) (fuel : Nat) (eraseDst eraseSize : Size) (writeDst : Word)
    (writeSrc : List Byte) (verify : Bool) (smartDst : Size) (smartSrc : List Byte) : Prop where
  erase : g.GetsPast (fun _ c => flashErase c fuel eraseDst eraseSize) ↔
    g.Holds eraseDst.toNat eraseSize.toNat ∧ g.Aligned eraseDst.toNat ∧ g.Aligned eraseSize.toNat
  write : g.GetsPast (fun _ c => flashWrite c fuel writeDst writeSrc verify) ↔ g.Holds writeDst.toNat writeSrc.length
  smart : g.GetsPast (fun _ c => flashSmartWrite c fuel smartDst smartSrc) ↔ g.Holds smartDst.toNat smartSrc.length

/-- The end of a smart write of 4 GiB and more is cut to 32 bits: the check then goes wrong just where
what is left of it is in the chip, above the start. -/
theorem flash_ranges_iff (g : FlashGeometry) (fuel : Nat) (eraseDst eraseSize : Size) (writeDst : Word)
    (writeSrc : List Byte) (verify : Bool) (smartDst : Size) (smartSrc : List Byte) (write : writeSrc.length < 2 ^ 32)
    (smart : smartSrc.length < 2 ^ 64) :
    g.Ranged fuel eraseDst eraseSize writeDst writeSrc verify smartDst smartSrc ↔
      smartSrc.length < 2 ^ 32 ∨ (smartDst.toNat + smartSrc.length) % 2 ^ 32 ≤ smartDst.toNat ∨
        g.tsize.toNat < (smartDst.toNat + smartSrc.length) % 2 ^ 32 := by
  have bound := g.tsize.isLt
  have past := @flashSmartWrite_getsPast g fuel smartDst smartSrc smart
  constructor
  · intro ranged
    have agree := past.symm.trans ranged.smart
    rw [FlashGeometry.Holds] at agree
    omega
  · intro condition
    refine ⟨flashErase_getsPast fuel eraseDst eraseSize, flashWrite_getsPast fuel writeDst write verify, past.trans ?_⟩
    rw [FlashGeometry.Holds]
    omega

end

/-- What the first of the Macronix chips is found to be. -/
def macronixGeometry : FlashGeometry := ⟨macronix.info, macronix.tsize, macronix.minEraseMask, false, macronix.mask⟩

/-- A byte of a chip of 16 MiB. -/
theorem flash_ranges_byte : macronixGeometry.Ranged 0 0 0x1000 0x1234 [0x5a] true 0x1234 [0x5a] ↔
    1 < 2 ^ 32 ∨ 0x1235 ≤ 0x1234 ∨ 0x1000000 < 0x1235 :=
  flash_ranges_iff macronixGeometry 0 0 0x1000 0x1234 [0x5a] true 0x1234 [0x5a] (by decide) (by decide)

/-- A smart write of 4 GiB and a byte is let through: its end is cut to 1, and it would write one erase block. -/
theorem flash_ranges_cut : ¬ ∀ (g : FlashGeometry) (fuel : Nat) (eraseDst eraseSize : Size) (writeDst : Word)
    (writeSrc : List Byte) (verify : Bool) (smartDst : Size) (smartSrc : List Byte), writeSrc.length < 2 ^ 32 →
    smartSrc.length < 2 ^ 64 → g.Ranged fuel eraseDst eraseSize writeDst writeSrc verify smartDst smartSrc := by
  intro all
  have length : (List.replicate (2 ^ 32 + 1) (0 : Byte)).length = 2 ^ 32 + 1 := List.length_replicate
  have small : (List.replicate (2 ^ 32 + 1) (0 : Byte)).length < 2 ^ 64 := by rw [length]; decide
  have ranged := all macronixGeometry 0 0 0x1000 0 [0] false 0 _ (by decide) small
  have past := (@flashSmartWrite_getsPast macronixGeometry 0 0 _ small).mpr (by rw [length]; decide)
  have within := (ranged.smart.mp past).2
  rw [length] at within
  exact absurd within (by decide)

end Culvert
