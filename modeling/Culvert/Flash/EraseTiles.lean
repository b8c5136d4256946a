import Culvert.Flash.SmartWrite

/-! Which blocks `flash_erase` erases. -/

namespace Culvert

open NorChip

/-- The commands erase blocks that tile the addresses from `dst` to `stop`, in order: each of a size that the chip
has an opcode for, and aligned to it. -/
def Tiles (flags : Word) : Nat → Nat → List NorOp → Prop
  | dst, stop, [] => dst = stop
  | dst, stop, .erase op addr :: rest => ∃ size, blockSize flags op = some size ∧ addr.toNat = dst ∧ dst % size = 0 ∧
      dst + size ≤ stop ∧ Tiles flags (dst + size) stop rest
  | _, _, .program .. :: _ => False

/-- What a turn of the loop makes of the address and of the size that is left. -/
def eraseNext (flags : Word) (here : Size × Size) : Size × Size :=
  let chunk := (flGetBestErase flags (here.1.setWidth 32) (here.2.setWidth 32)).1
  (here.1 + chunk.setWidth 64, here.2 - chunk.setWidth 64)

/-- No turn takes off more than is left. -/
def NoUnderflow (flags : Word) (start : Size × Size) : Prop := ∀ k,
  let here := (eraseNext flags)^[k] start
  (∀ j ≤ k, ((eraseNext flags)^[j] start).2 ≠ 0) →
    (flGetBestErase flags (here.1.setWidth 32) (here.2.setWidth 32)).1.setWidth 64 ≤ here.2

/-- The first boundary of 32 KiB from the address on. -/
def boundary32k (dst : Nat) : Nat := (dst + 0x7fff) / 0x8000 * 0x8000

/-- The chip has 4 KiB and 64 KiB blocks, but none of 32 KiB. -/
def Lacks32k (flags : Word) : Prop :=
  flags &&& flErase4k ≠ 0 ∧ flags &&& flErase32k = 0 ∧ flags &&& flErase64k ≠ 0

instance (flags : Word) : Decidable (Lacks32k flags) := inferInstanceAs (Decidable (_ ∧ _))

/-- From the first boundary on, fewer than 32 KiB are left, or blocks of 64 KiB and then fewer than 32 KiB. -/
def EraseFits (flags : Word) (dst stop : Nat) : Prop := Lacks32k flags →
  stop < boundary32k dst + 0x8000 ∨ boundary32k dst % 0x10000 = 0 ∧ stop % 0x10000 < 0x8000

section
variable {flags dst size : Word}

theorem low_ne_zero_iff {bits : Nat} (small : bits ≤ 32) :
    dst &&& BitVec.ofNat 32 (2 ^ bits - 1) ≠ 0 ↔ dst.toNat % 2 ^ bits ≠ 0 := by
  constructor
  · intro some none
    exact some (BitVec.and_mask_eq_zero small none)
  · intro some none
    have value := BitVec.and_mask_toNat dst small
    rw [none] at value
    exact some value.symm

/-- The granularity and the flags that it comes from. -/
def GranuleBits (flags : Word) (bits : Nat) : Prop :=
  flags &&& flErase4k ≠ 0 ∧ bits = 12 ∨ flags &&& flErase4k = 0 ∧ flags &&& flErase32k ≠ 0 ∧ bits = 15 ∨
    flags &&& flErase4k = 0 ∧ flags &&& flErase32k = 0 ∧ flags &&& flErase64k ≠ 0 ∧ bits = 16

theorem granuleBits_of_mask {mask : Word} (admitted : flMinEraseMask flags = some mask) :
    ∃ bits, GranuleBits flags bits ∧ mask = BitVec.ofNat 32 (2 ^ bits - 1) := by
  rw [flMinEraseMask] at admitted
  split at admitted
  case isTrue has4k => exact ⟨12, Or.inl ⟨has4k, rfl⟩, (Option.some.inj admitted).symm⟩
  case isFalse no4k =>
    split at admitted
    case isTrue has32k => exact ⟨15, Or.inr (Or.inl ⟨not_not.mp no4k, has32k, rfl⟩), (Option.some.inj admitted).symm⟩
    case isFalse no32k =>
      split at admitted
      case isTrue has64k =>
        exact ⟨16, Or.inr (Or.inr ⟨not_not.mp no4k, not_not.mp no32k, has64k, rfl⟩), (Option.some.inj admitted).symm⟩
      case isFalse => cases admitted

theorem blockSize_4k (has4k : flags &&& flErase4k ≠ 0) : blockSize flags cmdSe = some 0x1000 := if_pos ⟨rfl, has4k⟩

theorem blockSize_32k (has32k : flags &&& flErase32k ≠ 0) : blockSize flags cmdBe32k = some 0x8000 := by
  rw [blockSize, if_neg (fun first => absurd first.1 (by decide)), if_pos ⟨rfl, has32k⟩]

theorem blockSize_64k (has64k : flags &&& flErase64k ≠ 0) : blockSize flags cmdBe = some 0x10000 := by
  rw [blockSize, if_neg (fun first => absurd first.1 (by decide)), if_neg (fun second => absurd second.1 (by decide)),
    if_pos ⟨rfl, has64k⟩]

theorem eraseFits_of_not_lacks {dst stop : Nat} (complete : ¬ Lacks32k flags) : EraseFits flags dst stop :=
  fun lacks => absurd lacks complete

/-- Before the boundary, and where fewer than 32 KiB are left. -/
theorem eraseFits_4k {dst stop : Nat} (aligned : dst % 0x1000 = 0) (few : dst % 0x8000 ≠ 0 ∨ stop < dst + 0x8000) :
    EraseFits flags dst stop ↔ EraseFits flags (dst + 0x1000) stop := by
  simp only [EraseFits, boundary32k]
  refine imp_congr_right fun _ => ?_
  omega

/-- At a boundary with 32 KiB or more to go. -/
theorem eraseFits_64k {dst size : Nat} (lacks : Lacks32k flags) (aligned : dst % 0x8000 = 0) (many : 0x8000 ≤ size) :
    EraseFits flags dst (dst + size) ↔
      dst % 0x10000 = 0 ∧ 0x10000 ≤ size ∧ EraseFits flags (dst + 0x10000) (dst + size) := by
  simp only [EraseFits, boundary32k, lacks, forall_true_left]
  omega

/-- The choice is between blocks that the chip has, and it is right as long as `EraseFits`. -/
theorem flGetBestErase_spec {bits : Nat} (granule : GranuleBits flags bits) (start : dst.toNat % 2 ^ bits = 0)
    (rest : size.toNat % 2 ^ bits = 0) (some : 0 < size.toNat) :
    ∃ block, blockSize flags (flGetBestErase flags dst size).2 = .some block ∧
      (flGetBestErase flags dst size).1.toNat = block ∧ block % 2 ^ bits = 0 ∧
      (flGetBestErase flags dst size).2 ∈ [cmdSe, cmdBe32k, cmdBe] ∧
      (EraseFits flags dst.toNat (dst.toNat + size.toNat) ↔
        dst.toNat % block = 0 ∧ block ≤ size.toNat ∧ EraseFits flags (dst.toNat + block) (dst.toNat + size.toNat)) := by
  have low : dst &&& 0x7fff ≠ 0 ↔ dst.toNat % 0x8000 ≠ 0 := low_ne_zero_iff (by decide : 15 ≤ 32)
  have low64 : dst &&& 0xffff ≠ 0 ↔ dst.toNat % 0x10000 ≠ 0 := low_ne_zero_iff (by decide : 16 ≤ 32)
  have few : size < 0x8000 ↔ size.toNat < 0x8000 := BitVec.lt_def
  have few64 : size < 0x10000 ↔ size.toNat < 0x10000 := BitVec.lt_def
  rw [flGetBestErase]
  simp only [low, low64, few, few64]
  split
  case isTrue early =>
    rcases granule with ⟨has4k, rfl⟩ | ⟨_, _, rfl⟩ | ⟨_, _, _, rfl⟩
    · refine ⟨0x1000, blockSize_4k has4k, rfl, rfl, by decide, ?_⟩
      rw [eraseFits_4k start (by omega)]
      exact ⟨fun fits => ⟨start, by omega, fits⟩, fun all => all.2.2⟩
    · omega
    · omega
  case isFalse late =>
    split
    case isTrue small =>
      have complete : ¬ Lacks32k flags := fun lacks => small.1 lacks.2.1
      have fits (a b : Nat) : EraseFits flags a b := eraseFits_of_not_lacks complete
      refine ⟨0x8000, blockSize_32k small.1, rfl, ?_, by decide, iff_of_true (fits _ _) ⟨by omega, by omega, fits _ _⟩⟩
      rcases granule with ⟨_, rfl⟩ | ⟨_, _, rfl⟩ | ⟨_, none, _⟩
      · rfl
      · rfl
      · exact absurd none small.1
    case isFalse large =>
      split
      case isTrue no64k =>
        have complete : ¬ Lacks32k flags := fun lacks => lacks.2.2 no64k
        have fits (a b : Nat) : EraseFits flags a b := eraseFits_of_not_lacks complete
        split
        case isTrue has32k =>
          refine ⟨0x8000, blockSize_32k has32k, rfl, ?_, by decide,
            iff_of_true (fits _ _) ⟨by omega, by omega, fits _ _⟩⟩
          rcases granule with ⟨_, rfl⟩ | ⟨_, _, rfl⟩ | ⟨_, none, _⟩
          · rfl
          · rfl
          · exact absurd none has32k
        case isFalse no32k =>
          rcases granule with ⟨has4k, rfl⟩ | ⟨_, has32k, _⟩ | ⟨_, _, has64k, _⟩
          · exact ⟨0x1000, blockSize_4k has4k, rfl, rfl, by decide,
              iff_of_true (fits _ _) ⟨start, by omega, fits _ _⟩⟩
          · exact absurd has32k no32k
          · exact absurd no64k has64k
      case isFalse has64k =>
        by_cases lacks : Lacks32k flags
        · rcases granule with ⟨_, rfl⟩ | ⟨none, _⟩ | ⟨none, _⟩
          · exact ⟨0x10000, blockSize_64k has64k, rfl, rfl, by decide, eraseFits_64k lacks (by omega) (by omega)⟩
          · exact absurd none lacks.1
          · exact absurd none lacks.1
        · have fits (a b : Nat) : EraseFits flags a b := eraseFits_of_not_lacks lacks
          have whole (has32k : flags &&& flErase32k ≠ 0) : dst.toNat % 0x10000 = 0 ∧ 0x10000 ≤ size.toNat := by
            obtain ⟨aligned, many⟩ := not_or.mp fun part => large ⟨has32k, part⟩
            exact ⟨not_not.mp aligned, Nat.le_of_not_lt many⟩
          have room : 0x10000 % 2 ^ bits = 0 ∧ dst.toNat % 0x10000 = 0 ∧ 0x10000 ≤ size.toNat := by
            rcases granule with ⟨has4k, rfl⟩ | ⟨_, has32k, rfl⟩ | ⟨_, _, _, rfl⟩
            · exact ⟨rfl, whole fun none => lacks ⟨has4k, none, has64k⟩⟩
            · exact ⟨rfl, whole has32k⟩
            · exact ⟨rfl, start, by omega⟩
          exact ⟨0x10000, blockSize_64k has64k, rfl, room.1, by decide,
            iff_of_true (fits _ _) ⟨room.2.1, room.2.2, fits _ _⟩⟩

end

theorem flGetBestErase_op (flags dst size : Word) :
    (flGetBestErase flags dst size).2 ≠ cmdPp ∧ (flGetBestErase flags dst size).2 ∈ [cmdSe, cmdBe32k, cmdBe] := by
  rw [flGetBestErase]
  split
  · decide
  split
  · decide
  split
  · split
    · decide
    · decide
  · decide

/-- The erase of a turn. -/
def eraseOp (flags : Word) (here : Size × Size) : NorOp :=
  .erase (flGetBestErase flags (here.1.setWidth 32) (here.2.setWidth 32)).2 (here.1.setWidth 32)

section
variable {direct switches : Bool} {c : FlashChip NorChip} {d d' : NorChip}

theorem flSyncWaitIdle_ok {finfo : FlashInfo} {fuel : Nat}
    (run : (flSyncWaitIdle (NorChip.sfc direct switches finfo) fuel).run d = .ok () d') : d' = { d with busy := 0 } := by
  rw [flSyncWaitIdle] at run
  induction fuel generalizing d with
  | zero => cases run
  | succ fuel ih =>
    rw [Prog.loop] at run
    obtain ⟨next, d₁, turn, rest⟩ := Prog.bind_ok_iff.mp run
    rw [flSyncWaitIdleTurn, Prog.run_bind_ok flReadStat_nor] at turn
    by_cases idle : d.busy = 0
    · rw [if_pos (status_idle idle), Prog.run_bind_ok flIdle_nor] at turn
      cases turn
      cases rest
      rw [idle]
    · rw [if_neg (status_busy idle)] at turn
      cases turn
      exact @ih { d with busy := d.busy - 1 } rest

variable (ctrl : c.ctrl = NorChip.sfc direct switches c.info)
include ctrl

theorem flashEraseTurn_ends {here : Size × Size} (idle : d.busy = 0) (more : here.2 ≠ 0) :
    Prog.Ends (fun fuel => flashEraseTurn c fuel here) d (.inl (eraseNext c.info.flags here))
      (d.done (eraseOp c.info.flags here)) := by
  have op := flGetBestErase_op c.info.flags (here.1.setWidth 32) (here.2.setWidth 32)
  simp only [flashEraseTurn, if_neg more, ctrl]
  refine modify_then idle (fun d => ?_) (.pure _)
  show (if _ = cmdPp then _ else if _ ∈ [cmdSe, cmdBe32k, cmdBe] then _ else d) = _
  rw [if_neg op.1, if_pos op.2]
  rfl

theorem flashEraseTurn_ok {here : Size × Size} {fuel : Nat} {r : Size × Size ⊕ Unit} (idle : d.busy = 0) (more : here.2 ≠ 0)
    (run : (flashEraseTurn c fuel here).run d = .ok r d') :
    r = .inl (eraseNext c.info.flags here) ∧ d' = d.done (eraseOp c.info.flags here) := by
  have op := flGetBestErase_op c.info.flags (here.1.setWidth 32) (here.2.setWidth 32)
  have wren : (flWren (NorChip.sfc direct switches c.info) fuel).run d = .ok () { d with wel := true } :=
    flWrenLoop_nor idle fuel 999
  rw [flashEraseTurn, if_neg more, ctrl, Prog.run_bind_ok wren] at run
  obtain ⟨_, d₁, erase, run⟩ := Prog.bind_ok_iff.mp run
  obtain ⟨_, d₂, wait, last⟩ := Prog.bind_ok_iff.mp run
  have accepted : d₁ = { d with
      mem := apply d.flags (eraseOp c.info.flags here) d.mem
      wel := false
      busy := d.latency d.ops.length
      ops := eraseOp c.info.flags here :: d.ops } := by
    cases erase
    show (if _ = cmdPp then _ else if _ ∈ [cmdSe, cmdBe32k, cmdBe] then _ else _) = _
    rw [if_neg op.1, if_pos op.2]
    exact if_pos ⟨rfl, idle⟩
  have waited := flSyncWaitIdle_ok wait
  rw [accepted] at waited
  cases last
  exact ⟨rfl, waited⟩

end

/-- Where the loop is: on the granularity, with a range that ends at `stop`. -/
structure EraseAt (bits stop : Nat) (here : Size × Size) : Prop where
  start : here.1.toNat % 2 ^ bits = 0
  rest : here.2.toNat % 2 ^ bits = 0
  sum : here.1.toNat + here.2.toNat = stop
  bound : stop < 2 ^ 32

theorem blockSize_pos {flags : Word} {op : Byte} {block : Nat} (known : blockSize flags op = some block) : 0 < block := by
  rw [blockSize] at known
  split at known
  · cases known
    decide
  split at known
  · cases known
    decide
  split at known
  · cases known
    decide
  · cases known

/-- A turn, in unbounded arithmetic. -/
theorem eraseTurn_spec {flags : Word} {bits stop : Nat} {here : Size × Size} (granule : GranuleBits flags bits)
    (at' : EraseAt bits stop here) (more : here.2 ≠ 0) :
    ∃ block, blockSize flags (flGetBestErase flags (here.1.setWidth 32) (here.2.setWidth 32)).2 = some block ∧
      ((flGetBestErase flags (here.1.setWidth 32) (here.2.setWidth 32)).1.setWidth 64 : Size).toNat = block ∧
      (here.1.setWidth 32 : Word).toNat = here.1.toNat ∧
      (EraseFits flags here.1.toNat stop ↔
        here.1.toNat % block = 0 ∧ block ≤ here.2.toNat ∧ EraseFits flags (here.1.toNat + block) stop) ∧
      (block ≤ here.2.toNat → (eraseNext flags here).1.toNat = here.1.toNat + block ∧
        EraseAt bits stop (eraseNext flags here)) := by
  obtain ⟨start, rest, sum, bound⟩ := at'
  have some : 0 < here.2.toNat := Nat.pos_of_ne_zero fun none => more (BitVec.eq_of_toNat_eq none)
  have dst : (here.1.setWidth 32 : Word).toNat = here.1.toNat := by
    rw [BitVec.toNat_setWidth, Nat.mod_eq_of_lt (by omega)]
  have size : (here.2.setWidth 32 : Word).toNat = here.2.toNat := by
    rw [BitVec.toNat_setWidth, Nat.mod_eq_of_lt (by omega)]
  obtain ⟨block, known, chunk, aligned, _, fits⟩ :=
    flGetBestErase_spec granule (dst.symm ▸ start) (size.symm ▸ rest) (by omega)
  rw [dst, size, sum] at fits
  have wide : ((flGetBestErase flags (here.1.setWidth 32) (here.2.setWidth 32)).1.setWidth 64 : Size).toNat = block := by
    rw [BitVec.toNat_setWidth_of_le (by decide), chunk]
  refine ⟨block, known, wide, dst, fits, fun le => ?_⟩
  have next : (eraseNext flags here).1.toNat = here.1.toNat + block := by
    rw [eraseNext, BitVec.toNat_add, wide]
    omega
  have left : (eraseNext flags here).2.toNat = here.2.toNat - block := by
    rw [eraseNext, BitVec.toNat_sub_of_le (by rw [BitVec.le_def, wide]; exact le), wide]
  refine ⟨next, ⟨?_, ?_, by omega, bound⟩⟩
  · rw [next]
    exact Nat.mod_eq_zero_of_dvd (Nat.dvd_add (Nat.dvd_of_mod_eq_zero start) (Nat.dvd_of_mod_eq_zero aligned))
  · rw [left]
    exact Nat.mod_eq_zero_of_dvd (Nat.dvd_sub (Nat.dvd_of_mod_eq_zero rest) (Nat.dvd_of_mod_eq_zero aligned))

theorem eraseBlock_apply {block a x : Nat} {mem : Mem} (pos : 0 < block) (aligned : a % block = 0) :
    eraseBlock block a mem x = if a ≤ x ∧ x < a + block then 0xff else mem x := by
  have inside : x / block = a / block ↔ a ≤ x ∧ x < a + block := by
    have a_eq := Nat.div_add_mod a block
    have x_eq := Nat.div_add_mod x block
    have low := Nat.mod_lt x pos
    constructor
    · intro same
      rw [same] at x_eq
      omega
    · rintro ⟨le, less⟩
      rw [aligned, Nat.add_zero] at a_eq
      refine Nat.div_eq_of_lt_le ?_ ?_
      · rw [Nat.mul_comm, a_eq]
        exact le
      · rw [Nat.add_mul, Nat.mul_comm, a_eq, Nat.one_mul]
        exact less
  simp only [eraseBlock, inside]

section
variable {direct switches : Bool} {c : FlashChip NorChip} {d d' : NorChip} {bits stop : Nat}
variable (ctrl : c.ctrl = NorChip.sfc direct switches c.info)
include ctrl

/-- The blocks that the loop erases, and the array that they leave. -/
theorem flashEraseLoop_tiles (granule : GranuleBits c.info.flags bits) (known : d.flags = c.info.flags)
    {here : Size × Size} (idle : d.busy = 0) (at' : EraseAt bits stop here)
    (fits : EraseFits c.info.flags here.1.toNat stop) :
    ∃ turns d' ops, Prog.LoopEnds (flashEraseTurn c) turns here d () d' ∧ d'.ops = ops.reverse ++ d.ops ∧
      Tiles c.info.flags here.1.toNat stop ops ∧
      ∀ x, d'.mem x = if here.1.toNat ≤ x ∧ x < stop then 0xff else d.mem x := by
  obtain ⟨left, size⟩ : ∃ left, left = here.2.toNat := ⟨_, rfl⟩
  induction left using Nat.strong_induction_on generalizing here d with
  | _ left ih =>
    by_cases done : here.2 = 0
    · have empty : here.1.toNat = stop := by
        have := at'.sum
        rw [done] at this
        simpa using this
      have last : Prog.Ends (fun fuel => flashEraseTurn c fuel here) d (.inr ()) d :=
        .congr (fun fuel => by rw [flashEraseTurn, if_pos done]) (.pure _)
      refine ⟨1, d, [], .last last, rfl, empty, fun x => ?_⟩
      rw [if_neg (by omega)]
    · obtain ⟨block, blocks, _, addr, step, next⟩ := eraseTurn_spec granule at' done
      obtain ⟨aligned, le, fits'⟩ := step.mp fits
      obtain ⟨start, at''⟩ := next le
      have pos := blockSize_pos blocks
      have sum := at'.sum
      have sum' := at''.sum
      have turn := flashEraseTurn_ends ctrl idle done
      have less : (eraseNext c.info.flags here).2.toNat < left := by omega
      rw [← start] at fits'
      obtain ⟨turns, d', ops, ends, issued, tiles, array⟩ := @ih _ less (d.done (eraseOp c.info.flags here))
        known _ rfl at'' fits' rfl
      refine ⟨turns + 1, d', eraseOp c.info.flags here :: ops, .next turn ends, ?_, ?_, fun x => ?_⟩
      · rw [issued, List.reverse_cons, List.append_assoc]
        rfl
      · rw [start] at tiles
        exact ⟨block, blocks, addr, aligned, by omega, tiles⟩
      · have first : (d.done (eraseOp c.info.flags here)).mem x =
            if here.1.toNat ≤ x ∧ x < here.1.toNat + block then 0xff else d.mem x := by
          show apply d.flags (.erase _ (here.1.setWidth 32)) d.mem x = _
          rw [apply, known, blocks]
          dsimp only
          rw [addr, eraseBlock_apply pos aligned]
        rw [array, first, start]
        grind

/-- The commands of a run of the loop are added to those before it. -/
theorem flashEraseLoop_issued {fuel turns : Nat} {here : Size × Size} (idle : d.busy = 0)
    (run : (Prog.loop (flashEraseTurn c fuel) turns here).run d = .ok () d') : ∃ ops : List NorOp, d'.ops = ops.reverse ++ d.ops := by
  induction turns generalizing here d with
  | zero => cases run
  | succ turns ih =>
    rw [Prog.loop] at run
    obtain ⟨r, d₁, turn, rest⟩ := Prog.bind_ok_iff.mp run
    by_cases done : here.2 = 0
    · rw [flashEraseTurn, if_pos done] at turn
      cases turn
      cases rest
      exact ⟨[], rfl⟩
    · obtain ⟨rfl, rfl⟩ := flashEraseTurn_ok ctrl idle done turn
      obtain ⟨ops, issued⟩ := ih rfl rest
      refine ⟨eraseOp c.info.flags here :: ops, ?_⟩
      rw [issued, List.reverse_cons, List.append_assoc]
      rfl

/-- Commands that tile the range are those of a range that fits. -/
theorem flashEraseLoop_fits (granule : GranuleBits c.info.flags bits) {fuel turns : Nat} {here : Size × Size}
    (idle : d.busy = 0) (at' : EraseAt bits stop here)
    (run : (Prog.loop (flashEraseTurn c fuel) turns here).run d = .ok () d') {ops : List NorOp}
    (issued : d'.ops = ops.reverse ++ d.ops) (tiles : Tiles c.info.flags here.1.toNat stop ops) :
    EraseFits c.info.flags here.1.toNat stop := by
  induction turns generalizing here d ops with
  | zero => cases run
  | succ turns ih =>
    rw [Prog.loop] at run
    obtain ⟨r, d₁, turn, rest⟩ := Prog.bind_ok_iff.mp run
    by_cases done : here.2 = 0
    · have empty : here.1.toNat = stop := by
        have := at'.sum
        rw [done] at this
        simpa using this
      intro _
      rw [empty, boundary32k]
      omega
    · obtain ⟨rfl, rfl⟩ := flashEraseTurn_ok ctrl idle done turn
      obtain ⟨ops', issued'⟩ := flashEraseLoop_issued ctrl rfl rest
      have split : ops = eraseOp c.info.flags here :: ops' := by
        have both : ops.reverse ++ d.ops = ops'.reverse ++ (eraseOp c.info.flags here :: d.ops) := issued.symm.trans issued'
        have same : ops.reverse ++ d.ops = (eraseOp c.info.flags here :: ops').reverse ++ d.ops := by
          rw [both, List.reverse_cons, List.append_assoc]
          rfl
        exact List.reverse_injective (List.append_cancel_right same)
      rw [split] at tiles
      obtain ⟨size, known, _, aligned, within, tail⟩ := tiles
      obtain ⟨block, blocks, _, _, step, next⟩ := eraseTurn_spec granule at' done
      obtain rfl : size = block := Option.some.inj (known.symm.trans blocks)
      have sum := at'.sum
      have le : size ≤ here.2.toNat := by omega
      obtain ⟨start, at''⟩ := next le
      rw [← start] at tail
      have fits := ih rfl at'' rest issued' tail
      rw [start] at fits
      exact step.mpr ⟨aligned, le, fits⟩

end

theorem noUnderflow_of_fits {flags : Word} {bits stop : Nat} (granule : GranuleBits flags bits) {here : Size × Size}
    (at' : EraseAt bits stop here) (fits : EraseFits flags here.1.toNat stop) : NoUnderflow flags here := by
  intro k
  induction k generalizing here with
  | zero =>
    intro _ more
    obtain ⟨block, _, chunk, _, step, _⟩ := eraseTurn_spec granule at' (more 0 le_rfl)
    rw [BitVec.le_def]
    show ((flGetBestErase flags (here.1.setWidth 32) (here.2.setWidth 32)).1.setWidth 64 : Size).toNat ≤ here.2.toNat
    rw [chunk]
    exact (step.mp fits).2.1
  | succ k ih =>
    intro _ more
    obtain ⟨block, _, _, _, step, next⟩ := eraseTurn_spec granule at' (more 0 (Nat.zero_le _))
    obtain ⟨_, le, fits'⟩ := step.mp fits
    obtain ⟨start, at''⟩ := next le
    rw [← start] at fits'
    exact ih at'' fits' fun j le => more (j + 1) (Nat.succ_le_succ le)

/-- `flash_erase` ends. The blocks that it erases tile the range in order, all of its bytes are set and no others,
and no turn of its loop takes off more than is left. -/
def ErasesExactly (c : FlashChip NorChip) (d : NorChip) (dst size : Size) : Prop :=
  (∃ (d' : NorChip) (ops : List NorOp), Prog.Ends (fun fuel => flashErase c fuel dst size) d () d' ∧ d'.ops = ops.reverse ++ d.ops ∧
    Tiles c.info.flags dst.toNat (dst.toNat + size.toNat) ops ∧
    ∀ x, d'.mem x = if dst.toNat ≤ x ∧ x < dst.toNat + size.toNat then 0xff else d.mem x) ∧
  NoUnderflow c.info.flags (dst, size)

/-- The checks of `flash_erase`. -/
structure EraseAdmits (c : FlashChip NorChip) (dst size : Size) : Prop where
  range : ¬ (dst + size ≤ dst ∨ size = 0 ∨ dst + size > c.tsize.setWidth 64)
  boundaries : (dst ||| size) &&& c.minEraseMask.setWidth 64 = 0

theorem EraseAdmits.at {c : FlashChip NorChip} {dst size : Size} (admits : EraseAdmits c dst size) {bits : Nat}
    (small : bits ≤ 32) (mask : c.minEraseMask = BitVec.ofNat 32 (2 ^ bits - 1)) :
    EraseAt bits (dst.toNat + size.toNat) (dst, size) := by
  have bound := c.tsize.isLt
  have less : 2 ^ bits ≤ 2 ^ 32 := Nat.pow_le_pow_right (by decide) small
  have pos : 0 < 2 ^ bits := Nat.two_pow_pos bits
  have wide : (c.minEraseMask.setWidth 64 : Size) = BitVec.ofNat 64 (2 ^ bits - 1) := by
    apply BitVec.eq_of_toNat_eq
    rw [BitVec.toNat_setWidth_of_le (by decide), mask, BitVec.toNat_ofNat, BitVec.toNat_ofNat,
      Nat.mod_eq_of_lt (by omega), Nat.mod_eq_of_lt (by omega)]
  have both := admits.boundaries
  rw [wide, BitVec.or_and_mask_eq_zero_iff (by omega : bits ≤ 64)] at both
  have range := (BitVec.range_iff dst size (c.tsize.setWidth 64)).mp admits.range
  rw [BitVec.toNat_setWidth_of_le (by decide)] at range
  exact ⟨both.1, both.2, rfl, by omega⟩

theorem flashErase_admitted {c : FlashChip NorChip} {dst size : Size} (admits : EraseAdmits c dst size)
    (plain : c.ctrl.erase = none) (fuel : Nat) :
    flashErase c fuel dst size = Prog.loop (flashEraseTurn c fuel) fuel (dst, size) := by
  rw [flashErase, if_neg admits.range, if_neg (not_not.mpr admits.boundaries), plain]

section
variable {f : NorFlash} {mem : Mem} {wel : Bool} {latency : Nat → Nat} {dst size : Size}
variable (admits : EraseAdmits f.chip dst size)
include admits

theorem eraseAdmits_granule : ∃ bits, GranuleBits f.chip.info.flags bits ∧
    EraseAt bits (dst.toNat + size.toNat) (dst, size) := by
  obtain ⟨bits, granule, mask⟩ := granuleBits_of_mask f.mask
  have small : bits ≤ 32 := by
    rcases granule with ⟨_, rfl⟩ | ⟨_, _, rfl⟩ | ⟨_, _, _, rfl⟩
    · decide
    · decide
    · decide
  exact ⟨bits, granule, admits.at small mask⟩

theorem ErasesExactly.fits (exact : ErasesExactly f.chip (f.idle mem wel latency) dst size) :
    EraseFits f.info.flags dst.toNat (dst.toNat + size.toNat) := by
  obtain ⟨bits, granule, at'⟩ := eraseAdmits_granule admits
  obtain ⟨⟨d', ops, ⟨enough, ends⟩, issued, tiles, _⟩, _⟩ := exact
  have run : (flashErase f.chip enough dst size).run (f.idle mem wel latency) = .ok () d' := ends enough le_rfl
  have plain : f.chip.ctrl.erase = none := rfl
  rw [flashErase_admitted admits plain] at run
  have ctrl : f.chip.ctrl = NorChip.sfc f.direct f.switches f.chip.info := rfl
  have idle : (f.idle mem wel latency).busy = 0 := rfl
  have fits := flashEraseLoop_fits ctrl granule idle at' run issued tiles
  exact fits

theorem erasesExactly_of_fits (fits : EraseFits f.info.flags dst.toNat (dst.toNat + size.toNat)) :
    ErasesExactly f.chip (f.idle mem wel latency) dst size := by
  obtain ⟨bits, granule, at'⟩ := eraseAdmits_granule admits
  refine ⟨?_, noUnderflow_of_fits granule at' fits⟩
  have ctrl : f.chip.ctrl = NorChip.sfc f.direct f.switches f.chip.info := rfl
  have idle : (f.idle mem wel latency).busy = 0 := rfl
  have known : (f.idle mem wel latency).flags = f.chip.info.flags := rfl
  obtain ⟨turns, d', ops, ends, issued, tiles, array⟩ := flashEraseLoop_tiles ctrl granule known idle at' fits
  exact ⟨d', ops, .congr (flashErase_admitted admits rfl) ends.ends, issued, tiles, array⟩

end

/-- Without blocks of 32 KiB, one of 64 KiB is chosen where it does not fit: `flash_erase` does what it should
just where that does not come about. -/
theorem flash_erase_exact (f : NorFlash) (mem : Mem) (wel : Bool) (latency : Nat → Nat) (dst size : Size)
    (admits : EraseAdmits f.chip dst size) : ErasesExactly f.chip (f.idle mem wel latency) dst size ↔
      EraseFits f.info.flags dst.toNat (dst.toNat + size.toNat) :=
  ⟨fun exact => exact.fits admits, erasesExactly_of_fits admits⟩

/-- A Micron chip: it has 4 KiB and 64 KiB blocks. -/
def micron : NorFlash := ⟨true, true, true, ⟨0x20ba19, 0x02000000, flMicron⟩, 0x02000000, 0xfff, rfl, rfl⟩

/-- From 32 KiB on, 96 KiB. -/
theorem micron_admits : EraseAdmits micron.chip 0x8000 0x18000 := ⟨by decide, by decide⟩

/-- Three times 32K on a Micron chip. -/
theorem flash_erase_exact_micron :
    ErasesExactly micron.chip (micron.idle (fun _ => 0) false fun n => n) 0x8000 0x18000 ↔
      EraseFits micron.info.flags 0x8000 0x20000 :=
  flash_erase_exact micron (fun _ => 0) false (fun n => n) 0x8000 0x18000 micron_admits

/-- The block of 64 KiB in front of the range is erased. -/
theorem flash_erase_inexact : ¬ ∀ (f : NorFlash) (mem : Mem) (dst size : Size), EraseAdmits f.chip dst size →
    ErasesExactly f.chip (f.idle mem false fun n => n) dst size := by
  intro all
  have fits := (all micron (fun _ => 0) 0x8000 0x18000 micron_admits).fits micron_admits
  exact absurd (fits (by decide)) (by decide)

end Culvert
