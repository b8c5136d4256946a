import Culvert.Ahb

namespace Culvert

def enxio : Errno := ⟨6, by decide, by decide⟩
def eopnotsupp : Errno := enotsup

def cmdPp : Byte := 0x02
def cmdRead : Byte := 0x03
def cmdRdsr : Byte := 0x05
def cmdWren : Byte := 0x06
def cmdSe : Byte := 0x20
def cmdBe32k : Byte := 0x52
def cmdCe : Byte := 0x60
def cmdMicRdflst : Byte := 0x70
def cmdRdid : Byte := 0x9f
def cmdEn4b : Byte := 0xb7
def cmdMicBulkErase : Byte := 0xc7
def cmdBe : Byte := 0xd8
def cmdEx4b : Byte := 0xe9

def statWip : Byte := 0x01
def statWen : Byte := 0x02

def flErase4k : Word := 0x01
def flErase32k : Word := 0x02
def flErase64k : Word := 0x04
def flEraseChip : Word := 0x08
def flEraseBulk : Word := 0x10
def flMicronBugs : Word := 0x20
def flEraseAll : Word := flErase4k ||| flErase32k ||| flErase64k ||| flEraseChip
def flCan4b : Word := 0x10

/-- `struct flash_info`, but for its name. -/
structure FlashInfo where
  id : Word
  size : Word
  flags : Word
  deriving DecidableEq, Repr

/-- The flags of the Winbond chips with 4-byte addresses. -/
def flWinbond : Word := flEraseAll ||| flErase64k ||| flCan4b ||| flEraseBulk

/-- The flags of the Micron chips. -/
def flMicron : Word := flErase4k ||| flErase64k ||| flCan4b ||| flEraseBulk ||| flMicronBugs

/-- The table `flash_info`. -/
def flashInfos : List FlashInfo :=
  [⟨0xc22018, 0x01000000, flEraseAll ||| flCan4b⟩,
    ⟨0xc22019, 0x02000000, flEraseAll ||| flCan4b⟩,
    ⟨0xc2201a, 0x04000000, flEraseAll ||| flCan4b⟩,
    ⟨0xc2201b, 0x08000000, flEraseAll ||| flCan4b⟩,
    ⟨0xef4018, 0x01000000, flEraseAll⟩,
    ⟨0xef4019, 0x02000000, flWinbond⟩,
    ⟨0xef4020, 0x04000000, flWinbond⟩,
    ⟨0xef4021, 0x08000000, flWinbond⟩,
    ⟨0x20ba20, 0x04000000, flMicron⟩,
    ⟨0x20ba19, 0x02000000, flMicron⟩,
    ⟨0x1940ef, 0x02000000, flMicron⟩,
    ⟨0x4d5444, 0x02000000, flEraseAll ||| flCan4b⟩,
    ⟨0x55aa55, 0x00100000, flEraseAll ||| flCan4b⟩,
    ⟨0xaa55aa, 0x02000000, flEraseAll ||| flCan4b⟩]

/-- `struct sfc`: the callbacks that a controller has. A command takes its opcode, its address where
it has one, and the bytes to write or the number of bytes to read. -/
structure Sfc (σ : Type) where
  setup : Option (Prog σ Unit)
  set4b : Option (Option FlashInfo → Bool → Prog σ Unit)
  chipId : Option (Prog σ (List Byte))
  directRead : Option (Word → Nat → Prog σ (List Byte))
  write : Option (Word → List Byte → Prog σ Unit)
  erase : Option (Word → Word → Prog σ Unit)
  rd : Option (Byte → Option Word → Nat → Prog σ (List Byte))
  wr : Option (Byte → Option Word → List Byte → Prog σ Unit)
  finfo : Option FlashInfo

namespace Sfc
variable {σ : Type} (ct : Sfc σ)

def cmdRd (op : Byte) (addr : Option Word) (size : Nat) : Prog σ (List Byte) :=
  match ct.rd with
  | some rd => rd op addr size
  | none => throw .fault

def cmdWr (op : Byte) (addr : Option Word) (buf : List Byte) : Prog σ Unit :=
  match ct.wr with
  | some wr => wr op addr buf
  | none => throw .fault

end Sfc

section
variable {σ : Type} (ct : Sfc σ)

def flReadStat : Prog σ Byte := do
  return (← ct.cmdRd cmdRdsr none 1).headD 0

def flMicronStatus : Prog σ Unit := do
  let _ ← Prog.attempt (ct.cmdRd cmdMicRdflst none 1)

def flIdle : Prog σ Unit :=
  match ct.finfo with
  | none => throw .fault
  | some finfo => if finfo.flags &&& flMicronBugs ≠ 0 then flMicronStatus ct else pure ()

def flSyncWaitIdleTurn (_ : Unit) : Prog σ (Unit ⊕ Unit) := do
  let stat ← flReadStat ct
  if stat &&& statWip = 0 then
    flIdle ct
    return .inr ()
  else
    return .inl ()

/-- There is no bound on the status reads but the fuel. -/
def flSyncWaitIdle (fuel : Nat) : Prog σ Unit := Prog.loop (flSyncWaitIdleTurn ct) fuel ()

/-- The tries of `fl_wren` that are left. -/
def flWrenLoop (fuel : Nat) : Nat → Prog σ Unit
  | 0 => Prog.fail etimedout
  | tries + 1 => do
    ct.cmdWr cmdWren none []
    let stat ← flReadStat ct
    if stat &&& statWip ≠ 0 then
      flSyncWaitIdle ct fuel
      flWrenLoop fuel tries
    else if stat &&& statWen ≠ 0 then
      pure ()
    else
      flWrenLoop fuel tries

def flWren (fuel : Nat) : Prog σ Unit := flWrenLoop ct fuel 1000

end

/-- `struct flash_chip`. -/
structure FlashChip (σ : Type) where
  ctrl : Sfc σ
  info : FlashInfo
  tsize : Word
  minEraseMask : Word
  mode4b : Bool

/-- The block size and the opcode of the next erase. -/
def flGetBestErase (flags dst size : Word) : Word × Byte :=
  if dst &&& 0x7fff ≠ 0 ∨ size < 0x8000 then (0x1000, cmdSe)
  else if flags &&& flErase32k ≠ 0 ∧ (dst &&& 0xffff ≠ 0 ∨ size < 0x10000) then (0x8000, cmdBe32k)
  else if flags &&& flErase64k = 0 then
    if flags &&& flErase32k ≠ 0 then (0x8000, cmdBe32k) else (0x1000, cmdSe)
  else (0x10000, cmdBe)

section
variable {σ : Type} (c : FlashChip σ)

/-- The granularity that `flash_identify` derives from the erase sizes, where there are any. -/
def flMinEraseMask (flags : Word) : Option Word :=
  if flags &&& flErase4k ≠ 0 then some 0xfff
  else if flags &&& flErase32k ≠ 0 then some 0x7fff
  else if flags &&& flErase64k ≠ 0 then some 0xffff
  else none

/-- The high level operations of the controller are used in 3-byte mode, or where it can switch. -/
def FlashChip.HighLevel : Prop := c.mode4b = false ∨ c.ctrl.set4b.isSome

instance : Decidable c.HighLevel := inferInstanceAs (Decidable (_ ∨ _))

/-- `flash_read` without a direct read of the controller. -/
def flashReadManual (pos : Size) (len : Nat) : Prog σ (List Byte) :=
  match c.ctrl.rd with
  | none => Prog.fail eopnotsupp
  | some rd => rd cmdRead (some (pos.setWidth 32)) len

def flashRead (pos : Size) (len : Nat) : Prog σ (List Byte) :=
  match c.ctrl.directRead with
  | some directRead =>
    if c.HighLevel then directRead (pos.setWidth 32) len else flashReadManual c pos len
  | none => flashReadManual c pos len

def flashEraseTurn (fuel : Nat) : Size × Size → Prog σ (Size × Size ⊕ Unit)
  | (dst, size) => do
    if size = 0 then
      return .inr ()
    else
      let (chunk, cmd) := flGetBestErase c.info.flags (dst.setWidth 32) (size.setWidth 32)
      flWren c.ctrl fuel
      c.ctrl.cmdWr cmd (some (dst.setWidth 32)) []
      flSyncWaitIdle c.ctrl fuel
      return .inl (dst + chunk.setWidth 64, size - chunk.setWidth 64)

def flashErase (fuel : Nat) (dst size : Size) : Prog σ Unit :=
  if dst + size ≤ dst ∨ size = 0 ∨ dst + size > c.tsize.setWidth 64 then Prog.fail einval
  else if (dst ||| size) &&& c.minEraseMask.setWidth 64 ≠ 0 then Prog.fail einval
  else
    match c.ctrl.erase with
    | some erase => erase (dst.setWidth 32) (size.setWidth 32)
    | none => Prog.loop (flashEraseTurn c fuel) fuel (dst, size)

def flashEraseChip (fuel : Nat) : Prog σ Unit :=
  if c.info.flags &&& (flEraseChip ||| flEraseBulk) = 0 then Prog.fail eopnotsupp
  else
    match c.ctrl.erase with
    | some erase => erase 0 0xffffffff
    | none => do
      flWren c.ctrl fuel
      c.ctrl.cmdWr (if c.info.flags &&& flEraseChip ≠ 0 then cmdCe else cmdMicBulkErase) none []
      flSyncWaitIdle c.ctrl fuel

def flWpage (fuel : Nat) (dst : Word) (src : List Byte) : Prog σ Unit :=
  if src.length < 1 ∨ src.length > 0x100 then Prog.fail einval
  else do
    flWren c.ctrl fuel
    c.ctrl.cmdWr cmdPp (some dst) src
    flSyncWaitIdle c.ctrl fuel

/-- What is left of the page of `d`. -/
def pageLeft (d : Word) : Nat := (0x100 - (d &&& 0xff)).toNat

theorem pageLeft_eq (d : Word) : pageLeft d = 0x100 - d.toNat % 0x100 := by
  have low : (d &&& 0xff).toNat = d.toNat % 0x100 := Nat.and_two_pow_sub_one_eq_mod d.toNat 8
  rw [pageLeft, BitVec.toNat_sub_of_le, low]
  · rfl
  · rw [BitVec.le_def, low]
    exact Nat.le_of_lt (Nat.mod_lt _ (by decide))

def pageChunk (d : Word) (todo : Nat) : Nat := if pageLeft d > todo then todo else pageLeft d

theorem pageChunk_pos {d : Word} {todo : Nat} (more : 0 < todo) : 0 < pageChunk d todo := by
  have := pageLeft_eq d
  have := Nat.mod_lt d.toNat (show 0 < 0x100 by decide)
  rw [pageChunk]
  split <;> omega

theorem pageChunk_le (d : Word) (todo : Nat) : pageChunk d todo ≤ todo := by
  rw [pageChunk]
  split <;> omega

theorem pageChunk_page (d : Word) (todo : Nat) : d.toNat % 0x100 + pageChunk d todo ≤ 0x100 := by
  have := pageLeft_eq d
  have := Nat.mod_lt d.toNat (show 0 < 0x100 by decide)
  rw [pageChunk]
  split <;> omega

/-- The loop of `flash_write` over the pages. -/
def flashWritePages (fuel : Nat) (d : Word) (s : List Byte) : Prog σ Unit :=
  if _done : s = [] then pure ()
  else do
    let chunk := pageChunk d s.length
    flWpage c fuel d (s.take chunk)
    flashWritePages fuel (d + BitVec.ofNat 32 chunk) (s.drop chunk)
termination_by s.length
decreasing_by
  have := List.length_pos_iff.mpr _done
  have := pageChunk_pos (d := d) this
  rw [List.length_drop]
  omega

def verifyChunk (size : Nat) : Nat := if 0x100 > size then size else 0x100

theorem verifyChunk_pos {size : Nat} (more : 0 < size) : 0 < verifyChunk size := by
  rw [verifyChunk]
  split <;> omega

theorem verifyChunk_le (size : Nat) : verifyChunk size ≤ size := by
  rw [verifyChunk]
  split <;> omega

/-- The loop of `flash_write` that reads back what it has written. -/
def flashVerify (dst : Word) (src : List Byte) : Prog σ Unit :=
  if _done : src = [] then pure ()
  else do
    let chunk := verifyChunk src.length
    let vbuf ← flashRead c (dst.setWidth 64) chunk
    if vbuf ≠ src.take chunk then Prog.fail eremoteio
    else flashVerify (dst + BitVec.ofNat 32 chunk) (src.drop chunk)
termination_by src.length
decreasing_by
  have := List.length_pos_iff.mpr _done
  have := verifyChunk_pos this
  rw [List.length_drop]
  omega

def flashWriteManual (fuel : Nat) (dst : Word) (src : List Byte) : Prog σ Unit :=
  if c.ctrl.wr.isNone then Prog.fail eopnotsupp else flashWritePages c fuel dst src

def flashWriteData (fuel : Nat) (dst : Word) (src : List Byte) : Prog σ Unit :=
  match c.ctrl.write with
  | some write => if c.HighLevel then write dst src else flashWriteManual c fuel dst src
  | none => flashWriteManual c fuel dst src

def flashWrite (fuel : Nat) (dst : Word) (src : List Byte) (verify : Bool) : Prog σ Unit :=
  let size := BitVec.ofNat 32 src.length
  if dst + size ≤ dst ∨ size = 0 ∨ dst + size > c.tsize then Prog.fail einval
  else do
    flashWriteData c fuel dst src
    if verify then flashVerify c dst src else pure ()

end

/-- `enum sm_comp_res` -/
inductive SmCompRes where
  | noChange
  | needWrite
  | needErase
  deriving DecidableEq, Repr

/-- The bytes of `src` against those that they are written over. -/
def flashSmartComp : List Byte → List Byte → Bool → SmCompRes
  | s :: src, b :: buf, isSame =>
    if s &&& ~~~b ≠ 0 then .needErase else flashSmartComp src buf (isSame && b == s)
  | _, _, isSame => if isSame then .noChange else .needWrite

/-- `memcpy` of `src` to the offset `off` of the buffer. -/
def smartMerge (buf : List Byte) (off : Nat) (src : List Byte) : List Byte :=
  buf.take off ++ src ++ buf.drop (off + src.length)

section
variable {σ : Type} (c : FlashChip σ)

/-- The block of `dst`, whose bytes are `buf`, where `src` goes to `dst`. -/
def flashSmartBlock (fuel : Nat) (dst : Size) (page off : Word) (src buf : List Byte) : Prog σ Unit :=
  match flashSmartComp src (buf.drop off.toNat) true with
  | .noChange => pure ()
  | .needWrite => flashWrite c fuel (dst.setWidth 32) src true
  | .needErase => do
    flashErase c fuel (page.setWidth 64) ((c.minEraseMask + 1).setWidth 64)
    flashWrite c fuel page (smartMerge buf off.toNat src) true

def smartPage (dst : Size) : Word := (dst &&& (~~~c.minEraseMask).setWidth 64).setWidth 32
def smartOff (dst : Size) : Word := (dst &&& c.minEraseMask.setWidth 64).setWidth 32

def smartChunk (dst : Size) (size : Nat) : Nat :=
  let room := (c.minEraseMask + 1 - smartOff c dst).toNat
  if size < room then size else room

/-- The loop of `flash_smart_write` over the erase blocks. -/
def flashSmartWriteLoop (fuel : Nat) (stop : Word) (dst : Size) (src : List Byte) : Prog σ Unit :=
  if dst < stop.setWidth 64 then do
    let buf ← flashRead c ((smartPage c dst).setWidth 64) (c.minEraseMask + 1).toNat
    let chunk := smartChunk c dst src.length
    flashSmartBlock c fuel dst (smartPage c dst) (smartOff c dst) (src.take chunk) buf
    -- without progress the loop of the source does not end either
    if _stuck : chunk = 0 then throw .hang
    else flashSmartWriteLoop fuel stop (dst + BitVec.ofNat 64 chunk) (src.drop chunk)
  else pure ()
termination_by src.length
decreasing_by
  have room : chunk ≤ src.length := by
    show smartChunk c dst src.length ≤ src.length
    simp only [smartChunk]
    split <;> omega
  rw [List.length_drop]
  omega

def flashSmartWrite (fuel : Nat) (dst : Size) (src : List Byte) : Prog σ Unit :=
  let stop := (dst + BitVec.ofNat 64 src.length).setWidth 32
  if stop.setWidth 64 ≤ dst ∨ BitVec.ofNat 64 src.length = 0 ∨ stop > c.tsize then Prog.fail einval
  else flashSmartWriteLoop c fuel stop dst src

end

end Culvert
