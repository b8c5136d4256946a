import Culvert.AhbSiphon
import Culvert.Lib.Bits
import Culvert.Lib.Ends

namespace Culvert

/-- `GENMASK`, which is an `unsigned long`. -/
def genmask (h l : Nat) : Size := ((1 : Size) <<< h ||| (1 : Size) <<< h - 1) &&& ~~~((1 : Size) <<< l - 1)

def rAhbcBcrCsr : Word := 0x40
def rAhbcBcrBuf : Word := 0x44
def rAhbcBcrFifoMerge : Word := 0x5c
def ahbcBcrBufWrap : Word := 0x1

def ahbcBcrCsrBufLenMask : Word := 0x700
def ahbcBcrCsrBufLenShift : Nat := 8

/-- The table `ahbc_bcr_buf_len`. -/
def ahbcBcrBufLens : List Size :=
  [4 * 1024, 8 * 1024, 16 * 1024, 32 * 1024, 128 * 1024, 256 * 1024, 512 * 1024, 1024 * 1024]

def ahbcBcrBufLen (bufLen : Word) : Size := ahbcBcrBufLens.getD bufLen.toNat 0

/-- `struct ahb_ops`, but for the write of a word. -/
structure AhbReadlOps (σ : Type) extends AhbOps σ where
  readl : Word → Prog σ Word

section
variable {σ : Type} (ops : AhbReadlOps σ) (ahbc : Word)

def ahbcReadl (off : Word) : Prog (Siphon σ) Word := Siphon.onAhb (ops.readl (ahbc + off))

/-- `soc_siphon_out`, whose length is unsigned. -/
def socSiphonOut (fuel : Nat) (phys : Word) (len : Size) : Prog (Siphon σ) Unit :=
  ahbSiphonOut ops.toAhbOps fuel phys len.toInt

/-- The offset of the next entry in the buffer. -/
def traceWritePtr (bufLen buf : Word) : Word := (buf.setWidth 64 &&& genmask (11 + bufLen.toNat) 2).setWidth 32

def traceBase (bufLen buf : Word) : Word := buf &&& ~~~(traceWritePtr bufLen buf ||| 3)

def traceDump (fuel : Nat) : Prog (Siphon σ) Unit := do
  let csr ← ahbcReadl ops ahbc rAhbcBcrCsr
  let reg ← ahbcReadl ops ahbc rAhbcBcrBuf
  let _ ← Prog.attempt (ahbcReadl ops ahbc rAhbcBcrFifoMerge)
  let buf := reg &&& ~~~ahbcBcrBufWrap
  let bufLen := (csr &&& ahbcBcrCsrBufLenMask) >>> ahbcBcrCsrBufLenShift
  let writePtr := traceWritePtr bufLen buf
  let base := traceBase bufLen buf
  if reg &&& ahbcBcrBufWrap ≠ 0 then
    socSiphonOut ops fuel buf (base.setWidth 64 + ahbcBcrBufLen bufLen - writePtr.setWidth 64)
  socSiphonOut ops fuel base ((buf - base).setWidth 64)

end

end Culvert
