import Culvert.Ahb
import Culvert.Sio

namespace Culvert

section
variable {σ : Type} (sio : Sio σ)

/-- The four address registers, `addr >> 24` first. -/
def ilpcbSetAddr (addr : Word) : Prog σ Unit :=
  Prog.all [sioWriteb sio 0xf0 (addr.byte 3), sioWriteb sio 0xf1 (addr.byte 2),
    sioWriteb sio 0xf2 (addr.byte 1), sioWriteb sio 0xf3 (addr.byte 0)]

/-- Unlock the SuperIO, select and enable iLPC2AHB, set the access width. -/
def ilpcbSetup (width : Byte) : Prog σ Unit := do
  sioUnlock sio
  sioSelect sio .ilpc
  sioWriteb sio 0x30 0x01
  sioWriteb sio 0xf8 width

def ilpcbReadLoop : Word → Nat → Prog σ (List Byte)
  | _, 0 => pure []
  | addr, remaining + 1 => do
    ilpcbSetAddr sio addr
    let _ ← sioReadb sio 0xfe
    let b ← sioReadb sio 0xf7
    let rest ← ilpcbReadLoop (addr + 1) remaining
    pure (b :: rest)

def ilpcbRead (addr : Word) (len : Nat) : Prog σ (List Byte) := do
  if len > ssizeMax then Prog.fail eperm
  orMinusOne <| Prog.ensuring (do ilpcbSetup sio 0; ilpcbReadLoop sio addr len) (sioLock sio)

/-- The loop of `ilpcb_write`: the address registers are set from the same `addr` each time. -/
def ilpcbWriteLoop (addr : Word) : List Byte → Prog σ Unit
  | [] => pure ()
  | b :: rest => do
    ilpcbSetAddr sio addr
    sioWriteb sio 0xf7 b
    sioWriteb sio 0xfe 0xcf
    ilpcbWriteLoop addr rest

def ilpcbWrite (addr : Word) (buf : List Byte) : Prog σ Unit := do
  if buf.length > ssizeMax then Prog.fail eperm
  orMinusOne <| Prog.ensuring (do ilpcbSetup sio 0; ilpcbWriteLoop sio addr buf) (sioLock sio)

def ilpcbReadl (addr : Word) : Prog σ Word :=
  Prog.ensuring (do
    ilpcbSetup sio 2
    ilpcbSetAddr sio addr
    let _ ← sioReadb sio 0xfe
    let (((b₃, b₂), b₁), b₀) ← (((sioReadb sio 0xf4).also (sioReadb sio 0xf5)).also (sioReadb sio 0xf6)).also
      (sioReadb sio 0xf7)
    pure (Word.ofBytes b₀ b₁ b₂ b₃)) (sioLock sio)

def ilpcbWritel (addr val : Word) : Prog σ Unit :=
  Prog.ensuring (do
    ilpcbSetup sio 2
    ilpcbSetAddr sio addr
    Prog.all [sioWriteb sio 0xf4 (val.byte 3), sioWriteb sio 0xf5 (val.byte 2),
      sioWriteb sio 0xf6 (val.byte 1), sioWriteb sio 0xf7 (val.byte 0)]
    sioWriteb sio 0xfe 0xcf) (sioLock sio)

/-- The operations of `ilpcb_ops`. -/
def ilpcbCall : MemOp → Prog σ MemReply
  | .read addr len => do return .bytes (← ilpcbRead sio addr len)
  | .write addr buf => do ilpcbWrite sio addr buf; return .done
  | .readl addr => do return .word (← ilpcbReadl sio addr)
  | .writel addr val => do ilpcbWritel sio addr val; return .done

end

end Culvert
