import Culvert.Cmd.Session
import Culvert.Flash.Init

namespace Culvert

/-- `SFC_FLASH_WIN`. -/
def sfcFlashWin : Nat := 0x10000

/-- What a `read` of stdin returns before the end of the file: some bytes, at most as many as are asked
for, or an error. -/
inductive StdinRead where
  | bytes (buf : List Byte) (some : buf ≠ []) (room : buf.length ≤ sfcFlashWin)
  | error (e : Errno)

section
variable {σ : Type} (fuel : Nat) (chip : FlashChip (Faulty σ))

/-- One turn of the loop that repeats a write whose verification fails. -/
def writeChunkTurn (phys : Word) (buf : List Byte) (_ : Unit) : Prog (Faulty σ) (Unit ⊕ Unit) := do
  flashErase chip fuel (phys.setWidth 64) (BitVec.ofNat 64 buf.length)
  match ← Prog.attempt (flashWrite chip fuel phys buf true) with
  | .ok () => return .inr ()
  | .error e => if e = eremoteio then return .inl () else Prog.fail e

def writeChunk (phys : Word) (buf : List Byte) : Prog (Faulty σ) Unit :=
  Prog.loop (writeChunkTurn fuel chip phys buf) fuel ()

/-- The loop over stdin. After a short read it is left with the 0 that `rc` holds. -/
def writeStdin : Word → List StdinRead → Prog (Faulty σ) Unit
  | _, [] => pure ()
  | _, .error e :: _ => Prog.fail e
  | phys, .bytes buf _ _ :: rest =>
    if buf.length < sfcFlashWin then pure ()
    else do
      writeChunk fuel chip phys buf
      writeStdin (phys + BitVec.ofNat 32 buf.length) rest

end

section
variable {σ : Type} (bus : Bus σ) (gen : AstGeneration) (host : CmdHost σ)

/-- The parts of the flash subsystem: the accesses of the controller's driver when it is initialised, and
its callbacks. -/
structure FlashParts (σ : Type) where
  initDevice : Prog (Faulty σ) Unit
  ctrl : Sfc (Faulty σ)

/-- `flash_init` with its two allocations. -/
def sessionFlashInit (fuel : Nat) (ctrl : Sfc (Faulty σ)) : Prog (Session σ) (FlashChip (Faulty σ)) := do
  Session.malloc
  let c ← Session.onSoc (flashIdentify fuel ctrl)
  Session.malloc
  Session.onSoc (flashConfigure fuel c)

/-- The BMC is kept from resetting and from running. -/
def firmwareQuiesce : Prog (Session σ) Unit :=
  if host.isLocal then pure ()
  else do
    wdtPreventReset bus gen
    armDisable bus gen
    Session.onSoc (vuartSetHostTxDiscard bus true)

def firmwareFlash (parts : FlashParts σ) (fuel : Nat) (stdin : List StdinRead) : Prog (Session σ) Unit := do
  if ← sfcGetByName bus gen parts.initDevice then
    let chip ← sessionFlashInit fuel parts.ctrl
    Session.malloc
    Session.onSoc (writeStdin fuel chip 0 stdin)
  else Prog.fail enodev

/-- `cmd_write_firmware` from the first access to the BMC to `cleanup_state`. The value is `rc`. -/
def firmwareWrite (parts : FlashParts σ) (fuel : Nat) (stdin : List StdinRead) :
    Prog (Session σ) (Except Errno Unit) := Prog.attempt do
  firmwareQuiesce bus gen host
  firmwareFlash bus gen parts fuel stdin

/-- From `cleanup_state` on. -/
def firmwareCleanup : Except Errno Unit → Prog (Session σ) Unit
  | .ok () =>
    if host.isLocal then pure ()
    else do
      if ← wdtGetByName bus gen .wdt2 then wdtPerformReset bus gen host .wdt2
      else Prog.fail enodev
  | .error e => do
    let _ ← Prog.attempt (Session.onSoc (vuartSetHostTxDiscard bus false))
    let _ ← Prog.attempt (armEnable bus gen)
    Prog.fail e

end

section
variable {σ : Type} (bus : Bus σ) (host : CmdHost σ)

/-- The host, the SoC and the controllers that are needed in any case. -/
def firmwareOpen : Prog (Session σ) AstGeneration := do
  let gen ← socOpen bus host
  if ← clkGet bus gen then
    if ← vuartGetByName gen then pure gen else Prog.fail enodev
  else Prog.fail enodev

def cmdWriteFirmware (parts : FlashParts σ) (fuel : Nat) (stdin : List StdinRead) : Prog (Session σ) Unit := do
  let gen ← firmwareOpen bus host
  let rc ← firmwareWrite bus gen host parts fuel stdin
  firmwareCleanup bus gen host rc

end

end Culvert
