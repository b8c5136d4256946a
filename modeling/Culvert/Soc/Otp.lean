import Culvert.Lib.Text
import Culvert.Rev

namespace Culvert

def eacces : Errno := ⟨13, by decide, by decide⟩
def ealready : Errno := ⟨114, by decide, by decide⟩

def otpPasswd : Word := 0x349fe38a
def otpTriggerProgram : Word := 0x23b1e364
def otpTriggerRead : Word := 0x23b1e361
def otpTriggerWriteReg : Word := 0x23b1e362

def otpProtectKey : Word := 0x00
def otpCommand : Word := 0x04
def otpTiming : Word := 0x08
def otpAddr : Word := 0x10
def otpStatus : Word := 0x14
def otpStatusIdle : Word := 0x6
def otpCompare1 : Word := 0x20

def numOtpConf : Nat := 16
def numProgTries : Nat := 16

structure Timespec where
  tvSec : Int
  tvNsec : Int
  deriving DecidableEq, Repr

/-- What the functions on the OTP work in. `clock` and `naps` tell what the calls of
`clock_gettime` and `clock_nanosleep` give, by number; `errno` is what `errno` holds when `scanf`
finds the end of the input. `issued` lists the register writes asked for, latest first. -/
structure OtpEnv (σ : Type) where
  soc : Faulty σ
  issued : List (Word × Word)
  clock : Nat → Timespec
  naps : Nat → Option Errno
  calls : Nat
  stdin : List Char
  errno : Option Errno

/-- One row of `soak_parameters`, with its timing. -/
structure OtpSoak where
  parameters : Vector Word 3
  timing : Word
  deriving DecidableEq, Repr

/-- `struct otp` -/
structure Otp where
  iomem : Word
  soak : Vector OtpSoak 3
  deriving DecidableEq, Repr

/-- The context `otp_driver_init` sets up. -/
def otpDriverInit (stepping : Nat) : Otp :=
  if stepping ≥ 2 then
    ⟨0x1e6f2000, #v[⟨#v[0x0210, 0x2000, 0x0], 0x04190760⟩, ⟨#v[0x1200, 0x107f, 0x1024], 0x04191388⟩,
      ⟨#v[0x1220, 0x2074, 0x08a4], 0x04193a98⟩]⟩
  else
    ⟨0x1e6f2000, #v[⟨#v[0x0, 0x0, 0x0], 0x04190760⟩, ⟨#v[0x4021, 0x302f, 0x4020], 0x04190760⟩,
      ⟨#v[0x4021, 0x1027, 0x4820], 0x041930d4⟩]⟩

namespace OtpEnv
variable {σ : Type}

def clockGettime : Prog (OtpEnv σ) Timespec := fun env =>
  .ok (env.clock env.calls) { env with calls := env.calls + 1 }

/-- The error number of an interrupted sleep, which is positive. -/
def clockNanosleep : Prog (OtpEnv σ) (Option Errno) := fun env =>
  .ok (env.naps env.calls) { env with calls := env.calls + 1 }

def scanf : Prog (OtpEnv σ) (Option (List Char)) := fun env =>
  .ok (Text.scanWord 7 env.stdin).1 { env with stdin := (Text.scanWord 7 env.stdin).2 }

end OtpEnv

section
variable {σ : Type} (bus : Bus σ) (otp : Otp)

def otpReadl (offset : Word) : Prog (OtpEnv σ) Word :=
  Prog.zoom (fun env => env.soc) (fun env soc => { env with soc := soc }) (socReadl bus (otp.iomem + offset))

def otpWritel (offset val : Word) : Prog (OtpEnv σ) Unit := do
  modify fun env => { env with issued := (offset, val) :: env.issued }
  Prog.zoom (fun env => env.soc) (fun env soc => { env with soc := soc }) (socWritel bus (otp.iomem + offset) val)

def diffTimespec (start stop : Timespec) : Timespec :=
  let diff : Timespec := ⟨stop.tvSec - start.tvSec, stop.tvNsec - start.tvNsec⟩
  if diff.tvNsec < 0 then ⟨diff.tvSec - 1, diff.tvNsec + 1000000000⟩ else diff

/-- One poll. The loop ends with 0, with the positive error of the sleep, or goes on. -/
def otpPoll (start : Timespec) : Prog (OtpEnv σ) (Unit ⊕ Nat) := do
  let reg ← otpReadl bus otp otpStatus
  if reg &&& otpStatusIdle = otpStatusIdle then
    return .inr 0
  else
    match ← OtpEnv.clockNanosleep with
    | some e => return .inr e.num
    | none =>
      let stop ← OtpEnv.clockGettime
      let diff := diffTimespec start stop
      if diff.tvSec = 0 ∧ diff.tvNsec < 500000000 then
        return .inl ()
      else
        Prog.fail etimedout

/-- The value is the return code, which is positive when a sleep was cut short. `fuel` bounds the
number of polls. -/
def otpWaitComplete (fuel : Nat) : Prog (OtpEnv σ) Nat := do
  let start ← OtpEnv.clockGettime
  Prog.loop (fun _ => otpPoll bus otp start) fuel ()

variable (fuel : Nat)

/-- The register sequence of `otp_program` and `otp_write_reg`. -/
def otpTrigger (command addr val : Word) : Prog (OtpEnv σ) Nat := do
  otpWritel bus otp otpAddr addr
  otpWritel bus otp otpCompare1 val
  otpWritel bus otp otpCommand command
  otpWaitComplete bus otp fuel

def otpProgram (addr val : Word) : Prog (OtpEnv σ) Nat := otpTrigger bus otp fuel otpTriggerProgram addr val

def otpReadReg (addr : Word) : Prog (OtpEnv σ) Word := do
  otpWritel bus otp otpAddr addr
  otpWritel bus otp otpCommand otpTriggerRead
  let _ ← otpWaitComplete bus otp fuel
  otpReadl bus otp otpCompare1

/-- The OTP address of a configuration word. -/
def otpConfigAddr (offset : Word) : Word := 0x800 ||| offset / 8 * 0x200 ||| offset % 8 * 2

def otpReadConfig (offset : Word) : Prog (OtpEnv σ) Word := otpReadReg bus otp fuel (otpConfigAddr offset)

def otpWriteReg (addr val : Word) : Prog (OtpEnv σ) Nat := otpTrigger bus otp fuel otpTriggerWriteReg addr val

def otpSetSoak (soak : Nat) : Prog (OtpEnv σ) Unit := do
  if h : soak > 2 then
    Prog.fail einval
  else
    have : soak < 3 := by omega
    let _ ← otpWriteReg bus otp fuel 0x3000 otp.soak[soak].parameters[0]
    let _ ← otpWriteReg bus otp fuel 0x5000 otp.soak[soak].parameters[1]
    let _ ← otpWriteReg bus otp fuel 0x1000 otp.soak[soak].parameters[2]
    otpWritel bus otp otpTiming otp.soak[soak].timing

/-- At the end of the input, `errno` decides. -/
def otpConfirm : Prog (OtpEnv σ) Unit := do
  match ← OtpEnv.scanf with
  | none =>
    match (← get).errno with
    | some e => Prog.fail e
    | none => return ()
  | some inp =>
    if Text.cString inp = "YES".toList then return () else Prog.fail einval

/-- One turn of the loop of `otp_write`, with `tries` and, where it ends, the return code. -/
def otpWriteTry (address bitmask : Word) (tries : Nat) : Prog (OtpEnv σ) (Nat ⊕ Nat × Nat) := do
  let readback ← otpReadReg bus otp fuel address
  if readback &&& bitmask ≠ 0 then
    return .inr (tries, 0)
  else
    otpSetSoak bus otp fuel (if tries % 2 ≠ 0 then 1 else 2)
    let rc ← otpProgram bus otp fuel address (~~~bitmask)
    return if tries < numProgTries then .inl (tries + 1) else .inr (tries + 1, rc)

/-- The loop makes at most `numProgTries + 1` turns. -/
def otpWrite (address bitmask : Word) : Prog (OtpEnv σ) Nat := do
  otpSetSoak bus otp fuel 1
  Prog.ensuring (do
      let _ ← otpProgram bus otp fuel address (~~~bitmask)
      let (tries, rc) ← Prog.loop (otpWriteTry bus otp fuel address bitmask) (numProgTries + 1) 0
      if tries = numProgTries then Prog.fail eremoteio else return rc)
    (otpSetSoak bus otp fuel 0)

/-- `body` with the controller unlocked. -/
def otpUnlocked {α : Type} (body : Prog (OtpEnv σ) α) : Prog (OtpEnv σ) α := do
  otpWritel bus otp otpProtectKey otpPasswd
  Prog.ensuring body (otpWritel bus otp otpProtectKey 0)

def otpWriteConf (word bit : Word) : Prog (OtpEnv σ) Nat := do
  if word.toNat ≥ numOtpConf ∨ bit.toNat ≥ 32 then
    Prog.fail einval
  else
    let bitmask := (1 : Word) <<< bit
    otpUnlocked bus otp do
      let conf ← otpReadConfig bus otp fuel word
      if conf &&& bitmask ≠ 0 then
        Prog.fail ealready
      else
        otpConfirm
        otpWrite bus otp fuel (otpConfigAddr word) bitmask

/-- The options of half `word`, from the `i`-th on: their exclusive or, and the first in which the
bit is still clear. -/
def otpStrapOptions (word bitmask : Word) : Nat → Nat → Word × Option Nat → Prog (OtpEnv σ) (Word × Option Nat)
  | 0, _, acc => return acc
  | left + 1, i, (res, f) => do
    let strap ← otpReadConfig bus otp fuel (.ofNat 32 (16 + i * 2) + word)
    otpStrapOptions word bitmask left (i + 1)
      (res ^^^ strap, if f.isNone ∧ strap &&& bitmask = 0 then some i else f)

def otpWriteStrap (bit val : Word) : Prog (OtpEnv σ) Nat := do
  if bit.toNat ≥ 64 ∨ val.toNat > 1 then
    Prog.fail einval
  else
    let word : Word := if bit.toNat > 31 then 1 else 0
    let bitmask := (1 : Word) <<< (if bit.toNat > 31 then bit - 32 else bit)
    otpUnlocked bus otp do
      let protect ← otpReadConfig bus otp fuel (30 + word)
      if protect &&& bitmask ≠ 0 then
        Prog.fail eacces
      else
        match ← otpStrapOptions bus otp fuel word bitmask 6 0 (0, none) with
        | (_, none) => Prog.fail eperm
        | (res, some f) =>
          if res &&& bitmask ≠ 0 ∧ val ≠ 0 ∨ val = 0 ∧ res &&& bitmask = 0 then
            Prog.fail ealready
          else
            otpConfirm
            otpWrite bus otp fuel (otpConfigAddr (.ofNat 32 (16 + f * 2) + word)) bitmask

/-- `enum otp_region` -/
inductive OtpRegion where
  | strap
  | conf
  deriving DecidableEq, Repr

/-- The words of the configuration from `i` on, or those of the strap region. -/
def otpReadWords : List Word → Prog (OtpEnv σ) (List Word)
  | [] => return []
  | offset :: rest => do
    let val ← otpReadConfig bus otp fuel offset
    return val :: (← otpReadWords rest)

/-- The words a region is made of, in the order they are read: for straps, the words protecting
the SCU, the protect words and the options. -/
def otpRegionWords : OtpRegion → List Word
  | .strap => [28, 29, 30, 31, 16, 17, 18, 19, 20, 21, 22, 23, 24, 25, 26, 27]
  | .conf => (List.range numOtpConf).map (.ofNat 32)

/-- The words that `otp_read` prints. -/
def otpRead (region : OtpRegion) : Prog (OtpEnv σ) (List Word) :=
  otpUnlocked bus otp (otpReadWords bus otp fuel (otpRegionWords region))

end

end Culvert
