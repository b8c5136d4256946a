import Culvert.Cmd.Via
import Culvert.Soc.Otp

namespace Culvert

/-- `struct cmd_otp_args` -/
structure CmdOtpArgs where
  connection : ConnectionArgs
  region : OtpRegion
  read : Bool
  key : Word
  value : Word
  deriving DecidableEq, Repr

/-- Cleared, as `do_otp` starts. -/
def cmdOtpArgs : CmdOtpArgs := ⟨connectionArgs, .strap, false, 0, 0⟩

/-- The fourth word is stored where the third one was. -/
def cmdOtpParseOpt (drivers : List BridgeDriver) (key : ArgpKey) (arguments : CmdOtpArgs) : Except String CmdOtpArgs :=
  match key with
  | .arg "via" _ rest => do
    let connection ← argpVia drivers rest arguments.connection
    return { arguments with connection := connection }
  | .arg arg 0 _ =>
    if arg ≠ "conf" ∧ arg ≠ "strap" then .error s!"Invalid region '{arg}'"
    else .ok { arguments with region := if arg = "conf" then .conf else .strap }
  | .arg arg 1 _ =>
    if arg ≠ "read" ∧ arg ≠ "write" then .error s!"Invalid command '{arg}'"
    else .ok { arguments with read := arg = "read" }
  | .arg arg 2 _ => .ok { arguments with key := .ofNat 32 (Text.strtoul 0 arg.toList).1 }
  | .arg arg 3 _ => .ok { arguments with key := .ofNat 32 (Text.strtoul 0 arg.toList).1 }
  | .arg _ _ _ => .ok arguments
  | .finish argNum =>
    if argNum < 2 then .error "Not enough arguments"
    else if ¬ arguments.read ∧ argNum < 4 then .error "Not enough arguments for write"
    else .ok arguments

/-- What `do_otp` asks of the controller. -/
inductive OtpRequest where
  | read (region : OtpRegion)
  | writeStrap (bit val : Word)
  | writeConf (word bit : Word)
  deriving DecidableEq, Repr

def CmdOtpArgs.request (arguments : CmdOtpArgs) : OtpRequest :=
  if arguments.read then .read arguments.region
  else match arguments.region with
    | .strap => .writeStrap arguments.key arguments.value
    | .conf => .writeConf arguments.key arguments.value

/-- What the parts outside of the OTP code return: `host_init`, `host_get_ahb`, `soc_align_fdt` and
`otp_get`, with `true` for a pointer that is not null. -/
structure OtpHost where
  init : Except Errno Unit
  ahb : Bool
  align : Except Errno Unit
  controller : Bool

section
variable {σ : Type} (bus : Bus σ) (otp : Otp) (fuel : Nat)

def otpRequest : OtpRequest → Prog (OtpEnv σ) Nat
  | .read region => do
    let _ ← otpRead bus otp fuel region
    return 0
  | .writeStrap bit val => otpWriteStrap bus otp fuel bit val
  | .writeConf word bit => otpWriteConf bus otp fuel word bit

/-- `do_otp` after its arguments. The value is the return code. -/
def doOtp (host : OtpHost) (request : OtpRequest) : Prog (OtpEnv σ) Nat := do
  Prog.ofExcept host.init
  if host.ahb then
    let rev ← Prog.zoom (fun env => env.soc) (fun env soc => { env with soc := soc }) (socFromRev bus host.align)
    if revGeneration rev = some .g6 ∧ host.controller then
      otpRequest bus (otpDriverInit (revStepping rev)) fuel request
    else
      return 1
  else
    return 1

/-- The whole command, on the words after its name. A failing `argp_error` exits with 64. -/
def cmdOtp (drivers : List BridgeDriver) (host : OtpHost) (words : List String) : Prog (OtpEnv σ) Nat :=
  match ArgpKey.parse (cmdOtpParseOpt drivers) words cmdOtpArgs with
  | .error _ => return 64
  | .ok arguments => doOtp bus fuel host arguments.request

end

end Culvert
