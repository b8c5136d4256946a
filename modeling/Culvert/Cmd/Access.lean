import Culvert.Bridge.DevmemFlat
import Culvert.Bridge.DumpShell
import Culvert.Bridge.IlpcFlat
import Culvert.Bridge.P2aFlat
import Culvert.Bridge.Siphoned
import Culvert.Cmd.Ram
import Culvert.Cmd.ViaCommands

/-! The commands that access an address through one bridge: `ilpc`, `p2a` and `devmem`. -/

namespace Culvert
open Prog

/-- `struct ast_ahb_args` -/
structure AstAhbArgs where
  readLength : Option Word
  writeValue : Option Word
  address : Word
  read : Bool
  deriving DecidableEq, Repr

/-- What an access runs in. -/
structure Access (σ : Type) where
  ahb : σ
  stdin : Fd
  stdout : Fd
  memory : Bool
  printed : List Char

namespace Access
variable {σ α : Type}

def onAhb (m : Prog σ α) : Prog (Access σ) α := zoom (·.ahb) (fun s ahb => { s with ahb }) m

def onStdout (m : Prog (Siphon σ) α) : Prog (Access σ) α :=
  zoom (fun s => ⟨s.ahb, s.stdout, s.memory⟩) (fun s t => { s with ahb := t.ahb, stdout := t.fd, memory := t.memory }) m

def onStdin (m : Prog (Siphon σ) α) : Prog (Access σ) α :=
  zoom (fun s => ⟨s.ahb, s.stdin, s.memory⟩) (fun s t => { s with ahb := t.ahb, stdin := t.fd, memory := t.memory }) m

def printf (text : List Char) : Prog (Access σ) Unit := modify fun s => { s with printed := s.printed ++ text }

end Access

/-- `0x%08x: 0x%08x` -/
def accessLine (address data : Word) : List Char :=
  ['0', 'x'] ++ hexWord address ++ [':', ' ', '0', 'x'] ++ hexWord data ++ ['\n']

section
variable {σ : Type} (call : MemOp → Prog σ MemReply)

def astAhbAccess (fuel : Nat) (args : AstAhbArgs) : Prog (Access σ) Unit := do
  if args.read then
    let len : Size := (args.readLength.getD 4).setWidth 64
    if len > 4 then
      Access.onStdout (ahbSiphonOut (callOps call) fuel args.address len.toInt)
    else
      let data ← Access.onAhb (callReadl call args.address)
      Access.printf (accessLine args.address data)
  else
    match args.writeValue with
    | some val => Access.onAhb (callWritel call args.address val)
    | none => Access.onStdin (ahbSiphonIn (callOps call) fuel args.address (-1))

end

/-! The command lines. -/

/-- A word of the command line. `p2a` has one for the device before. -/
def accessWord (invalid : String → String) (argNum : Nat) (arg : String) (args : AstAhbArgs) : Except String AstAhbArgs :=
  match argNum with
  | 0 =>
    if arg ≠ "read" ∧ arg ≠ "write" then .error (invalid arg)
    else .ok (if arg = "read" then { args with read := true } else args)
  | 1 => .ok { args with address := wordArg arg }
  | 2 => .ok (if args.read then args else { args with writeValue := some (wordArg arg) })
  | _ => .ok args

/-- The checks at the end of the command line. -/
def accessEnd (few : String) (argNum : Nat) (args : AstAhbArgs) : Except String AstAhbArgs :=
  if argNum < 2 then .error few
  else if ¬ args.read ∧ argNum < 3 then .error "Write mode detected but either no address or value detected"
  else .ok args

def astAhbArgs : AstAhbArgs := ⟨none, none, 0, false⟩

def cmdIlpcParseOpt : ArgpKey → AstAhbArgs → Except String AstAhbArgs
  | .arg arg argNum _, args => accessWord (fun arg => s!"Invalid command '{arg}'") argNum arg args
  | .finish argNum, args => accessEnd "Not enough arguments provided. Need at least an address." argNum args

def cmdDevmemParseOpt : ArgpKey → AstAhbArgs → Except String AstAhbArgs
  | .arg arg argNum _, args => accessWord (fun arg => s!"Invalid command '{arg}'") argNum arg args
  | .finish argNum, args => accessEnd "Not enough arguments provided. Need at least an address." argNum args

/-- `struct cmd_p2a_args` -/
structure CmdP2aArgs where
  ahbArgs : AstAhbArgs
  deviceId : BitVec 16
  deriving DecidableEq, Repr

def astPciDidVga : BitVec 16 := 0x2000
def astPciDidBmc : BitVec 16 := 0x2402

def cmdP2aParseOpt : ArgpKey → CmdP2aArgs → Except String CmdP2aArgs
  | .arg arg 0 _, args =>
    match arg with
    | "vga" => .ok { args with deviceId := astPciDidVga }
    | "bmc" => .ok { args with deviceId := astPciDidBmc }
    | _ => .error s!"Invalid PCIe device '{arg}'"
  | .arg arg (argNum + 1) _, args => do
    let ahbArgs ← accessWord (fun arg => s!"Invalid operation '{arg}'") argNum arg args.ahbArgs
    return { args with ahbArgs }
  | .finish argNum, args => do
    let ahbArgs ← accessEnd "Not enough arguments provided. Need the device type, the operation and an address."
      (argNum - 1) args.ahbArgs
    return { args with ahbArgs }

/-! The commands. -/

/-- What `argp_error` exits with. -/
def exUsage : Int := 64

section
variable {σ : Type}

/-- Open the bridge, access it and close it again, with what `closed` makes of an error of the last. A failing
access exits, and closes nothing. -/
def doAccess (call : MemOp → Prog σ MemReply) (init destroy : Prog σ Unit) (closed : Errno → Int) (fuel : Nat)
    (args : AstAhbArgs) : Prog (Access σ) Int := do
  match ← attempt (Access.onAhb init) with
  | .error e => return e.code
  | .ok () =>
    match ← attempt (astAhbAccess call fuel args) with
    | .error _ => return exitFailure
    | .ok () =>
      match ← attempt (Access.onAhb destroy) with
      | .error e => return closed e
      | .ok () => return 0

end

/-- `lpc_init` and `lpc_destroy` are given by what they return. `rc` is 0 where the latter fails. -/
def doIlpc (lpcInit lpcDestroy : Except Errno Unit) (fuel : Nat) (words : List String) :
    Prog (Access (Faulty SuperIo)) Int :=
  match ArgpKey.parse cmdIlpcParseOpt words astAhbArgs with
  | .error _ => pure exUsage
  | .ok args =>
    doAccess (ilpcbCall (superIo 0x2e)) (ofExcept lpcInit) (ofExcept lpcDestroy) (fun _ => 0) fuel args

def p2abLock : Prog P2ab Unit := p2abRegWritel p2abPkr 0

/-- `munmap` and `pci_close` are given by what they return. -/
def p2abDestroy (munmap pciClose : Except Errno Unit) : Prog P2ab Unit := do
  p2abLock
  ofExcept munmap
  ofExcept pciClose

/-- The system calls of `p2ab_init` and `p2ab_destroy`. -/
structure P2abHost where
  pciOpen : BitVec 16 → Except Errno Unit
  mmap : Except Errno Nat
  munmap : Except Errno Unit
  pciClose : Except Errno Unit

def doP2a (host : P2abHost) (buf fuel : Nat) (words : List String) : Prog (Access P2ab) Int :=
  match ArgpKey.parse cmdP2aParseOpt words ⟨astAhbArgs, 0⟩ with
  | .error _ => pure exUsage
  | .ok args =>
    doAccess (p2abCall buf) (p2abInit (host.pciOpen args.deviceId) host.mmap) (p2abDestroy host.munmap host.pciClose)
      Errno.code fuel args.ahbArgs

/-- The window that is left open is no matter where asserts are not checked. Errors of `munmap` and `close` are dropped. -/
def devmemDestroy (ndebug : Bool) : Prog Devmem Unit := do
  let ctx ← get
  if ctx.win.isSome ∧ ¬ ndebug then throw .fault
  let _ ← attempt (Devmem.munmap ctx.io astSocIoLen.toNat)

def doDevmem (pgsize : Size) (opened : Except Errno Unit) (ndebug : Bool) (buf fuel : Nat) (words : List String) :
    Prog (Access Devmem) Int :=
  match ArgpKey.parse cmdDevmemParseOpt words astAhbArgs with
  | .error _ => pure exUsage
  | .ok args => doAccess (devmemCall buf) (devmemInit pgsize opened) (devmemDestroy ndebug) Errno.code fuel args

end Culvert
