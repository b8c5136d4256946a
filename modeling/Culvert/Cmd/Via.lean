import Culvert.Ahb
import Culvert.Cmd.Argp
import Culvert.Lib.Text

namespace Culvert

def enoent : Errno := ⟨2, by decide, by decide⟩

/-- `struct bridge_driver`, of which a connection names one, and whether it has been disabled. -/
structure BridgeDriver where
  name : String
  pathRequired : Bool
  disabled : Bool
  deriving DecidableEq, Repr

/-- `struct connection_args` -/
structure ConnectionArgs where
  bridgeDriver : Option BridgeDriver
  interface : Option String
  ip : Option String
  port : Word
  username : Option String
  password : Option String
  internetArgs : Bool
  deriving DecidableEq, Repr

/-- A cleared `struct connection_args`. -/
def connectionArgs : ConnectionArgs := ⟨none, none, none, 0, none, none, false⟩

/-- `drivers` are the registered ones. -/
def getBridgeDriver (drivers : List BridgeDriver) (drv : String) : Except Errno BridgeDriver :=
  match drivers.find? fun driver => driver.name = drv ∧ ¬ driver.disabled with
  | none => .error enoent
  | some driver => .ok driver

/-- `words` are those after the `via`. -/
def cmdParseVia (drivers : List BridgeDriver) (words : List String) (args : ConnectionArgs) :
    Except Errno ConnectionArgs :=
  match words with
  | [drv] => do
    let driver ← getBridgeDriver drivers drv
    if driver.pathRequired then .error einval
    else return { args with bridgeDriver := some driver }
  | [drv, interface] => do
    let driver ← getBridgeDriver drivers drv
    return { args with bridgeDriver := some driver, interface := some interface }
  | [drv, interface, ip, port, username, password] => do
    let driver ← getBridgeDriver drivers drv
    return { args with
      bridgeDriver := some driver
      interface := some interface
      ip := some ip
      port := .ofNat 32 (Text.strtoul 0 port.toList).1
      username := some username
      password := some password
      internetArgs := true }
  | _ => .error einval

/-- The branch for `via` that the parsers of the commands share. -/
def argpVia (drivers : List BridgeDriver) (rest : List String) (args : ConnectionArgs) : Except String ConnectionArgs :=
  match cmdParseVia drivers rest args with
  | .ok args => .ok args
  | .error e => .error s!"Failed to parse connection arguments. Returned code {e.code}"

/-- The words of a command line are `m` and `n`, in one of the forms that `strtoul` takes. -/
def Numerals (first second : String) (m n : Nat) : Prop :=
  Text.strtoul 0 first.toList = (m, []) ∧ Text.strtoul 0 second.toList = (n, [])

theorem numeral_ne_via {word : String} {m : Nat} (number : Text.strtoul 0 word.toList = (m, [])) : word ≠ "via" := by
  rintro rfl
  have left : (Text.strtoul 0 "via".toList).2 = [] := congrArg Prod.snd number
  exact absurd left (by decide)

end Culvert
