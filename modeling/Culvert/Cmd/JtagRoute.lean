import Culvert.Cmd.JtagServer
import Culvert.Cmd.ViaCommands
import Culvert.Lib.Bits

/-! Where `jtag` routes the pins. -/

namespace Culvert
open Prog

section
variable {drivers : List BridgeDriver} {items : List ArgpItem} {argNum : Nat} {arguments result : CmdArgs CmdJtagOwn}

end

section
variable {start : Word} {fuel : Nat}

end

end Culvert
