import Culvert.Cmd.Session

namespace Culvert

section
variable {σ : Type} (bus : Bus σ) (host : CmdHost σ)

/-- The ARM is ungated after an error, also where it was not gated. -/
def resetRecover (gen : AstGeneration) (rc : Except Errno Unit) : Prog (Session σ) Nat :=
  match rc with
  | .ok () => return 0
  | .error e => do
    let _ ← Prog.attempt (armEnable bus gen)
    Prog.fail e

/-- The reset itself, where its two steps share a label for their errors. -/
def resetSoc (gen : AstGeneration) (wdt : Wdt) : Prog (Session σ) Nat := do
  if host.isLocal then pure () else armDisable bus gen
  let rc ← Prog.attempt do
    wdtPreventReset bus gen
    wdtPerformReset bus gen host wdt
  resetRecover bus gen rc

/-- `do_reset` after its arguments, with the watchdog that the name on the command line stands for. The
value is the return code, which is 0 where a controller is not found. -/
def doReset (wdt : Option Wdt) : Prog (Session σ) Nat := do
  Prog.ofExcept host.init
  if host.ahb then
    let rev ← Session.onSoc (socFromRev bus host.align)
    match revGeneration rev with
    | none => Prog.fail enotsup
    | some gen =>
      if ← clkGet bus gen then
        match wdt with
        | none => return 0
        | some wdt =>
          if ← wdtGetByName bus gen wdt then resetSoc bus host gen wdt else return 0
      else return 0
  else return 1

end

end Culvert
