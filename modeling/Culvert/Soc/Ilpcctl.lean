import Culvert.Soc.Bridgectl
import Culvert.Soc.Bridges
import Culvert.Soc.Sioctl

namespace Culvert

def lpcHicrb : Word := 0x100
def lpcHicrbIlpcDis : Word := 1 <<< 29
def lpcHicrbIlpcRo : Word := 1 <<< 6

/-- The gate exists on the AST2600. -/
structure Ilpcctl where
  lpc : Word
  gen : AstGeneration
  gate : Option (Bridges × Int)
  deriving DecidableEq, Repr

section
variable {σ : Type} (bus : Bus σ) (ctx : Ilpcctl)

def ast2400IlpcctlEnforce (mode : BridgeMode) : Prog (Faulty σ) Unit := do
  if mode = .disabled then
    sioctlDecodeConfigure bus ctx.gen .disable
  else
    let hicrb ← socReadl bus (ctx.lpc + lpcHicrb)
    socWritel bus (ctx.lpc + lpcHicrb)
      (if mode = .restricted then hicrb ||| lpcHicrbIlpcRo else hicrb &&& ~~~lpcHicrbIlpcRo)
    sioctlDecodeConfigure bus ctx.gen .at2e

def ast2600IlpcctlEnforce (bridges : Bridges) (gate : Int) (mode : BridgeMode) : Prog (Faulty σ) Unit := do
  let hicrb ← socReadl bus (ctx.lpc + lpcHicrb)
  socWritel bus (ctx.lpc + lpcHicrb) (match mode with
    | .permissive => hicrb &&& ~~~(lpcHicrbIlpcDis ||| lpcHicrbIlpcRo)
    | .restricted => hicrb &&& ~~~lpcHicrbIlpcDis ||| lpcHicrbIlpcRo
    | .disabled => hicrb ||| lpcHicrbIlpcDis)
  if mode = .permissive ∨ mode = .restricted then
    bridgesEnable bus bridges gate
    sioctlDecodeConfigure bus ctx.gen .at2e

def ilpcctlEnforce (mode : BridgeMode) : Prog (Faulty σ) Unit :=
  match ctx.gate with
  | none => ast2400IlpcctlEnforce bus ctx mode
  | some (bridges, gate) => ast2600IlpcctlEnforce bus ctx bridges gate mode

def ast2400IlpcctlStatus : Prog (Faulty σ) BridgeMode := do
  let decode ← sioctlDecodeStatus bus ctx.gen
  if decode = .disable then
    return .disabled
  else
    let hicrb ← socReadl bus (ctx.lpc + lpcHicrb)
    return if hicrb &&& lpcHicrbIlpcRo ≠ 0 then .restricted else .permissive

def ast2600IlpcctlStatus (bridges : Bridges) (gate : Int) : Prog (Faulty σ) BridgeMode := do
  let decode ← sioctlDecodeStatus bus ctx.gen
  if decode = .disable then
    return .disabled
  else
    let ungated ← bridgesStatus bus bridges gate
    if ungated then
      let hicrb ← socReadl bus (ctx.lpc + lpcHicrb)
      return if hicrb &&& lpcHicrbIlpcDis ≠ 0 then .disabled
        else if hicrb &&& lpcHicrbIlpcRo ≠ 0 then .restricted else .permissive
    else
      return .disabled

def ilpcctlStatus : Prog (Faulty σ) BridgeMode :=
  match ctx.gate with
  | none => ast2400IlpcctlStatus bus ctx
  | some (bridges, gate) => ast2600IlpcctlStatus bus ctx bridges gate

/-- What `ilpcctl_report` does after logging the status. -/
def ilpcctlDetails (mode : BridgeMode) : Prog (Faulty σ) Unit := do
  if mode ≠ .disabled then
    let _ ← sioctlDecodeStatus bus ctx.gen

end

/-- The gate, where there is one, is one of the controller. -/
def Ilpcctl.Wired (ctx : Ilpcctl) : Prop := ∀ bridges gate, ctx.gate = some (bridges, gate) →
  ∃ desc, bridges.desc gate = .ok desc

namespace Ilpcctl
variable (ctx : Ilpcctl) (regs : Regs)

def Ungated : Prop :=
  match ctx.gate with
  | none => True
  | some (bridges, gate) =>
    match bridges.desc gate with
    | .error _ => False
    | .ok desc => desc.Ungated bridges.scu regs

instance : Decidable (ctx.Ungated regs) := by
  unfold Ungated
  split
  · exact instDecidableTrue
  · split
    · exact instDecidableFalse
    · infer_instance

/-- The AST2600 has a bit to turn the bridge off. -/
def Off : Prop := ctx.gate.isSome ∧ regs (ctx.lpc + lpcHicrb) &&& lpcHicrbIlpcDis ≠ 0

instance : Decidable (ctx.Off regs) := inferInstanceAs (Decidable (_ ∧ _))

def mode : BridgeMode :=
  if sioctlDecode ctx.gen regs = .disable ∨ ¬ ctx.Ungated regs ∨ ctx.Off regs then .disabled
  else if regs (ctx.lpc + lpcHicrb) &&& lpcHicrbIlpcRo ≠ 0 then .restricted else .permissive

end Ilpcctl

open Faulty in
theorem ilpcctlStatus_observes {ctx : Ilpcctl} (wired : ctx.Wired) : Observes (ilpcctlStatus regBus ctx) ctx.mode := by
  unfold ilpcctlStatus
  cases gate : ctx.gate with
  | none =>
    have ungated (regs : Regs) : ctx.Ungated regs := by
      unfold Ilpcctl.Ungated
      rw [gate]
      exact True.intro
    refine Observes.congr ((sioctlDecodeStatus_observes ctx.gen).bind fun decode =>
      Observes.ite (.pure _) ((socReadl_observes _).bind fun hicrb => .pure _)) fun regs => ?_
    unfold Ilpcctl.mode Ilpcctl.Off
    simp only [ungated, gate, not_true_eq_false, Option.isSome_none, Bool.false_eq_true, false_and, or_false]
  | some found =>
    obtain ⟨bridges, id⟩ := found
    obtain ⟨desc, known⟩ := wired bridges id gate
    have ungated (regs : Regs) : ctx.Ungated regs ↔ desc.Ungated bridges.scu regs := by
      unfold Ilpcctl.Ungated
      rw [gate]
      simp only [known]
    refine Observes.congr ((sioctlDecodeStatus_observes ctx.gen).bind fun decode =>
      Observes.ite (.pure _) ((bridgesStatus_observes known).bind fun status =>
        Observes.ite ((socReadl_observes _).bind fun hicrb => .pure _) (.pure _))) fun regs => ?_
    unfold Ilpcctl.mode Ilpcctl.Off
    simp only [ungated, gate, Option.isSome_some, true_and, decide_eq_true_eq]
    by_cases closed : sioctlDecode ctx.gen regs = .disable
    · simp only [closed, if_true, true_or]
    · by_cases shut : desc.Ungated bridges.scu regs
      · simp only [closed, shut, if_true, if_false, not_true_eq_false, false_or]
      · simp only [closed, shut, if_true, if_false, not_false_eq_true, false_or, true_or]

end Culvert
