import Culvert.Soc.Pciectl

namespace Culvert
open Faulty

/-- The gate in front of an endpoint. -/
def Pciectl.gateDesc (ctx : Pciectl) (bridges : Bridges) (ep : PciectlEndpoint) : Except Errno BridgeGateDesc := do
  let id ← bridgesDeviceGetGateByName ctx.gates ep.gate
  bridges.desc id

/-- The controller has every gate that an endpoint names, and a bit turns off each function. -/
structure Pciectl.Wired (ctx : Pciectl) : Prop where
  gates : ∀ bridges, ctx.bridges = some bridges → ∀ ep ∈ ctx.pdata.endpoints, ∃ desc,
    ctx.gateDesc bridges ep = .ok desc
  functions : ∀ ep ∈ ctx.pdata.endpoints, ep.functionMask ≠ 0

theorem pciectl_wired (gen : AstGeneration) : (pciectl gen).Wired := by
  constructor
  · intro bridges some ep mem
    cases gen
    · cases some
    · cases some
    · cases some
      have known : ep ∈ ast2600PcieBridges := mem
      simp only [ast2600PcieBridges, List.mem_cons, List.not_mem_nil, or_false] at known
      rcases known with rfl | rfl | rfl | rfl
      all_goals exact ⟨_, rfl⟩
  · cases gen <;> decide

/-- A function that is turned off stays off as others are turned off. -/
theorem PciectlEndpoint.cleared_cons {function : DeviceFunction} {curr : PciectlEndpoint} {rest : List PciectlEndpoint}
    {keep : Word} (cleared : ∀ ep ∈ rest, ep.function = function → keep &&& ep.functionMask = 0) :
    ∀ ep ∈ curr :: rest, ep.function = function → ~~~curr.functionMask &&& keep &&& ep.functionMask = 0 := by
  rw [List.forall_mem_cons]
  refine ⟨fun _ => ?_, fun ep mem again => ?_⟩
  · rw [BitVec.and_assoc, BitVec.and_comm keep, ← BitVec.and_assoc, BitVec.and_comm (~~~_), BitVec.and_not_self]
    exact BitVec.zero_and
  · rw [BitVec.and_assoc, cleared ep mem again]
    exact BitVec.and_zero

namespace Pciectl
variable (ctx : Pciectl) (ep : PciectlEndpoint) (regs : Regs)

/-- The gate in front of the endpoint, if any, is open. -/
def Ungated : Prop :=
  match ctx.bridges with
  | none => True
  | some bridges =>
    match ctx.gateDesc bridges ep with
    | .error _ => False
    | .ok desc => desc.Ungated bridges.scu regs

instance : Decidable (ctx.Ungated ep regs) := by
  unfold Ungated
  split
  · exact instDecidableTrue
  · split
    · exact instDecidableFalse
    · infer_instance

/-- The endpoint's device and function are on. -/
def Enabled : Prop := regs (ctx.scu + ctx.pdata.config) &&& (ep.deviceMask ||| ep.functionMask) =
  ep.deviceMask ||| ep.functionMask

/-- All regions that the endpoint can reach are read-only. -/
def ReadOnly : Prop := pciectlPdataCollectRegionMask ctx.pdata ep ≠ 0 ∧
  regs (ctx.scu + ctx.pdata.misc) &&& pciectlPdataCollectRegionMask ctx.pdata ep =
    pciectlPdataCollectRegionMask ctx.pdata ep

instance : Decidable (ctx.Enabled ep regs) := inferInstanceAs (Decidable (_ = _))

instance : Decidable (ctx.ReadOnly ep regs) := inferInstanceAs (Decidable (_ ∧ _))

/-- The mode of one endpoint. -/
def deviceMode : BridgeMode :=
  if ctx.Ungated ep regs ∧ ctx.Enabled ep regs then
    if ctx.ReadOnly ep regs then .restricted else .permissive
  else .disabled

/-- The mode of a function is that of its most open endpoint. -/
def modeOf (function : DeviceFunction) (eps : List PciectlEndpoint) : BridgeMode :=
  eps.foldr (fun ep mode => if ep.function = function then min (ctx.deviceMode ep regs) mode else mode) .disabled

def mode (function : DeviceFunction) : BridgeMode := ctx.modeOf regs function ctx.pdata.endpoints

/-- The mode of the XDMA bridge, which the constraint in the SDMC restricts as well. -/
def xdmaMode : BridgeMode :=
  if ctx.mode regs .xdma = .permissive ∧ ctx.sdmc.gmpXdma regs ≠ 0 then .restricted else ctx.mode regs .xdma

end Pciectl

section
variable {ctx : Pciectl} {ep : PciectlEndpoint} {regs : Regs} {function : DeviceFunction}

theorem Pciectl.modeOf_cons {eps : List PciectlEndpoint} (same : ep.function = function) :
    ctx.modeOf regs function (ep :: eps) = min (ctx.deviceMode ep regs) (ctx.modeOf regs function eps) := if_pos same

theorem Pciectl.modeOf_cons_of_ne {eps : List PciectlEndpoint} (other : ep.function ≠ function) :
    ctx.modeOf regs function (ep :: eps) = ctx.modeOf regs function eps := if_neg other

theorem Pciectl.le_modeOf_iff {mode : BridgeMode} {eps : List PciectlEndpoint} : mode ≤ ctx.modeOf regs function eps ↔
    ∀ ep ∈ eps, ep.function = function → mode ≤ ctx.deviceMode ep regs := by
  induction eps with
  | nil =>
    constructor
    · intro _ ep mem
      cases mem
    · intro _
      exact mode.le_disabled
  | cons curr rest ih =>
    rw [List.forall_mem_cons, ← ih]
    by_cases same : curr.function = function
    · rw [modeOf_cons same, le_min_iff]
      constructor
      · rintro ⟨head, tail⟩
        exact ⟨fun _ => head, tail⟩
      · rintro ⟨head, tail⟩
        exact ⟨head same, tail⟩
    · rw [modeOf_cons_of_ne same]
      constructor
      · intro tail
        exact ⟨fun h => absurd h same, tail⟩
      · rintro ⟨_, tail⟩
        exact tail

theorem Pciectl.mode_of_cleared (wired : ctx.Wired) {function : DeviceFunction}
    (cleared : ∀ ep ∈ ctx.pdata.endpoints, ep.function = function →
      regs (ctx.scu + ctx.pdata.config) &&& ep.functionMask = 0) : ctx.mode regs function = .disabled := by
  refine le_antisymm (BridgeMode.le_disabled _) (Pciectl.le_modeOf_iff.mpr fun ep mem same => ?_)
  have shut : ¬ ctx.Enabled ep regs := by
    intro on
    apply wired.functions ep mem
    have off := cleared ep mem same
    unfold Pciectl.Enabled at on
    generalize regs (ctx.scu + ctx.pdata.config) = pcie at *
    ext i inside
    have onBit := congrArg (fun w => w[i]) on
    have offBit := congrArg (fun w => w[i]) off
    simp at onBit offBit ⊢
    grind
  unfold Pciectl.deviceMode
  rw [if_neg fun both => shut both.2]

/-- Nothing makes an XDMA endpoint read-only. -/
theorem Pciectl.not_readOnly_xdma (xdma : ep.function = .xdma) : ¬ ctx.ReadOnly ep regs := by
  rintro ⟨some, _⟩
  unfold pciectlPdataCollectRegionMask at some
  rw [if_pos (by rw [xdma]; exact fun h => nomatch h)] at some
  exact some rfl

theorem Pciectl.deviceMode_xdma (xdma : ep.function = .xdma) : ctx.deviceMode ep regs =
    if ctx.Ungated ep regs ∧ ctx.Enabled ep regs then .permissive else .disabled := by
  unfold deviceMode
  rw [if_neg (Pciectl.not_readOnly_xdma xdma)]

theorem Pciectl.ungated_of_gate {bridges : Bridges} {desc : BridgeGateDesc} (controller : ctx.bridges = some bridges)
    (found : ctx.gateDesc bridges ep = .ok desc) : ctx.Ungated ep regs ↔ desc.Ungated bridges.scu regs := by
  unfold Ungated
  rw [controller]
  simp only [found]

theorem Pciectl.ungated_of_none (controller : ctx.bridges = none) : ctx.Ungated ep regs := by
  unfold Ungated
  rw [controller]
  exact True.intro

theorem pciectlGateStatus_observes (wired : ctx.Wired) (mem : ep ∈ ctx.pdata.endpoints) :
    Observes (pciectlGateStatus regBus ctx ep) fun regs => decide (ctx.Ungated ep regs) := by
  unfold pciectlGateStatus
  cases controller : ctx.bridges with
  | none =>
    refine (Observes.pure true).congr fun regs => ?_
    simp only [Pciectl.ungated_of_none controller, decide_true]
  | some bridges =>
    obtain ⟨desc, found⟩ := wired.gates bridges controller ep mem
    have named := found
    unfold Pciectl.gateDesc at named
    cases lookup : bridgesDeviceGetGateByName ctx.gates ep.gate with
    | error e =>
      rw [lookup] at named
      cases named
    | ok id =>
      rw [lookup] at named
      refine (bridgesStatus_observes named).congr fun regs => ?_
      simp only [Pciectl.ungated_of_gate controller found]

theorem pciectlUngatedStatus_observes (ctx : Pciectl) (ep : PciectlEndpoint) :
    Observes (pciectlUngatedStatus regBus ctx ep) fun regs =>
      if ctx.Enabled ep regs then if ctx.ReadOnly ep regs then .restricted else .permissive else .disabled := by
  unfold pciectlUngatedStatus
  refine Observes.congr ((socReadl_observes _).bind fun pcie =>
    Observes.ite (.ite (.pure _) ((socReadl_observes _).bind fun misc => .pure _)) (.pure _)) fun regs => ?_
  unfold Pciectl.ReadOnly
  by_cases none : pciectlPdataCollectRegionMask ctx.pdata ep = 0
  · simp only [none, not_true_eq_false, false_and, if_true, if_false, ne_eq]
    rfl
  · simp only [none, not_false_eq_true, true_and, if_false, ne_eq]
    rfl

theorem pciectlDeviceStatus_observes (wired : ctx.Wired) (mem : ep ∈ ctx.pdata.endpoints) :
    Observes (pciectlDeviceStatus regBus ctx ep) (ctx.deviceMode ep) := by
  refine Observes.congr ((pciectlGateStatus_observes wired mem).bind fun gate =>
    .ite (pciectlUngatedStatus_observes ctx ep) (.pure _)) fun regs => ?_
  unfold Pciectl.deviceMode
  by_cases gate : ctx.Ungated ep regs
  · simp only [gate, decide_true, true_and, if_true]
  · simp only [gate, decide_false, false_and, if_false, Bool.false_eq_true]

theorem pciectlStatusEach_observes (wired : ctx.Wired) {eps : List PciectlEndpoint}
    (sub : ∀ ep ∈ eps, ep ∈ ctx.pdata.endpoints) (aggregate : BridgeMode) :
    Observes (pciectlStatusEach regBus ctx function eps aggregate) fun regs =>
      min aggregate (ctx.modeOf regs function eps) := by
  induction eps generalizing aggregate with
  | nil =>
    refine Observes.congr (.pure aggregate) fun regs => ?_
    exact (min_eq_left aggregate.le_disabled).symm
  | cons curr rest ih =>
    have tail := ih fun ep mem => sub ep (List.mem_cons_of_mem curr mem)
    unfold pciectlStatusEach
    by_cases same : curr.function = function
    · rw [if_pos same]
      have head := pciectlDeviceStatus_observes wired (sub curr List.mem_cons_self)
      refine Observes.congr (head.bind fun mode => tail _) fun regs => ?_
      rw [Pciectl.modeOf_cons same, ← min_assoc]
      congr 1
      rw [min_comm, min_def_lt]
    · rw [if_neg same]
      refine Observes.congr (tail aggregate) fun regs => ?_
      rw [Pciectl.modeOf_cons_of_ne same]

theorem pciectlStatus_observes (wired : ctx.Wired) (function : DeviceFunction) :
    Observes (pciectlStatus regBus ctx function) fun regs => ctx.mode regs function := by
  refine Observes.congr (pciectlStatusEach_observes wired (fun _ mem => mem) .disabled) fun regs => ?_
  exact min_eq_right (BridgeMode.le_disabled _)

theorem xdmactlStatus_observes (wired : ctx.Wired) : Observes (xdmactlStatus regBus ctx) ctx.xdmaMode := by
  unfold xdmactlStatus
  refine Observes.congr ((pciectlStatus_observes wired .xdma).bind fun mode =>
    (sdmcConstrainsXdma_observes ctx.sdmc).bind fun _ => .pure _) fun regs => ?_
  unfold Pciectl.xdmaMode
  simp only [decide_eq_true_eq]

end

end Culvert
