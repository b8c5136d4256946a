import Culvert.Soc.PciectlModes
import Culvert.Soc.Watch

namespace Culvert
open Faulty Watched

/-- The registers are different ones. -/
structure Pciectl.Apart (ctx : Pciectl) : Prop where
  misc : ctx.scu + ctx.pdata.config ≠ ctx.scu + ctx.pdata.misc
  gate : ∀ bridges, ctx.bridges = some bridges → ∀ ep ∈ ctx.pdata.endpoints, ∀ desc,
    ctx.gateDesc bridges ep = .ok desc →
      ctx.scu + ctx.pdata.config ≠ bridges.scu + desc.reg ∧ ctx.scu + ctx.pdata.misc ≠ bridges.scu + desc.reg

theorem pciectl_apart (gen : AstGeneration) : (pciectl gen).Apart := by
  constructor
  · cases gen <;> decide
  · intro bridges controller ep mem desc found
    cases gen
    · cases controller
    · cases controller
    · cases controller
      have known : ep ∈ ast2600PcieBridges := mem
      simp only [ast2600PcieBridges, List.mem_cons, List.not_mem_nil, or_false] at known
      rcases known with rfl | rfl | rfl | rfl
      all_goals
        cases found
        decide

namespace Pciectl
variable (ctx : Pciectl) (ep : PciectlEndpoint) (regs : Regs)

/-- The regions are restricted, or made writable. -/
def filtered (mode : BridgeMode) : Regs :=
  Function.update regs (ctx.scu + ctx.pdata.misc)
    (if mode = .restricted then regs (ctx.scu + ctx.pdata.misc) ||| pciectlPdataCollectRegionMask ctx.pdata ep
      else regs (ctx.scu + ctx.pdata.misc) &&& ~~~pciectlPdataCollectRegionMask ctx.pdata ep)

def turnedOn : Regs :=
  Function.update regs (ctx.scu + ctx.pdata.config)
    (regs (ctx.scu + ctx.pdata.config) ||| (ep.deviceMask ||| ep.functionMask))

def turnedOff : Regs :=
  Function.update regs (ctx.scu + ctx.pdata.config) (regs (ctx.scu + ctx.pdata.config) &&& ~~~ep.functionMask)

end Pciectl

/-- What each write for an endpoint makes of `P`: it is `P'` while the endpoint is being opened. -/
structure P2aSteps (ctx : Pciectl) (ep : PciectlEndpoint) (mode : BridgeMode) (P P' : Regs → Prop) : Prop where
  off : mode = .disabled → ∀ regs, P regs → P (ctx.turnedOff ep regs)
  filter : mode ≠ .disabled → ∀ regs, P regs → P' (ctx.filtered ep regs mode)
  on : mode ≠ .disabled → ∀ regs, P' regs → P' (ctx.turnedOn ep regs)
  gate : mode ≠ .disabled → ∀ bridges desc, ctx.bridges = some bridges → ctx.gateDesc bridges ep = .ok desc →
    ∀ regs, P' regs → P' (desc.ungated bridges.scu regs)
  weaken : ∀ regs, P' regs → P regs

section
variable {ctx : Pciectl} {ep : PciectlEndpoint} {mode : BridgeMode} {P P' : Regs → Prop} {w : Watched Regs}

theorem Pciectl.gateDesc_ok {bridges : Bridges} {desc : BridgeGateDesc} (found : ctx.gateDesc bridges ep = .ok desc) :
    ∃ id, bridgesDeviceGetGateByName ctx.gates ep.gate = .ok id ∧ bridges.desc id = .ok desc := by
  unfold gateDesc at found
  cases gate : bridgesDeviceGetGateByName ctx.gates ep.gate with
  | error e =>
    rw [gate] at found
    cases found
  | ok id =>
    rw [gate] at found
    exact ⟨id, rfl, found⟩

/-- The part of the enforcement that opens the gate, with the result of the write before it. -/
theorem pciectlOpenGate_passes (steps : P2aSteps ctx ep mode P P') (opening : mode ≠ .disabled)
    (wired : ctx.Wired) (mem : ep ∈ ctx.pdata.endpoints) (safe : P' w.now ∧ Through P w) (rc : Except Errno Unit) :
    Passes (fun w => P' w.now ∧ Through P w) w (match ctx.bridges with
      | none => Prog.ofExcept rc
      | some bridges => do
        let id ← Prog.ofExcept (bridgesDeviceGetGateByName ctx.gates ep.gate)
        let _ ← Prog.attempt (bridgesEnable regBus.watched bridges id)
        return ()) fun _ => Through P := by
  cases controller : ctx.bridges with
  | none =>
    cases rc with
    | ok _ => exact Passes.pure safe.2
    | error e => exact Passes.fail safe
  | some bridges =>
    obtain ⟨desc, found⟩ := wired.gates bridges controller ep mem
    obtain ⟨id, gate, known⟩ := Pciectl.gateDesc_ok found
    dsimp only
    rw [gate]
    refine Passes.bind (Passes.pure (Q := fun i w' => id = i ∧ w = w') ⟨rfl, rfl⟩) ?_
    rintro _ _ ⟨rfl, rfl⟩
    have ungated := steps.gate opening bridges desc controller found _ safe.1
    have pushed := safe.2.push (steps.weaken _ ungated)
    have enabled := bridgesEnable_passes (I := fun w => P' w.now ∧ Through P w) regBus_plain (fun _ _ => rfl) known safe
    refine Passes.bind enabled.attempt fun r w' post => Passes.pure ?_
    cases r with
    | ok _ =>
      obtain rfl : w' = w.push (desc.ungated bridges.scu w.now) := post
      exact pushed
    | error _ => exact post.2

theorem pciectlDeviceEnforce_passes (apart : ctx.Apart) (wired : ctx.Wired) (mem : ep ∈ ctx.pdata.endpoints)
    (steps : P2aSteps ctx ep mode P P') (safe : Through P w) :
    Passes (Through P) w (pciectlDeviceEnforce regBus.watched ctx ep mode) fun _ => Through P := by
  unfold pciectlDeviceEnforce
  refine Passes.bind (socReadl_passes regBus_plain (Q := fun v w' => v = w.now (ctx.scu + ctx.pdata.config) ∧ w = w')
    safe ⟨rfl, rfl⟩) ?_
  rintro _ _ ⟨rfl, rfl⟩
  refine Passes.ite (fun disabled => ?_) fun opening => ?_
  · exact socWritel_passes safe (safe.push (steps.off disabled _ safe.1))
  refine Passes.bind (socReadl_passes regBus_plain (Q := fun v w' => v = w.now (ctx.scu + ctx.pdata.misc) ∧ w = w')
    safe ⟨rfl, rfl⟩) ?_
  rintro _ _ ⟨rfl, rfl⟩
  refine Passes.ite (fun _ => Passes.pure safe) fun _ => ?_
  have filtered : P' (ctx.filtered ep w.now mode) := steps.filter opening _ safe.1
  refine Passes.bind (socWritel_passes safe (Q := fun _ w' => w' = w.push (ctx.filtered ep w.now mode)) rfl) ?_
  rintro _ _ rfl
  have safe₁ := safe.push (steps.weaken _ filtered)
  have stale : w.now (ctx.scu + ctx.pdata.config) = ctx.filtered ep w.now mode (ctx.scu + ctx.pdata.config) :=
    (Function.update_of_ne apart.misc _ _).symm
  rw [stale]
  have on : P' (ctx.turnedOn ep (ctx.filtered ep w.now mode)) := steps.on opening _ filtered
  have write := @socWritel_passes regBus (fun w => P' w.now ∧ Through P w) (w.push (ctx.filtered ep w.now mode))
    (ctx.scu + ctx.pdata.config) _ (fun _ w => P' w.now ∧ Through P w) ⟨filtered, safe₁⟩
    ⟨on, safe₁.push (steps.weaken _ on)⟩
  refine Passes.mono (P := fun w => P' w.now ∧ Through P w) ?_ fun w both => both.2
  refine Passes.bind write.attempt fun rc w' post => pciectlOpenGate_passes steps opening wired mem ?_ rc
  cases rc with
  | ok _ => exact post
  | error _ => exact post

theorem pciectlEnforceEach_passes (apart : ctx.Apart) (wired : ctx.Wired) {function : DeviceFunction}
    {eps : List PciectlEndpoint} (sub : ∀ ep ∈ eps, ep ∈ ctx.pdata.endpoints)
    (steps : ∀ ep ∈ eps, ep.function = function → P2aSteps ctx ep mode P P') (safe : Through P w) :
    Passes (Through P) w (pciectlEnforceEach regBus.watched ctx mode function eps) fun _ => Through P := by
  induction eps generalizing w with
  | nil => exact Passes.pure safe
  | cons curr rest ih =>
    have tail (w' : Watched Regs) (safe' : Through P w') := ih (w := w')
      (fun ep mem => sub ep (List.mem_cons_of_mem curr mem))
      (fun ep mem => steps ep (List.mem_cons_of_mem curr mem)) safe'
    unfold pciectlEnforceEach
    by_cases same : curr.function = function
    · simp only [if_pos same]
      exact Passes.bind (pciectlDeviceEnforce_passes apart wired (sub curr List.mem_cons_self)
        (steps curr List.mem_cons_self same) safe) fun _ w' => tail w'
    · simp only [if_neg same]
      exact tail w safe

end

/-- The bits that opening and closing the P2A bridge is about: those of the MMIO endpoints, of their
regions and of their gates. -/
def Pciectl.p2aBitsOf (ctx : Pciectl) (ep : PciectlEndpoint) : List (Word × Word) :=
  [(ctx.scu + ctx.pdata.config, ep.deviceMask ||| ep.functionMask),
    (ctx.scu + ctx.pdata.misc, pciectlPdataCollectRegionMask ctx.pdata ep)] ++
  match ctx.bridges with
  | none => []
  | some bridges =>
    match ctx.gateDesc bridges ep with
    | .error _ => []
    | .ok desc => [(bridges.scu + desc.reg, desc.mask)]

def Pciectl.p2aBits (ctx : Pciectl) : List (Word × Word) :=
  (ctx.pdata.endpoints.filter (·.function = .mmio)).flatMap ctx.p2aBitsOf

section
variable {ctx : Pciectl} {ep : PciectlEndpoint} {mode : BridgeMode} {w : Watched Regs} {regs₀ : Regs}

theorem Pciectl.mem_p2aBits {entry : Word × Word} (mem : ep ∈ ctx.pdata.endpoints) (mmio : ep.function = .mmio)
    (own : entry ∈ ctx.p2aBitsOf ep) : entry ∈ ctx.p2aBits :=
  List.mem_flatMap.mpr ⟨ep, List.mem_filter.mpr ⟨mem, decide_eq_true mmio⟩, own⟩

/-- Every write stays within those bits. -/
theorem p2aSteps_confined (mem : ep ∈ ctx.pdata.endpoints) (mmio : ep.function = .mmio) :
    P2aSteps ctx ep mode (Confined ctx.p2aBits regs₀) (Confined ctx.p2aBits regs₀) where
  off _ regs confined := by
    have config := Pciectl.mem_p2aBits mem mmio List.mem_cons_self
    refine confined.update config (Within.clear ?_ _)
    ext i inside
    simp
    grind
  filter _ regs confined := by
    have misc := Pciectl.mem_p2aBits mem mmio (List.mem_cons_of_mem _ List.mem_cons_self)
    refine confined.update misc ?_
    split
    · exact Within.set (BitVec.and_not_self _) _
    · exact Within.clear (BitVec.and_not_self _) _
  on _ regs confined := by
    have config := Pciectl.mem_p2aBits mem mmio List.mem_cons_self
    exact confined.update config (Within.set (BitVec.and_not_self _) _)
  gate _ bridges desc controller found regs confined := by
    have own : (bridges.scu + desc.reg, desc.mask) ∈ ctx.p2aBitsOf ep := by
      unfold Pciectl.p2aBitsOf
      rw [controller]
      simp only [found]
      exact List.mem_append_right _ List.mem_cons_self
    exact confined.update (Pciectl.mem_p2aBits mem mmio own) (Within.clear (BitVec.and_not_self _) _)
  weaken _ confined := confined

/-- Whatever fails, no other bit changes. -/
theorem p2actlEnforce_confined (apart : ctx.Apart) (wired : ctx.Wired) (mode : BridgeMode) (regs : Regs)
    (fails : Nat → Option Errno) : Confined ctx.p2aBits regs
      ((p2actlEnforce regBus.watched ctx mode).run (watching regs fails)).state.dev.now := by
  have passes := @pciectlEnforceEach_passes ctx mode (Confined ctx.p2aBits regs) (Confined ctx.p2aBits regs) ⟨regs, []⟩
    apart wired .mmio ctx.pdata.endpoints (fun _ mem => mem) (fun ep mem mmio => p2aSteps_confined mem mmio)
    (Through.start (Confined.refl _ _))
  have reached := Passes.state (s := watching regs fails) passes
  exact reached.1

end

end Culvert
