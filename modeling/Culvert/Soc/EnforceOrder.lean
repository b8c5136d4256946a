import Culvert.Soc.IlpcEnforce
import Culvert.Soc.P2aAgrees

namespace Culvert
open Faulty Watched

/-- On the way from `regs` to `target`, after every single write, the status is at least the lower
one of the two. -/
def NeverMoreExposed (status : Prog (Faulty Regs) BridgeMode) (enforce : Prog (Faulty (Watched Regs)) Unit)
    (target : BridgeMode) (regs : Regs) (fails : Nat → Option Errno) : Prop :=
  ∃ initial, Yields regs status initial regs ∧ ∀ regs' ∈ (enforce.run (watching regs fails)).state.dev.past,
    ∃ mode, Yields regs' status mode regs' ∧ min initial target ≤ mode

theorem BridgeMode.permissive_le (mode : BridgeMode) : permissive ≤ mode := by
  cases mode <;> decide

/-- It is enough that `P` holds along the way and bounds the status. -/
theorem neverMoreExposed_of_passes {status : Prog (Faulty Regs) BridgeMode} {mode : Regs → BridgeMode}
    (observes : Observes status mode) {enforce : Prog (Faulty (Watched Regs)) Unit} {target : BridgeMode} {regs : Regs}
    {P : Regs → Prop} (passes : Passes (Through P) ⟨regs, []⟩ enforce fun _ => Through P)
    (bound : ∀ regs', P regs' → min (mode regs) target ≤ mode regs') (fails : Nat → Option Errno) :
    NeverMoreExposed status enforce target regs fails := by
  have reached := Passes.state (s := watching regs fails) passes
  refine ⟨mode regs, observes.yields regs, fun regs' mem => ?_⟩
  exact ⟨mode regs', observes.yields regs', bound regs' (reached.2 regs' mem)⟩

section
variable {ctx : Pciectl} {ep : PciectlEndpoint} {mode : BridgeMode} {regs₀ regs : Regs}

/-- The device is at least as closed as in `regs₀`. -/
def Pciectl.Closing (ctx : Pciectl) (regs₀ regs : Regs) : Prop :=
  ∀ ep ∈ ctx.pdata.endpoints, ep.function = .mmio → ctx.deviceMode ep regs₀ ≤ ctx.deviceMode ep regs

theorem Pciectl.enabled_of_turnedOff {other : PciectlEndpoint} (on : ctx.Enabled other (ctx.turnedOff ep regs)) :
    ctx.Enabled other regs := by
  unfold Enabled turnedOff at on
  rw [Function.update_self] at on
  unfold Enabled
  generalize regs (ctx.scu + ctx.pdata.config) = pcie at on ⊢
  generalize other.deviceMask ||| other.functionMask = mask at on ⊢
  calc pcie &&& mask = pcie &&& (pcie &&& ~~~ep.functionMask &&& mask) := by rw [on]
    _ = pcie &&& ~~~ep.functionMask &&& mask := by
      rw [← BitVec.and_assoc, ← BitVec.and_assoc, BitVec.and_self]
    _ = mask := on

theorem Pciectl.ungated_of_turnedOff (apart : ctx.Apart) {other : PciectlEndpoint} (mem : other ∈ ctx.pdata.endpoints)
    (gate : ctx.Ungated other (ctx.turnedOff ep regs)) : ctx.Ungated other regs := by
  cases controller : ctx.bridges with
  | none => exact Pciectl.ungated_of_none controller
  | some bridges =>
    cases found : ctx.gateDesc bridges other with
    | error e =>
      unfold Ungated at gate
      rw [controller] at gate
      simp only [found] at gate
    | ok desc =>
      rw [Pciectl.ungated_of_gate controller found] at gate ⊢
      refine (BridgeGateDesc.ungated_congr ?_).mp gate
      exact Function.update_of_ne (apart.gate bridges controller other mem desc found).1.symm _ _

theorem p2aSteps_closing (apart : ctx.Apart) : P2aSteps ctx ep .disabled (ctx.Closing regs₀) (ctx.Closing regs₀) where
  off _ regs closing other mem mmio := by
    refine (closing other mem mmio).trans ?_
    have same : ctx.ReadOnly other (ctx.turnedOff ep regs) ↔ ctx.ReadOnly other regs :=
      Pciectl.readOnly_congr (Function.update_of_ne apart.misc.symm _ _)
    by_cases opened : ctx.Ungated other (ctx.turnedOff ep regs) ∧ ctx.Enabled other (ctx.turnedOff ep regs)
    · have before : ctx.Ungated other regs ∧ ctx.Enabled other regs :=
        ⟨Pciectl.ungated_of_turnedOff apart mem opened.1, Pciectl.enabled_of_turnedOff opened.2⟩
      unfold Pciectl.deviceMode
      simp only [if_pos opened, if_pos before, same]
      exact le_rfl
    · unfold Pciectl.deviceMode
      rw [if_neg opened]
      exact BridgeMode.le_disabled _
  filter opening := absurd rfl opening
  on opening := absurd rfl opening
  gate opening := absurd rfl opening
  weaken _ closing := closing

/-- Once its regions are restricted, a bridge is at least restricted. -/
theorem Pciectl.restricted_le_mode (filter : ctx.FilteredAs .restricted regs) : BridgeMode.restricted ≤ ctx.mode regs .mmio := by
  refine Pciectl.le_modeOf_iff.mpr fun ep mem mmio => ?_
  unfold deviceMode
  rw [if_pos ((filter ep mem mmio).mpr rfl)]
  split
  · exact le_rfl
  · decide

theorem p2aSteps_restricting (apart : ctx.Apart) (mem : ep ∈ ctx.pdata.endpoints) (mmio : ep.function = .mmio)
    (some : ctx.pdata.regions.foldl (· ||| ·) 0 ≠ 0) (initial : BridgeMode) :
    P2aSteps ctx ep .restricted (fun regs => min initial .restricted ≤ ctx.mode regs .mmio) (ctx.FilteredAs .restricted) where
  off h := nomatch h
  filter _ _ _ := fun _ _ also => Pciectl.readOnly_filtered mmio also some
  on _ _ filter := filter.congr (Function.update_of_ne apart.misc.symm _ _)
  gate _ bridges desc controller found _ filter :=
    filter.congr (Function.update_of_ne (apart.gate bridges controller ep mem desc found).2 _ _)
  weaken _ filter := (min_le_right _ _).trans (Pciectl.restricted_le_mode filter)

theorem P2aSteps.of_forall {P : Regs → Prop} (all : ∀ regs, P regs) : P2aSteps ctx ep mode P P where
  off _ _ _ := all _
  filter _ _ _ := all _
  on _ _ _ := all _
  gate _ _ _ _ _ _ _ := all _
  weaken _ here := here

theorem p2actlEnforce_order (gen : AstGeneration) (target : BridgeMode) (regs : Regs)
    (fails : Nat → Option Errno) : NeverMoreExposed (p2actlStatus regBus (pciectl gen))
      (p2actlEnforce regBus.watched (pciectl gen) target) target regs fails := by
  have apart := pciectl_apart gen
  have wired := pciectl_wired gen
  have observes := pciectlStatus_observes wired .mmio
  cases target with
  | permissive =>
    have all (regs' : Regs) : min ((pciectl gen).mode regs .mmio) .permissive ≤ (pciectl gen).mode regs' .mmio :=
      (min_le_right _ _).trans (BridgeMode.permissive_le _)
    exact neverMoreExposed_of_passes observes (pciectlEnforceEach_passes apart wired (fun _ mem => mem)
      (fun _ _ _ => P2aSteps.of_forall all) (Through.start (all regs))) (fun _ h => h) fails
  | restricted =>
    exact neverMoreExposed_of_passes observes (pciectlEnforceEach_passes apart wired (fun _ mem => mem)
      (fun ep mem mmio => p2aSteps_restricting apart mem mmio (pciectl_regions gen) ((pciectl gen).mode regs .mmio))
      (Through.start (min_le_left _ _))) (fun _ h => h) fails
  | disabled =>
    refine neverMoreExposed_of_passes observes (pciectlEnforceEach_passes apart wired (fun _ mem => mem)
      (fun _ _ _ => p2aSteps_closing apart) (Through.start fun _ _ _ => le_rfl)) (fun regs' closing => ?_) fails
    refine (min_le_left _ _).trans (Pciectl.le_modeOf_iff.mpr fun ep mem mmio => ?_)
    exact (Pciectl.le_modeOf_iff.mp le_rfl ep mem mmio).trans (closing ep mem mmio)

end

section
variable {ctx : Ilpcctl} {mode initial : BridgeMode} {regs : Regs}

/-- The bridge is read-only, if it is open. -/
def Ilpcctl.ReadOnly (ctx : Ilpcctl) (regs : Regs) : Prop := regs (ctx.lpc + lpcHicrb) &&& lpcHicrbIlpcRo ≠ 0

theorem Ilpcctl.restricted_le_mode (readOnly : ctx.ReadOnly regs) : BridgeMode.restricted ≤ ctx.mode regs := by
  unfold Ilpcctl.mode
  split
  · decide
  · unfold ReadOnly at readOnly
    rw [if_pos readOnly]

theorem ilpcSteps_restricting (apart : ctx.Apart) :
    IlpcSteps ctx .restricted (fun regs => min initial .restricted ≤ ctx.mode regs) ctx.ReadOnly where
  off h := nomatch h
  filter _ regs _ := by
    unfold Ilpcctl.ReadOnly Ilpcctl.filtered
    rw [Function.update_self]
    have opening : BridgeMode.restricted ≠ .disabled := by decide
    exact (Ilpcctl.hicrbFor_readOnly opening _).mpr rfl
  gate _ regs readOnly := by
    unfold Ilpcctl.ReadOnly
    rw [Ilpcctl.ungated_of_ne _ fun bridges gate desc some known => (apart.gate bridges gate some desc known).2.2.symm]
    exact readOnly
  select _ _ readOnly := by
    unfold Ilpcctl.ReadOnly unstrapped
    rw [Function.update_of_ne apart.strap]
    exact readOnly
  decode _ _ readOnly := by
    unfold Ilpcctl.ReadOnly unstrapped
    rw [Function.update_of_ne apart.strap]
    exact readOnly
  weaken _ readOnly := (min_le_right _ _).trans (Ilpcctl.restricted_le_mode readOnly)

theorem ilpcSteps_closing : IlpcSteps ctx .disabled (fun regs => min initial .disabled ≤ ctx.mode regs)
    (fun regs => min initial .disabled ≤ ctx.mode regs) where
  off _ regs _ := by
    have closed : ctx.mode (strapped ctx.gen (sioctlPdata ctx.gen).disable regs) = .disabled :=
      if_pos (Or.inl (sioctlDecode_strapped ctx.gen regs))
    rw [closed]
    exact BridgeMode.le_disabled _
  filter gated regs _ := by
    have gate := gated rfl
    have off : ctx.Off (ctx.filtered regs .disabled) := by
      refine ⟨by rw [← Option.not_isNone, gate]; rfl, ?_⟩
      rw [Ilpcctl.filtered, Function.update_self]
      exact (Ilpcctl.hicrbFor_off gate _).mpr rfl
    have closed : ctx.mode (ctx.filtered regs .disabled) = .disabled := if_pos (Or.inr (Or.inr off))
    rw [closed]
    exact BridgeMode.le_disabled _
  gate opening := absurd rfl opening
  select opening := absurd rfl opening
  decode opening := absurd rfl opening
  weaken _ here := here

theorem IlpcSteps.of_forall {P : Regs → Prop} (all : ∀ regs, P regs) : IlpcSteps ctx mode P P where
  off _ _ _ := all _
  filter _ _ _ := all _
  gate _ _ _ := all _
  select _ _ _ := all _
  decode _ _ _ := all _
  weaken _ here := here

theorem ilpcctlEnforce_order (gen : AstGeneration) (target : BridgeMode) (regs : Regs)
    (fails : Nat → Option Errno) : NeverMoreExposed (ilpcctlStatus (strapBus gen) (ilpcctl gen))
      (ilpcctlEnforce (strapBus gen).watched (ilpcctl gen) target) target regs fails := by
  have apart := ilpcctl_apart gen
  have wired := ilpcctl_wired gen
  have observes : Observes (ilpcctlStatus (strapBus gen) (ilpcctl gen)) (ilpcctl gen).mode := ilpcctlStatus_observes wired
  have passes {P P' : Regs → Prop} (steps : IlpcSteps (ilpcctl gen) target P P') (start : P regs) :
      Passes (Through P) ⟨regs, []⟩ (ilpcctlEnforce (strapBus gen).watched (ilpcctl gen) target) fun _ => Through P := by
    have enforced := ilpcctlEnforce_passes apart wired steps (Through.start start)
    rw [ilpcctl_gen] at enforced
    exact enforced.conseq fun _ _ post => post.1
  have start : min ((ilpcctl gen).mode regs) target ≤ (ilpcctl gen).mode regs := min_le_left _ _
  cases target with
  | permissive =>
    have all (regs' : Regs) : min ((ilpcctl gen).mode regs) .permissive ≤ (ilpcctl gen).mode regs' :=
      (min_le_right _ _).trans (BridgeMode.permissive_le _)
    exact neverMoreExposed_of_passes observes (passes (IlpcSteps.of_forall all) start) (fun _ h => h) fails
  | restricted =>
    exact neverMoreExposed_of_passes observes (passes (ilpcSteps_restricting apart) start) (fun _ h => h) fails
  | disabled =>
    exact neverMoreExposed_of_passes observes (passes ilpcSteps_closing start) (fun _ h => h) fails

end

/-- No enforcement of a mode passes through a more exposed one than where it starts and where it
goes, wherever it is cut short. -/
theorem enforce_never_more_exposed (gen : AstGeneration) (target : BridgeMode) (regs : Regs)
    (fails : Nat → Option Errno) :
    NeverMoreExposed (p2actlStatus regBus (pciectl gen)) (p2actlEnforce regBus.watched (pciectl gen) target)
        target regs fails ∧
      NeverMoreExposed (ilpcctlStatus (strapBus gen) (ilpcctl gen))
        (ilpcctlEnforce (strapBus gen).watched (ilpcctl gen) target) target regs fails :=
  ⟨p2actlEnforce_order gen target regs fails, ilpcctlEnforce_order gen target regs fails⟩

end Culvert
