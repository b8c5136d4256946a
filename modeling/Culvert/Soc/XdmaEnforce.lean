import Culvert.Soc.PciectlModes

namespace Culvert
open Faulty

section
variable {ctx : Pciectl} {ep : PciectlEndpoint} {regs : Regs} {mode : BridgeMode} {eps : List PciectlEndpoint}

theorem pciectlDeviceEnforce_disabled (ctx : Pciectl) (ep : PciectlEndpoint) (regs : Regs) :
    Yields regs (pciectlDeviceEnforce regBus ctx ep .disabled) ()
      (Function.update regs (ctx.scu + ctx.pdata.config)
        (regs (ctx.scu + ctx.pdata.config) &&& ~~~ep.functionMask)) := by
  unfold pciectlDeviceEnforce
  exact (socReadl_yields _ regs).bind (socWritel_yields _ _ regs)

/-- Opening an XDMA endpoint ends at its empty region mask. -/
theorem pciectlDeviceEnforce_xdma (xdma : ep.function = .xdma) (opening : mode ≠ .disabled) (regs : Regs) :
    Yields regs (pciectlDeviceEnforce regBus ctx ep mode) () regs := by
  have empty : pciectlPdataCollectRegionMask ctx.pdata ep = 0 := by
    unfold pciectlPdataCollectRegionMask
    rw [if_pos (by rw [xdma]; exact fun h => nomatch h)]
  unfold pciectlDeviceEnforce
  simp only [if_neg opening, empty, if_true]
  exact (socReadl_yields _ regs).bind ((socReadl_yields _ regs).bind (.pure ()))

theorem pciectlEnforceEach_xdma (opening : mode ≠ .disabled) (regs : Regs) :
    Yields regs (pciectlEnforceEach regBus ctx mode .xdma eps) () regs := by
  induction eps with
  | nil => exact .pure ()
  | cons curr rest ih =>
    unfold pciectlEnforceEach
    by_cases xdma : curr.function = .xdma
    · simp only [if_pos xdma]
      exact (pciectlDeviceEnforce_xdma xdma opening regs).bind ih
    · simp only [if_neg xdma]
      exact ih

/-- Disabling a function turns off its bit in every device, and no bit on. -/
theorem pciectlEnforceEach_disabled (ctx : Pciectl) (function : DeviceFunction) (eps : List PciectlEndpoint)
    (regs : Regs) : ∃ keep : Word,
      Yields regs (pciectlEnforceEach regBus ctx .disabled function eps) ()
        (Function.update regs (ctx.scu + ctx.pdata.config) (regs (ctx.scu + ctx.pdata.config) &&& keep)) ∧
      ∀ ep ∈ eps, ep.function = function → keep &&& ep.functionMask = 0 := by
  induction eps generalizing regs with
  | nil =>
    refine ⟨BitVec.allOnes 32, ?_, fun ep mem => nomatch mem⟩
    rw [BitVec.and_allOnes, Function.update_eq_self]
    exact .pure ()
  | cons curr rest ih =>
    unfold pciectlEnforceEach
    by_cases same : curr.function = function
    · simp only [if_pos same]
      have head := pciectlDeviceEnforce_disabled ctx curr regs
      obtain ⟨keep, tail, cleared⟩ := ih (Function.update regs (ctx.scu + ctx.pdata.config)
        (regs (ctx.scu + ctx.pdata.config) &&& ~~~curr.functionMask))
      rw [Function.update_idem, Function.update_self, BitVec.and_assoc] at tail
      exact ⟨~~~curr.functionMask &&& keep, head.bind tail, PciectlEndpoint.cleared_cons cleared⟩
    · simp only [if_neg same]
      obtain ⟨keep, tail, cleared⟩ := ih regs
      refine ⟨keep, tail, ?_⟩
      rw [List.forall_mem_cons]
      exact ⟨fun h => absurd h same, cleared⟩

/-- Disabling always takes. -/
theorem xdmactlEnforce_disabled (wired : ctx.Wired) (regs : Regs) : ∃ regs',
    Yields regs (xdmactlEnforce regBus ctx .disabled) () regs' ∧ ctx.xdmaMode regs' = .disabled := by
  obtain ⟨keep, closed, cleared⟩ := pciectlEnforceEach_disabled ctx .xdma ctx.pdata.endpoints
    (ctx.sdmc.constrained false regs)
  refine ⟨_, (sdmcConfigureXdma_yields ctx.sdmc false regs).bind closed, ?_⟩
  have mode := @Pciectl.mode_of_cleared ctx (Function.update (ctx.sdmc.constrained false regs)
    (ctx.scu + ctx.pdata.config) (ctx.sdmc.constrained false regs (ctx.scu + ctx.pdata.config) &&& keep))
    wired .xdma fun ep mem xdma => by
      rw [Function.update_self, BitVec.and_assoc, cleared ep mem xdma]
      exact BitVec.and_zero
  unfold Pciectl.xdmaMode
  rw [mode]
  rfl

/-- The other modes only set or clear the constraint, the wrong way around. -/
theorem xdmactlEnforce_opening (opening : mode ≠ .disabled) (regs : Regs) :
    Yields regs (xdmactlEnforce regBus ctx mode) () (ctx.sdmc.constrained (mode = .permissive) regs) :=
  (sdmcConfigureXdma_yields ctx.sdmc (mode = .permissive) regs).bind (pciectlEnforceEach_xdma opening _)

/-- Some endpoint of the XDMA function is on and not behind a closed gate. -/
def Pciectl.XdmaOpen (ctx : Pciectl) (regs : Regs) : Prop :=
  ∃ ep ∈ ctx.pdata.endpoints, ep.function = .xdma ∧ ctx.Ungated ep regs ∧ ctx.Enabled ep regs

theorem Pciectl.mode_xdma_of_open (someOpen : ctx.XdmaOpen regs) : ctx.mode regs .xdma = .permissive := by
  obtain ⟨ep, mem, xdma, on⟩ := someOpen
  have below : ctx.mode regs .xdma ≤ ctx.deviceMode ep regs := Pciectl.le_modeOf_iff.mp le_rfl ep mem xdma
  rw [Pciectl.deviceMode_xdma xdma, if_pos on] at below
  exact le_antisymm below (by cases ctx.mode regs .xdma <;> decide)

theorem Pciectl.mode_xdma_of_shut (shut : ¬ ctx.XdmaOpen regs) : ctx.mode regs .xdma = .disabled := by
  refine le_antisymm (BridgeMode.le_disabled _) (Pciectl.le_modeOf_iff.mpr fun ep mem xdma => ?_)
  rw [Pciectl.deviceMode_xdma xdma, if_neg fun on => shut ⟨ep, mem, xdma, on⟩]

theorem Pciectl.xdmaMode_ne_permissive (constrained : ctx.sdmc.gmpXdma regs ≠ 0) : ctx.xdmaMode regs ≠ .permissive := by
  unfold Pciectl.xdmaMode
  split
  · exact fun h => nomatch h
  · rename_i other
    exact fun free => other ⟨free, constrained⟩

theorem Pciectl.xdmaMode_eq_restricted_iff :
    ctx.xdmaMode regs = .restricted ↔ ctx.XdmaOpen regs ∧ ctx.sdmc.gmpXdma regs ≠ 0 := by
  unfold Pciectl.xdmaMode
  by_cases someOpen : ctx.XdmaOpen regs
  · by_cases free : ctx.sdmc.gmpXdma regs = 0
    · simp [Pciectl.mode_xdma_of_open someOpen, free]
    · simp [Pciectl.mode_xdma_of_open someOpen, someOpen]
  · simp [Pciectl.mode_xdma_of_shut someOpen, someOpen]

end

/-- Enforcing `mode` from the state `s` ends with that status, and a restricted status in `s` means
that all constraint bits are set. -/
def XdmaAgrees (ctx : Pciectl) (mode : BridgeMode) (s : Faulty Regs) : Prop :=
  (∀ s', (xdmactlEnforce regBus ctx mode).run s = .ok () s' →
    ∃ t, (xdmactlStatus regBus ctx).run s' = .ok mode t) ∧
  ∀ s', (xdmactlStatus regBus ctx).run s = .ok .restricted s' → ctx.sdmc.gmpXdma s.dev = ctx.sdmc.gmpXdmaMask

theorem pciectl_sdmc (gen : AstGeneration) : (pciectl gen).sdmc = sdmc gen := by
  cases gen <;> rfl

theorem sdmc_mask_ne_zero (gen : AstGeneration) : (sdmc gen).gmpXdmaMask ≠ 0 := by
  cases gen <;> decide

/-- Constraint bits that are neither all clear nor all set exist on the AST2600 only. -/
theorem sdmc_partly_constrained {gen : AstGeneration} {regs : Regs} (some : (sdmc gen).gmpXdma regs ≠ 0)
    (partly : (sdmc gen).gmpXdma regs ≠ (sdmc gen).gmpXdmaMask) : gen = .g6 := by
  have oneBit (x : Word) (i : Nat) : x &&& BitVec.twoPow 32 i = BitVec.twoPow 32 i ∨ x &&& BitVec.twoPow 32 i = 0 := by
    rw [BitVec.and_twoPow]
    split
    · exact Or.inl rfl
    · exact Or.inr rfl
  cases gen with
  | g4 =>
    rcases oneBit (regs ((sdmc .g4).iomem + mcrGmp)) 16 with all | none
    · exact absurd all partly
    · exact absurd none some
  | g5 =>
    rcases oneBit (regs ((sdmc .g5).iomem + mcrGmp)) 17 with all | none
    · exact absurd all partly
    · exact absurd none some
  | g6 => rfl

/-- Only disabling is enforced, and a partial constraint passes for a full one. -/
theorem xdmactl_agrees_iff (gen : AstGeneration) (mode : BridgeMode) {s : Faulty Regs} (sound : s.Sound) :
    XdmaAgrees (pciectl gen) mode s ↔ mode = .disabled ∧
      ¬ (gen = .g6 ∧ (pciectl gen).XdmaOpen s.dev ∧ (sdmc gen).gmpXdma s.dev ≠ 0 ∧
        (sdmc gen).gmpXdma s.dev ≠ (sdmc gen).gmpXdmaMask) := by
  rw [← pciectl_sdmc]
  have status := xdmactlStatus_observes (pciectl_wired gen)
  have second : (∀ s', (xdmactlStatus regBus (pciectl gen)).run s = .ok .restricted s' →
      (pciectl gen).sdmc.gmpXdma s.dev = (pciectl gen).sdmc.gmpXdmaMask) ↔
      ¬ (gen = .g6 ∧ (pciectl gen).XdmaOpen s.dev ∧ (pciectl gen).sdmc.gmpXdma s.dev ≠ 0 ∧
        (pciectl gen).sdmc.gmpXdma s.dev ≠ (pciectl gen).sdmc.gmpXdmaMask) := by
    constructor
    · rintro all ⟨_, someOpen, some, partly⟩
      obtain ⟨s', run, _⟩ := status.yields s.dev s sound rfl
      rw [Pciectl.xdmaMode_eq_restricted_iff.mpr ⟨someOpen, some⟩] at run
      exact partly (all s' run)
    · intro never s' run
      obtain ⟨someOpen, some⟩ := Pciectl.xdmaMode_eq_restricted_iff.mp (status.ok run).1.symm
      by_contra partly
      have six : gen = .g6 := by
        rw [pciectl_sdmc] at some partly
        exact sdmc_partly_constrained some partly
      exact never ⟨six, someOpen, some, partly⟩
  refine and_congr ⟨fun all => ?_, ?_⟩ second
  · by_contra opening
    obtain ⟨s', run, sound', dev⟩ := xdmactlEnforce_opening opening s.dev s sound rfl
    obtain ⟨t, reported⟩ := all s' run
    have same := (status.ok reported).1
    have gmp := (pciectl gen).sdmc.gmpXdma_constrained (decide (mode = .permissive)) s.dev
    rw [dev] at same
    cases mode with
    | permissive =>
      refine Pciectl.xdmaMode_ne_permissive ?_ same.symm
      rw [gmp, pciectl_sdmc]
      exact sdmc_mask_ne_zero gen
    | restricted => exact (Pciectl.xdmaMode_eq_restricted_iff.mp same.symm).2 gmp
    | disabled => exact opening rfl
  · rintro rfl s' run
    obtain ⟨regs', enforced, mode⟩ := xdmactlEnforce_disabled (pciectl_wired gen) s.dev
    obtain ⟨_, sound', dev⟩ := enforced.result sound rfl run
    obtain ⟨t, reported, _⟩ := status.yields regs' s' sound' dev
    rw [mode] at reported
    exact ⟨t, reported⟩

/-- A bus without failures, all of whose registers read as ones. -/
def allOnes : Faulty Regs := ⟨fun _ => BitVec.allOnes 32, fun _ => none, 0⟩

/-- An AST2600 with every bit set is disabled. -/
theorem xdmactl_agrees_allOnes : XdmaAgrees (pciectl .g6) .disabled allOnes := by
  refine (xdmactl_agrees_iff .g6 .disabled fun _ => rfl).mpr ⟨rfl, ?_⟩
  rintro ⟨_, _, _, partly⟩
  exact partly rfl

/-- An AST2400 with every bit set is restricted. -/
theorem xdmactl_not_agrees : ¬ XdmaAgrees (pciectl .g4) .restricted allOnes := by
  rintro ⟨enforced, _⟩
  obtain ⟨t, run⟩ := enforced _ rfl
  cases run

end Culvert
