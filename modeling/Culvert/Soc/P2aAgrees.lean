import Culvert.Soc.P2aEnforce

namespace Culvert
open Faulty Watched

namespace Pciectl

/-- Some MMIO endpoint is on. -/
def MmioOn (ctx : Pciectl) (regs : Regs) : Prop := ∃ ep ∈ ctx.pdata.endpoints, ep.function = .mmio ∧ ctx.Enabled ep regs

/-- Some MMIO endpoint is on and not behind a closed gate. -/
def MmioOpen (ctx : Pciectl) (regs : Regs) : Prop :=
  ∃ ep ∈ ctx.pdata.endpoints, ep.function = .mmio ∧ ctx.Ungated ep regs ∧ ctx.Enabled ep regs

end Pciectl

section
variable {ctx : Pciectl} {ep other : PciectlEndpoint} {mode : BridgeMode} {regs : Regs} {bridges : Bridges}
variable {desc : BridgeGateDesc}

/-- Once the regions are set, the bridge is in the mode asked for exactly if it is open. -/
theorem Pciectl.mode_filtered (opening : mode ≠ .disabled)
    (filter : ∀ ep ∈ ctx.pdata.endpoints, ep.function = .mmio → (ctx.ReadOnly ep regs ↔ mode = .restricted)) :
    ctx.mode regs .mmio = mode ↔ ctx.MmioOpen regs := by
  have device (ep) (mem : ep ∈ ctx.pdata.endpoints) (mmio : ep.function = .mmio) : ctx.deviceMode ep regs =
      if ctx.Ungated ep regs ∧ ctx.Enabled ep regs then mode else .disabled := by
    unfold deviceMode
    simp only [filter ep mem mmio]
    cases mode with
    | permissive => rfl
    | restricted => rfl
    | disabled => exact absurd rfl opening
  have below : mode ≤ ctx.mode regs .mmio := Pciectl.le_modeOf_iff.mpr fun ep mem mmio => by
    rw [device ep mem mmio]
    split
    · exact le_rfl
    · exact mode.le_disabled
  constructor
  · intro same
    by_contra shut
    have all : BridgeMode.disabled ≤ ctx.mode regs .mmio := Pciectl.le_modeOf_iff.mpr fun ep mem mmio => by
      rw [device ep mem mmio, if_neg fun on => shut ⟨ep, mem, mmio, on⟩]
    rw [same] at all
    exact opening (le_antisymm mode.le_disabled all)
  · rintro ⟨ep, mem, mmio, on⟩
    refine le_antisymm ?_ below
    have one : ctx.mode regs .mmio ≤ ctx.deviceMode ep regs := Pciectl.le_modeOf_iff.mp le_rfl ep mem mmio
    rwa [device ep mem mmio, if_pos on] at one

theorem regionMask_mmio (mmio : ep.function = .mmio) :
    pciectlPdataCollectRegionMask ctx.pdata ep = ctx.pdata.regions.foldl (· ||| ·) 0 := by
  unfold pciectlPdataCollectRegionMask
  rw [if_neg fun h => h mmio]

theorem Pciectl.readOnly_filtered (mmio : ep.function = .mmio) (also : other.function = .mmio)
    (some : ctx.pdata.regions.foldl (· ||| ·) 0 ≠ 0) :
    ctx.ReadOnly other (ctx.filtered ep regs mode) ↔ mode = .restricted := by
  unfold ReadOnly filtered
  rw [regionMask_mmio mmio, regionMask_mmio also, Function.update_self]
  constructor
  · rintro ⟨_, all⟩
    by_contra opening
    rw [if_neg opening, BitVec.and_not_and_self] at all
    exact some all.symm
  · rintro rfl
    rw [if_pos rfl]
    exact ⟨some, BitVec.or_and_self_right _ _⟩

/-- What is behind the read-only bits, the enable bits and the gate of an endpoint. -/
theorem Pciectl.readOnly_congr {regs' : Regs} (same : regs' (ctx.scu + ctx.pdata.misc) = regs (ctx.scu + ctx.pdata.misc)) :
    ctx.ReadOnly ep regs' ↔ ctx.ReadOnly ep regs := by
  unfold ReadOnly
  rw [same]

theorem Pciectl.mmioOn_congr {regs' : Regs}
    (same : regs' (ctx.scu + ctx.pdata.config) = regs (ctx.scu + ctx.pdata.config)) : ctx.MmioOn regs' ↔ ctx.MmioOn regs := by
  unfold MmioOn Enabled
  rw [same]

theorem Pciectl.mmioOn_turnedOn (mem : ep ∈ ctx.pdata.endpoints) (mmio : ep.function = .mmio) :
    ctx.MmioOn (ctx.turnedOn ep regs) := by
  refine ⟨ep, mem, mmio, ?_⟩
  unfold Enabled turnedOn
  rw [Function.update_self]
  exact BitVec.or_and_self_right _ _

theorem socReadl_passed {s : Faulty (Watched Regs)} {phys : Word} (passed : ¬ s.FailsAt 0) :
    (socReadl regBus.watched phys).run s = .ok (s.dev.now phys) (s.after 1 s.dev) := access_passed passed

theorem socWritel_passed {s : Faulty (Watched Regs)} {phys val : Word} (passed : ¬ s.FailsAt 0) :
    (socWritel regBus.watched phys val).run s = .ok () (s.after 1 (s.dev.push (Function.update s.dev.now phys val))) :=
  access_passed passed

theorem bridgesEnable_after {id : Int} (found : bridges.desc id = .ok desc) (s : Faulty (Watched Regs)) :
    ∃ r w, (Prog.attempt (bridgesEnable regBus.watched bridges id)).run s =
        .ok r (s.after (if s.FailsAt 0 then 1 else 2) w) ∧
      w.now = if s.FailsAt 0 ∨ s.FailsAt 1 then s.dev.now else desc.ungated bridges.scu s.dev.now := by
  have unfolded : bridgesEnable regBus.watched bridges id = (do
      let val ← socReadl regBus.watched (bridges.scu + desc.reg)
      socWritel regBus.watched (bridges.scu + desc.reg) (val &&& ~~~desc.mask)) := by
    unfold bridgesEnable bridgesConfigure
    rw [found]
    rfl
  rw [unfolded]
  by_cases first : s.FailsAt 0
  · obtain ⟨e, run⟩ := access_failed (f := regBus.watched.readl (bridges.scu + desc.reg)) first
    refine ⟨.error e, s.dev, ?_, by rw [if_pos (Or.inl first)]⟩
    rw [if_pos first]
    exact Prog.attempt_rc (Prog.run_bind_error run)
  · rw [if_neg first]
    by_cases second : s.FailsAt 1
    · obtain ⟨e, run⟩ := access_failed (s := s.after 1 s.dev)
        (f := fun w => ((), regBus.watched.writel (bridges.scu + desc.reg) (s.dev.now (bridges.scu + desc.reg) &&& ~~~desc.mask) w))
        (after_failsAt.mpr second)
      refine ⟨.error e, s.dev, ?_, by rw [if_pos (Or.inr second)]⟩
      refine Prog.attempt_rc ?_
      rw [Prog.run_bind_ok (socReadl_passed first)]
      exact run
    · refine ⟨.ok (), s.dev.push (desc.ungated bridges.scu s.dev.now), Prog.attempt_ok ?_, ?_⟩
      · rw [Prog.run_bind_ok (socReadl_passed first)]
        exact socWritel_passed fun h => second (after_failsAt.mp h)
      · rw [if_neg (not_or.mpr ⟨first, second⟩)]
        rfl

/-- Opening an endpoint behind a gate returns 0 once its first three accesses pass, and leaves out
what the others do where they fail. -/
theorem pciectlDeviceEnforce_gated (apart : ctx.Apart) (controller : ctx.bridges = some bridges)
    (found : ctx.gateDesc bridges ep = .ok desc) (opening : mode ≠ .disabled)
    (regions : pciectlPdataCollectRegionMask ctx.pdata ep ≠ 0) {s : Faulty (Watched Regs)}
    (passed : ∀ n < 3, ¬ s.FailsAt n) : ∃ w, (pciectlDeviceEnforce regBus.watched ctx ep mode).run s =
        .ok () (s.after (if s.FailsAt 4 then 5 else 6) w) ∧
      w.now = (if s.FailsAt 4 ∨ s.FailsAt 5 then id else desc.ungated bridges.scu)
        ((if s.FailsAt 3 then id else ctx.turnedOn ep) (ctx.filtered ep s.dev.now mode)) := by
  obtain ⟨gate, named, known⟩ := Pciectl.gateDesc_ok found
  let filtered := ctx.filtered ep s.dev.now mode
  have stale : s.dev.now (ctx.scu + ctx.pdata.config) = filtered (ctx.scu + ctx.pdata.config) :=
    (Function.update_of_ne apart.misc _ _).symm
  have filter : (socWritel regBus.watched (ctx.scu + ctx.pdata.misc)
      (if mode = .restricted then s.dev.now (ctx.scu + ctx.pdata.misc) ||| pciectlPdataCollectRegionMask ctx.pdata ep
        else s.dev.now (ctx.scu + ctx.pdata.misc) &&& ~~~pciectlPdataCollectRegionMask ctx.pdata ep)).run
      (s.after 2 s.dev) = .ok () (s.after 3 (s.dev.push filtered)) :=
    socWritel_passed fun h => passed 2 (by decide) (after_failsAt.mp h)
  obtain ⟨rc, w₁, on, now₁⟩ : ∃ rc w₁, (Prog.attempt (socWritel regBus.watched (ctx.scu + ctx.pdata.config)
        (s.dev.now (ctx.scu + ctx.pdata.config) ||| (ep.deviceMask ||| ep.functionMask)))).run
        (s.after 3 (s.dev.push filtered)) = .ok rc (s.after 4 w₁) ∧
      w₁.now = (if s.FailsAt 3 then id else ctx.turnedOn ep) filtered := by
    by_cases fails : s.FailsAt 3
    · obtain ⟨e, run⟩ := access_failed (s := s.after 3 (s.dev.push filtered)) (f := fun w => ((),
        regBus.watched.writel (ctx.scu + ctx.pdata.config)
          (s.dev.now (ctx.scu + ctx.pdata.config) ||| (ep.deviceMask ||| ep.functionMask)) w)) (after_failsAt.mpr fails)
      exact ⟨.error e, s.dev.push filtered, Prog.attempt_rc run, by rw [if_pos fails]; rfl⟩
    · refine ⟨.ok (), (s.dev.push filtered).push (ctx.turnedOn ep filtered), Prog.attempt_ok ?_, by rw [if_neg fails]; rfl⟩
      rw [stale]
      exact socWritel_passed fun h => fails (after_failsAt.mp h)
  obtain ⟨r, w, enable, now⟩ := bridgesEnable_after known (s.after 4 w₁)
  simp only [after_failsAt, after_after, after_dev] at enable now
  refine ⟨w, ?_, ?_⟩
  · unfold pciectlDeviceEnforce
    rw [Prog.run_bind_ok (socReadl_passed (passed 0 (by decide))), if_neg opening,
      Prog.run_bind_ok (socReadl_passed fun h => passed 1 (by decide) (after_failsAt.mp h))]
    simp only [after_after, after_dev, Nat.reduceAdd]
    rw [if_neg regions, Prog.run_bind_ok filter, Prog.run_bind_ok on, controller]
    dsimp only
    rw [named]
    rw [Prog.run_bind_ok (show (Prog.ofExcept (.ok gate) : Prog (Faulty (Watched Regs)) Int).run (s.after 4 w₁) =
      .ok gate (s.after 4 w₁) from rfl), Prog.run_bind_ok enable]
    split <;> rfl
  · rw [now, now₁]
    split <;> rfl

theorem pciectlDeviceEnforce_checked (opening : mode ≠ .disabled) (regions : pciectlPdataCollectRegionMask ctx.pdata ep ≠ 0)
    {s s' : Faulty (Watched Regs)} (run : (pciectlDeviceEnforce regBus.watched ctx ep mode).run s = .ok () s') :
    ∀ n < 3, ¬ s.FailsAt n := by
  have stops {α : Type} {f : Watched Regs → α × Watched Regs} {g : α → Prog (Faulty (Watched Regs)) Unit}
      {t : Faulty (Watched Regs)} (fails : t.FailsAt 0) : (access f >>= g).run t ≠ .ok () s' := by
    obtain ⟨e, failed⟩ := access_failed (f := f) fails
    rw [Prog.run_bind_error failed]
    exact fun h => nomatch h
  unfold pciectlDeviceEnforce at run
  have zero : ¬ s.FailsAt 0 := fun fails => stops fails run
  rw [Prog.run_bind_ok (socReadl_passed zero), if_neg opening] at run
  have one : ¬ s.FailsAt 1 := fun fails => stops (after_failsAt.mpr fails) run
  rw [Prog.run_bind_ok (socReadl_passed fun h => one (after_failsAt.mp h))] at run
  dsimp only at run
  rw [if_neg regions] at run
  have two : ¬ s.FailsAt 2 := fun fails => stops (after_failsAt.mpr (after_failsAt.mpr fails)) run
  intro n small
  match n with
  | 0 => exact zero
  | 1 => exact one
  | 2 => exact two

/-- Without a gate, opening an endpoint returns 0 only if all of it was done. -/
theorem pciectlDeviceEnforce_ungated (apart : ctx.Apart) (controller : ctx.bridges = none) (opening : mode ≠ .disabled)
    (regions : pciectlPdataCollectRegionMask ctx.pdata ep ≠ 0) {s s' : Faulty (Watched Regs)}
    (run : (pciectlDeviceEnforce regBus.watched ctx ep mode).run s = .ok () s') :
    s'.dev.now = ctx.turnedOn ep (ctx.filtered ep s.dev.now mode) := by
  have passed := pciectlDeviceEnforce_checked opening regions run
  unfold pciectlDeviceEnforce at run
  rw [Prog.run_bind_ok (socReadl_passed (passed 0 (by decide))), if_neg opening,
    Prog.run_bind_ok (socReadl_passed fun h => passed 1 (by decide) (after_failsAt.mp h))] at run
  dsimp only at run
  rw [if_neg regions, Prog.run_bind_ok (socWritel_passed fun h =>
    passed 2 (by decide) (after_failsAt.mp (after_failsAt.mp h))), controller] at run
  obtain ⟨rc, s₁, write, last⟩ := Prog.bind_ok_iff.mp run
  cases rc with
  | error e => cases last
  | ok _ =>
    cases last
    rw [(access_ok (Prog.attempt_ok_iff.mp write)).2]
    have stale : s.dev.now (ctx.scu + ctx.pdata.config) =
        ctx.filtered ep s.dev.now mode (ctx.scu + ctx.pdata.config) := (Function.update_of_ne apart.misc _ _).symm
    show Function.update (ctx.filtered ep s.dev.now mode) (ctx.scu + ctx.pdata.config)
      (s.dev.now (ctx.scu + ctx.pdata.config) ||| (ep.deviceMask ||| ep.functionMask)) = _
    rw [stale]
    rfl

/-- The regions of all MMIO endpoints are as the mode asks for. -/
def Pciectl.FilteredAs (ctx : Pciectl) (mode : BridgeMode) (regs : Regs) : Prop :=
  ∀ ep ∈ ctx.pdata.endpoints, ep.function = .mmio → (ctx.ReadOnly ep regs ↔ mode = .restricted)

theorem Pciectl.FilteredAs.congr {regs' : Regs} (filter : ctx.FilteredAs mode regs)
    (same : regs' (ctx.scu + ctx.pdata.misc) = regs (ctx.scu + ctx.pdata.misc)) : ctx.FilteredAs mode regs' := by
  intro ep mem mmio
  rw [Pciectl.readOnly_congr same]
  exact filter ep mem mmio

theorem Pciectl.filteredAs_turnedOn (apart : ctx.Apart) (mmio : ep.function = .mmio)
    (some : ctx.pdata.regions.foldl (· ||| ·) 0 ≠ 0) :
    ctx.FilteredAs mode (ctx.turnedOn ep (ctx.filtered ep regs mode)) := by
  have filter : ctx.FilteredAs mode (ctx.filtered ep regs mode) :=
    fun _ _ also => Pciectl.readOnly_filtered mmio also some
  exact filter.congr (Function.update_of_ne apart.misc.symm _ _)

/-- What opening one endpoint behind a gate makes of the registers, where `on` and `gate` tell
whether the last two updates are lost. -/
theorem Pciectl.opened_gated (apart : ctx.Apart) (controller : ctx.bridges = some bridges)
    (mem : ep ∈ ctx.pdata.endpoints) (mmio : ep.function = .mmio) (found : ctx.gateDesc bridges ep = .ok desc)
    (some : ctx.pdata.regions.foldl (· ||| ·) 0 ≠ 0) {on gate : Prop} [Decidable on] [Decidable gate] {regs' : Regs}
    (same : regs' = (if gate then id else desc.ungated bridges.scu)
      ((if on then id else ctx.turnedOn ep) (ctx.filtered ep regs mode))) :
    ctx.FilteredAs mode regs' ∧ (ctx.MmioOn regs' ↔ ctx.MmioOn regs ∨ ¬ on) ∧
      (desc.Ungated bridges.scu regs' ↔ desc.Ungated bridges.scu regs ∨ ¬ gate) := by
  obtain ⟨configGate, miscGate⟩ := apart.gate bridges controller ep mem desc found
  have filter : ctx.FilteredAs mode (ctx.filtered ep regs mode) :=
    fun _ _ also => Pciectl.readOnly_filtered mmio also some
  have inner (regs₁ : Regs) (same₁ : regs₁ = (if on then id else ctx.turnedOn ep) (ctx.filtered ep regs mode)) :
      ctx.FilteredAs mode regs₁ ∧ (ctx.MmioOn regs₁ ↔ ctx.MmioOn regs ∨ ¬ on) ∧
        (desc.Ungated bridges.scu regs₁ ↔ desc.Ungated bridges.scu regs) := by
    subst same₁
    by_cases lost : on
    · simp only [lost, if_true, id, not_true_eq_false, or_false]
      exact ⟨filter, Pciectl.mmioOn_congr (Function.update_of_ne apart.misc _ _),
        BridgeGateDesc.ungated_congr (Function.update_of_ne miscGate.symm _ _)⟩
    · simp only [lost, if_false, not_false_eq_true, or_true, iff_true]
      refine ⟨Pciectl.filteredAs_turnedOn apart mmio some, Pciectl.mmioOn_turnedOn mem mmio, ?_⟩
      refine BridgeGateDesc.ungated_congr ?_
      exact (Function.update_of_ne configGate.symm _ _).trans (Function.update_of_ne miscGate.symm _ _)
  obtain ⟨filter₁, on₁, gate₁⟩ := inner _ rfl
  subst same
  by_cases lost : gate
  · simp only [lost, if_true, id, not_true_eq_false, or_false]
    exact ⟨filter₁, on₁, gate₁⟩
  · simp only [lost, if_false, not_false_eq_true, or_true, iff_true]
    refine ⟨filter₁.congr (Function.update_of_ne miscGate _ _), ?_, BridgeGateDesc.ungated_ungated _ _ _⟩
    exact (Pciectl.mmioOn_congr (Function.update_of_ne configGate _ _)).trans on₁

theorem pciectlDeviceEnforce_off {s s' : Faulty (Watched Regs)}
    (run : (pciectlDeviceEnforce regBus.watched ctx ep .disabled).run s = .ok () s') :
    s'.dev.now = ctx.turnedOff ep s.dev.now := by
  unfold pciectlDeviceEnforce at run
  obtain ⟨pcie, s₁, read, write⟩ := Prog.bind_ok_iff.mp run
  obtain ⟨value, dev⟩ := access_ok read
  rw [value, if_pos rfl] at write
  rw [(access_ok write).2, dev]
  rfl

/-- Once disabling returns 0, each function is off. -/
theorem pciectlEnforceEach_off {function : DeviceFunction} {eps : List PciectlEndpoint} {s s' : Faulty (Watched Regs)}
    (run : (pciectlEnforceEach regBus.watched ctx .disabled function eps).run s = .ok () s') : ∃ keep : Word,
      s'.dev.now (ctx.scu + ctx.pdata.config) = s.dev.now (ctx.scu + ctx.pdata.config) &&& keep ∧
      ∀ ep ∈ eps, ep.function = function → keep &&& ep.functionMask = 0 := by
  induction eps generalizing s with
  | nil =>
    cases run
    exact ⟨BitVec.allOnes 32, (BitVec.and_allOnes).symm, fun ep mem => nomatch mem⟩
  | cons curr rest ih =>
    unfold pciectlEnforceEach at run
    by_cases same : curr.function = function
    · rw [if_pos same] at run
      obtain ⟨_, s₁, head, tail⟩ := Prog.bind_ok_iff.mp run
      obtain ⟨keep, value, cleared⟩ := ih tail
      rw [pciectlDeviceEnforce_off head] at value
      refine ⟨~~~curr.functionMask &&& keep, ?_, PciectlEndpoint.cleared_cons cleared⟩
      rw [value, Pciectl.turnedOff, Function.update_self, BitVec.and_assoc]
    · rw [if_neg same] at run
      obtain ⟨keep, value, cleared⟩ := ih run
      refine ⟨keep, value, ?_⟩
      rw [List.forall_mem_cons]
      exact ⟨fun h => absurd h same, cleared⟩

end

/-- The endpoint of a generation in front of the P2A bridge, behind the given device. -/
def bmcMmio (gen : AstGeneration) : PciectlEndpoint :=
  ⟨scuPcieConfigBmc, .mmio, scuPcieConfigBmcMmio, if gen = .g6 then some "p2a" else none⟩

def vgaMmio (gen : AstGeneration) : PciectlEndpoint :=
  ⟨scuPcieConfigVga, .mmio, scuPcieConfigVgaMmio, if gen = .g6 then some "p2a" else none⟩

theorem mem_endpoints_mmio (gen : AstGeneration) :
    bmcMmio gen ∈ (pciectl gen).pdata.endpoints ∧ vgaMmio gen ∈ (pciectl gen).pdata.endpoints := by
  cases gen <;> decide

theorem p2actlEnforce_eq {σ : Type} (bus : Bus σ) (gen : AstGeneration) (mode : BridgeMode) :
    p2actlEnforce bus (pciectl gen) mode = (do
      pciectlDeviceEnforce bus (pciectl gen) (bmcMmio gen) mode
      pciectlDeviceEnforce bus (pciectl gen) (vgaMmio gen) mode) := by
  have last : p2actlEnforce bus (pciectl gen) mode = (do
      pciectlDeviceEnforce bus (pciectl gen) (bmcMmio gen) mode
      pciectlDeviceEnforce bus (pciectl gen) (vgaMmio gen) mode
      pure ()) := by
    cases gen <;> rfl
  simp only [last, bind_pure_unit]

theorem pciectl_regions (gen : AstGeneration) : (pciectl gen).pdata.regions.foldl (· ||| ·) 0 ≠ 0 := by
  cases gen <;> decide

theorem pciectl_mmio_gate {ep : PciectlEndpoint} (mem : ep ∈ (pciectl .g6).pdata.endpoints) (mmio : ep.function = .mmio) :
    (pciectl .g6).gateDesc ⟨0x1e6e2000, ast2600BridgeGates⟩ ep = .ok ⟨ast2600ScuDbgctl1, 1 <<< 0⟩ := by
  have known : ep ∈ ast2600PcieBridges := mem
  simp only [ast2600PcieBridges, List.mem_cons, List.not_mem_nil, or_false] at known
  rcases known with rfl | rfl | rfl | rfl
  · rfl
  · rfl
  · cases mmio
  · cases mmio

/-- The gate of the AST2600 in front of the P2A bridge is open. -/
def P2aUngated (regs : Regs) : Prop := (⟨ast2600ScuDbgctl1, 1 <<< 0⟩ : BridgeGateDesc).Ungated 0x1e6e2000 regs

theorem pciectl_mmioOpen_iff (regs : Regs) :
    (pciectl .g6).MmioOpen regs ↔ P2aUngated regs ∧ (pciectl .g6).MmioOn regs := by
  have gated {ep : PciectlEndpoint} (mem : ep ∈ (pciectl .g6).pdata.endpoints) (mmio : ep.function = .mmio) :
      (pciectl .g6).Ungated ep regs ↔ P2aUngated regs :=
    Pciectl.ungated_of_gate rfl (pciectl_mmio_gate mem mmio)
  constructor
  · rintro ⟨ep, mem, mmio, ungated, enabled⟩
    exact ⟨(gated mem mmio).mp ungated, ep, mem, mmio, enabled⟩
  · rintro ⟨ungated, ep, mem, mmio, enabled⟩
    exact ⟨ep, mem, mmio, (gated mem mmio).mpr ungated, enabled⟩

/-- Enforcing `mode` from these registers either fails or ends with that status, and changes only
bits of the bridge. -/
def P2aAgrees (gen : AstGeneration) (mode : BridgeMode) (regs : Regs) (fails : Nat → Option Errno) : Prop :=
  (∀ s', (p2actlEnforce regBus.watched (pciectl gen) mode).run (watching regs fails) = .ok () s' →
    Yields s'.dev.now (p2actlStatus regBus (pciectl gen)) mode s'.dev.now) ∧
  Confined (pciectl gen).p2aBits regs
    ((p2actlEnforce regBus.watched (pciectl gen) mode).run (watching regs fails)).state.dev.now

/-- Where the accesses for the second endpoint start: the gate is not written if it was not read. -/
def p2aSecond (fails : Nat → Option Errno) : Nat := if (fails 4).isSome then 5 else 6

/-- The accesses whose failure is returned pass, and the updates that open the bridge are lost: the
ones for both endpoints, where the gate or an endpoint was not open before. -/
def P2aLost (regs : Regs) (fails : Nat → Option Errno) : Prop :=
  (∀ n < 3, fails n = none ∧ fails (p2aSecond fails + n) = none) ∧
  (¬ (pciectl .g6).MmioOn regs ∧ (fails 3).isSome ∧ (fails (p2aSecond fails + 3)).isSome ∨
    ¬ P2aUngated regs ∧ ((fails 4).isSome ∨ (fails 5).isSome) ∧
      ((fails (p2aSecond fails + 4)).isSome ∨ (fails (p2aSecond fails + 5)).isSome))

theorem p2actlEnforce_disabled_agrees {gen : AstGeneration} {s s' : Faulty (Watched Regs)}
    (run : (p2actlEnforce regBus.watched (pciectl gen) .disabled).run s = .ok () s') :
    (pciectl gen).mode s'.dev.now .mmio = .disabled := by
  obtain ⟨keep, value, cleared⟩ := pciectlEnforceEach_off run
  refine Pciectl.mode_of_cleared (pciectl_wired gen) fun ep mem mmio => ?_
  rw [value, BitVec.and_assoc, cleared ep mem mmio]
  exact BitVec.and_zero

theorem p2actlEnforce_ungated_agrees {gen : AstGeneration} {mode : BridgeMode} (old : gen ≠ .g6)
    (opening : mode ≠ .disabled) {s s' : Faulty (Watched Regs)}
    (run : (p2actlEnforce regBus.watched (pciectl gen) mode).run s = .ok () s') :
    (pciectl gen).mode s'.dev.now .mmio = mode := by
  have controller : (pciectl gen).bridges = none := by
    cases gen with
    | g4 => rfl
    | g5 => rfl
    | g6 => exact absurd rfl old
  obtain ⟨bmc, vga⟩ := mem_endpoints_mmio gen
  have some := pciectl_regions gen
  rw [p2actlEnforce_eq] at run
  obtain ⟨_, s₁, _, second⟩ := Prog.bind_ok_iff.mp run
  have last := pciectlDeviceEnforce_ungated (pciectl_apart gen) controller opening
    (by rw [regionMask_mmio rfl]; exact some) second
  rw [last]
  refine (Pciectl.mode_filtered opening ?_).mpr ?_
  · exact Pciectl.filteredAs_turnedOn (pciectl_apart gen) rfl some
  · obtain ⟨ep, mem, mmio, on⟩ := @Pciectl.mmioOn_turnedOn (pciectl gen) (vgaMmio gen)
      ((pciectl gen).filtered (vgaMmio gen) s₁.dev.now mode) vga rfl
    exact ⟨ep, mem, mmio, Pciectl.ungated_of_none controller, on⟩

/-- Of two updates of each kind, one is enough. -/
theorem updates_kept_iff {gate on gate₁ gate₂ on₁ on₂ : Prop} :
    ((gate ∨ ¬ gate₁) ∨ ¬ gate₂) ∧ ((on ∨ ¬ on₁) ∨ ¬ on₂) ↔ ¬ (¬ on ∧ on₁ ∧ on₂ ∨ ¬ gate ∧ gate₁ ∧ gate₂) := by
  tauto

theorem watching_failsAt (regs : Regs) (fails : Nat → Option Errno) (n : Nat) :
    (watching regs fails).FailsAt n ↔ (fails n).isSome := by
  unfold FailsAt
  rw [show (watching regs fails).accesses + n = n from Nat.zero_add n]
  rfl

/-- On the AST2600 the call returns 0 once the first three accesses for each endpoint pass. -/
theorem p2actlEnforce_gated {mode : BridgeMode} (opening : mode ≠ .disabled) {regs : Regs} {fails : Nat → Option Errno}
    (passed : ∀ n < 3, fails n = none ∧ fails (p2aSecond fails + n) = none) : ∃ s',
      (p2actlEnforce regBus.watched (pciectl .g6) mode).run (watching regs fails) = .ok () s' ∧
      ((pciectl .g6).mode s'.dev.now .mmio = mode ↔ ¬ P2aLost regs fails) := by
  let s := watching regs fails
  have failsAt (n : Nat) : s.FailsAt n ↔ (fails n).isSome := watching_failsAt regs fails n
  have next : (if s.FailsAt 4 then 5 else 6) = p2aSecond fails := by
    unfold p2aSecond
    simp only [failsAt]
  have unfailed (n : Nat) (none : fails n = none) : ¬ s.FailsAt n := by
    rw [failsAt, none]
    exact fun h => nomatch h
  obtain ⟨bmc, vga⟩ := mem_endpoints_mmio .g6
  have some := pciectl_regions .g6
  have apart := pciectl_apart .g6
  obtain ⟨w₁, run₁, now₁⟩ := pciectlDeviceEnforce_gated apart rfl (pciectl_mmio_gate bmc rfl) opening
    (by rw [regionMask_mmio rfl]; exact some) (s := s) fun n small => unfailed n (passed n small).1
  rw [next] at run₁
  obtain ⟨w₂, run₂, now₂⟩ := pciectlDeviceEnforce_gated apart rfl (pciectl_mmio_gate vga rfl) opening
    (by rw [regionMask_mmio rfl]; exact some) (s := s.after (p2aSecond fails) w₁) fun n small h =>
      unfailed _ (passed n small).2 (after_failsAt.mp h)
  obtain ⟨_, on₁, gate₁⟩ := Pciectl.opened_gated apart rfl bmc rfl (pciectl_mmio_gate bmc rfl) some now₁
  obtain ⟨filter, on₂, gate₂⟩ := Pciectl.opened_gated apart rfl vga rfl (pciectl_mmio_gate vga rfl) some now₂
  simp only [after_dev, after_failsAt] at on₂ gate₂ now₂
  refine ⟨(s.after (p2aSecond fails) w₁).after (if (s.after (p2aSecond fails) w₁).FailsAt 4 then 5 else 6) w₂, ?_, ?_⟩
  · rw [p2actlEnforce_eq, Prog.run_bind_ok run₁]
    exact run₂
  · show (pciectl .g6).mode w₂.now .mmio = mode ↔ _
    have start : s.dev.now = regs := rfl
    rw [start] at on₁ gate₁
    rw [Pciectl.mode_filtered opening filter, pciectl_mmioOpen_iff, on₂, on₁]
    unfold P2aLost P2aUngated
    rw [gate₂, gate₁]
    simp only [failsAt]
    rw [updates_kept_iff, iff_true_intro passed, true_and]

theorem p2actlEnforce_passed {mode : BridgeMode} (opening : mode ≠ .disabled) {regs : Regs} {fails : Nat → Option Errno}
    {s' : Faulty (Watched Regs)}
    (run : (p2actlEnforce regBus.watched (pciectl .g6) mode).run (watching regs fails) = .ok () s') :
    ∀ n < 3, fails n = none ∧ fails (p2aSecond fails + n) = none := by
  have regions (ep : PciectlEndpoint) (mmio : ep.function = .mmio) :
      pciectlPdataCollectRegionMask (pciectl .g6).pdata ep ≠ 0 := by
    rw [regionMask_mmio mmio]
    exact pciectl_regions .g6
  rw [p2actlEnforce_eq] at run
  obtain ⟨_, s₁, first, second⟩ := Prog.bind_ok_iff.mp run
  have passed := pciectlDeviceEnforce_checked opening (regions _ rfl) first
  obtain ⟨w₁, run₁, _⟩ := pciectlDeviceEnforce_gated (pciectl_apart .g6) rfl
    (pciectl_mmio_gate (mem_endpoints_mmio .g6).1 rfl) opening (regions _ rfl) passed
  rw [first] at run₁
  cases run₁
  have passed' := pciectlDeviceEnforce_checked opening (regions _ rfl) second
  have next : (if (watching regs fails).FailsAt 4 then 5 else 6) = p2aSecond fails := by
    unfold p2aSecond
    simp only [watching_failsAt]
  rw [next] at passed'
  intro n small
  have here := passed n small
  have there : ¬ (watching regs fails).FailsAt (p2aSecond fails + n) := fun h => passed' n small (after_failsAt.mpr h)
  rw [watching_failsAt, Option.not_isSome_iff_eq_none] at here there
  exact ⟨here, there⟩

theorem p2a_not_agrees_of_lost {mode : BridgeMode} (opening : mode ≠ .disabled) {regs : Regs}
    {fails : Nat → Option Errno} (lost : P2aLost regs fails) : ¬ P2aAgrees .g6 mode regs fails := by
  rintro ⟨agrees, _⟩
  obtain ⟨s', run, same⟩ := @p2actlEnforce_gated mode opening regs fails lost.1
  obtain ⟨_, actual, _⟩ := agrees s' run ⟨s'.dev.now, fun _ => none, 0⟩ (fun _ => rfl) rfl
  have status := pciectlStatus_observes (pciectl_wired .g6) .mmio
  exact same.mp (status.ok actual).1.symm lost

/-- What the call returns is the truth, except where the updates that open the bridge of an AST2600
are lost. -/
theorem p2actl_agrees_iff (gen : AstGeneration) (mode : BridgeMode) (regs : Regs) (fails : Nat → Option Errno) :
    P2aAgrees gen mode regs fails ↔ ¬ (gen = .g6 ∧ mode ≠ .disabled ∧ P2aLost regs fails) := by
  have status := pciectlStatus_observes (pciectl_wired gen) .mmio
  have confined := p2actlEnforce_confined (pciectl_apart gen) (pciectl_wired gen) mode regs fails
  constructor
  · rintro agrees ⟨rfl, opening, lost⟩
    exact p2a_not_agrees_of_lost opening lost agrees
  · intro kept
    refine ⟨fun s' run => ?_, confined⟩
    have mode : (pciectl gen).mode s'.dev.now .mmio = mode := by
      by_cases disabled : mode = .disabled
      · subst disabled
        exact p2actlEnforce_disabled_agrees run
      · by_cases six : gen = .g6
        · subst six
          have passed := p2actlEnforce_passed disabled run
          obtain ⟨s'', run', same⟩ := @p2actlEnforce_gated mode disabled regs fails passed
          rw [run] at run'
          cases run'
          exact same.mpr fun lost => kept ⟨rfl, disabled, lost⟩
        · exact p2actlEnforce_ungated_agrees six disabled run
    have observed := status.yields s'.dev.now
    rw [mode] at observed
    exact observed

/-- The registers of a closed bridge are all clear, and both writes that turn an endpoint on fail. -/
theorem p2actl_not_agrees :
    ¬ P2aAgrees .g6 .restricted (fun _ => 0) fun n => if n = 3 ∨ n = 9 then some eperm else none := by
  have opening : BridgeMode.restricted ≠ .disabled := by decide
  refine p2a_not_agrees_of_lost opening ⟨by decide, Or.inl ⟨?_, rfl, rfl⟩⟩
  rintro ⟨ep, mem, mmio, on⟩
  have bit : ∀ ep ∈ ast2600PcieBridges, (0 : Word) &&& (ep.deviceMask ||| ep.functionMask) ≠
      ep.deviceMask ||| ep.functionMask := by decide
  exact bit ep mem on

end Culvert
