import Culvert.Hw.Straps
import Culvert.Soc.Controllers

namespace Culvert
open Faulty Watched

namespace Ilpcctl
variable (ctx : Ilpcctl) (regs : Regs)

/-- HICRB as the enforcement of a mode writes it. -/
def hicrbFor (mode : BridgeMode) (hicrb : Word) : Word :=
  if ctx.gate.isNone then
    if mode = .restricted then hicrb ||| lpcHicrbIlpcRo else hicrb &&& ~~~lpcHicrbIlpcRo
  else
    match mode with
    | .permissive => hicrb &&& ~~~(lpcHicrbIlpcDis ||| lpcHicrbIlpcRo)
    | .restricted => hicrb &&& ~~~lpcHicrbIlpcDis ||| lpcHicrbIlpcRo
    | .disabled => hicrb ||| lpcHicrbIlpcDis

def filtered (mode : BridgeMode) : Regs :=
  Function.update regs (ctx.lpc + lpcHicrb) (ctx.hicrbFor mode (regs (ctx.lpc + lpcHicrb)))

/-- The registers with the gate open, where there is one. -/
def ungated : Regs :=
  match ctx.gate with
  | none => regs
  | some (bridges, gate) =>
    match bridges.desc gate with
    | .error _ => regs
    | .ok desc => desc.ungated bridges.scu regs

/-- The registers with the SuperIO decoded at 2e. -/
def decoded : Regs :=
  unstrapped ctx.gen (sioctlPdata ctx.gen).disable (unstrapped ctx.gen (sioctlPdata ctx.gen).select regs)

/-- What an enforcement that returns 0 makes of the registers. -/
def enforced (mode : BridgeMode) : Regs :=
  if mode = .disabled then
    if ctx.gate.isNone then strapped ctx.gen (sioctlPdata ctx.gen).disable regs else ctx.filtered regs mode
  else ctx.decoded (ctx.ungated (ctx.filtered regs mode))

/-- The registers are different ones, and those that are not straps are written plainly. -/
structure Apart (ctx : Ilpcctl) : Prop where
  hicrb : ctx.lpc + lpcHicrb ∉ strapRegs ctx.gen
  strap : ctx.lpc + lpcHicrb ≠ sioStrap ctx.gen
  gate : ∀ bridges gate, ctx.gate = some (bridges, gate) → ∀ desc, bridges.desc gate = .ok desc →
    bridges.scu + desc.reg ∉ strapRegs ctx.gen ∧ bridges.scu + desc.reg ≠ sioStrap ctx.gen ∧
      bridges.scu + desc.reg ≠ ctx.lpc + lpcHicrb

end Ilpcctl

theorem ilpcctl_wired (gen : AstGeneration) : (ilpcctl gen).Wired := by
  intro bridges gate some
  cases gen
  · cases some
  · cases some
  · cases some
    exact ⟨_, rfl⟩

theorem ilpcctl_apart (gen : AstGeneration) : (ilpcctl gen).Apart := by
  refine ⟨?_, ?_, fun bridges gate some desc found => ?_⟩
  · cases gen <;> decide
  · cases gen <;> decide
  · cases gen
    · cases some
    · cases some
    · cases some
      cases found
      decide

/-- What each write of the enforcement makes of `P`: it is `P'` once HICRB is written. -/
structure IlpcSteps (ctx : Ilpcctl) (mode : BridgeMode) (P P' : Regs → Prop) : Prop where
  off : mode = .disabled → ∀ regs, P regs → P (strapped ctx.gen (sioctlPdata ctx.gen).disable regs)
  filter : (mode = .disabled → ctx.gate.isNone = false) → ∀ regs, P regs → P' (ctx.filtered regs mode)
  gate : mode ≠ .disabled → ∀ regs, P' regs → P' (ctx.ungated regs)
  select : mode ≠ .disabled → ∀ regs, P' regs → P' (unstrapped ctx.gen (sioctlPdata ctx.gen).select regs)
  decode : mode ≠ .disabled → ∀ regs, P' regs → P' (unstrapped ctx.gen (sioctlPdata ctx.gen).disable regs)
  weaken : ∀ regs, P' regs → P regs

section
variable {ctx : Ilpcctl} {mode : BridgeMode} {P P' : Regs → Prop} {w : Watched Regs} {regs₀ : Regs}

theorem sioctlDecodeConfigure_2e_passes (steps : IlpcSteps ctx mode P P') (opening : mode ≠ .disabled)
    (ready : P' w.now) (safe : Through P w) :
    Passes (Through P) w (sioctlDecodeConfigure (strapBus ctx.gen).watched ctx.gen .at2e)
      fun _ w' => Through P w' ∧ w'.now = ctx.decoded w.now := by
  have select := steps.select opening _ ready
  have safe₁ := safe.push (steps.weaken _ select)
  refine Passes.bind (strapClear_passes ctx.gen safe) ?_
  rintro _ _ rfl
  refine (strapClear_passes ctx.gen safe₁).conseq ?_
  rintro _ _ rfl
  exact ⟨safe₁.push (steps.weaken _ (steps.decode opening _ select)), rfl⟩

theorem ilpcctlEnforce_passes (apart : ctx.Apart) (wired : ctx.Wired) (steps : IlpcSteps ctx mode P P')
    (safe : Through P w) : Passes (Through P) w (ilpcctlEnforce (strapBus ctx.gen).watched ctx mode)
      fun _ w' => Through P w' ∧ w'.now = ctx.enforced w.now mode := by
  have write : ∀ val regs, (strapBus ctx.gen).writel (ctx.lpc + lpcHicrb) val regs =
    Function.update regs (ctx.lpc + lpcHicrb) val := strapWrite_other apart.hicrb
  unfold ilpcctlEnforce
  cases gate : ctx.gate with
  | none =>
    show Passes (Through P) w (ast2400IlpcctlEnforce (strapBus ctx.gen).watched ctx mode) _
    have none : ctx.gate.isNone = true := by rw [gate]; rfl
    unfold ast2400IlpcctlEnforce
    refine Passes.ite (fun disabled => ?_) fun opening => ?_
    · refine (strapSet_passes ctx.gen safe).conseq ?_
      rintro _ _ rfl
      refine ⟨safe.push (steps.off disabled _ safe.1), ?_⟩
      unfold Ilpcctl.enforced
      rw [if_pos disabled, if_pos none]
      rfl
    · refine Passes.bind (socReadl_passes (strapBus_plain ctx.gen)
        (Q := fun v w' => v = w.now (ctx.lpc + lpcHicrb) ∧ w = w') safe ⟨rfl, rfl⟩) ?_
      rintro _ _ ⟨rfl, rfl⟩
      have filtered : ctx.filtered w.now mode = Function.update w.now (ctx.lpc + lpcHicrb)
          (if mode = .restricted then w.now (ctx.lpc + lpcHicrb) ||| lpcHicrbIlpcRo
            else w.now (ctx.lpc + lpcHicrb) &&& ~~~lpcHicrbIlpcRo) := by
        unfold Ilpcctl.filtered Ilpcctl.hicrbFor
        rw [if_pos none]
      have ready := steps.filter (fun disabled => absurd disabled opening) _ safe.1
      have safe₁ := safe.push (steps.weaken _ ready)
      refine Passes.bind (Q := fun _ w' => w' = w.push (ctx.filtered w.now mode)) (socWritel_passes safe ?_) ?_
      · rw [write, filtered]
      rintro _ _ rfl
      refine (sioctlDecodeConfigure_2e_passes steps opening ready safe₁).conseq ?_
      rintro _ w' ⟨through, last⟩
      refine ⟨through, last.trans ?_⟩
      unfold Ilpcctl.enforced Ilpcctl.ungated
      rw [if_neg opening, gate]
      rfl
  | some found =>
    obtain ⟨bridges, id⟩ := found
    obtain ⟨desc, known⟩ := wired bridges id gate
    obtain ⟨gatePlain, _, _⟩ := apart.gate bridges id gate desc known
    show Passes (Through P) w (ast2600IlpcctlEnforce (strapBus ctx.gen).watched ctx bridges id mode) _
    have none : ctx.gate.isNone = false := by rw [gate]; rfl
    have ready := steps.filter (fun _ => none) _ safe.1
    have safe₁ := safe.push (steps.weaken _ ready)
    unfold ast2600IlpcctlEnforce
    refine Passes.bind (socReadl_passes (strapBus_plain ctx.gen)
      (Q := fun v w' => v = w.now (ctx.lpc + lpcHicrb) ∧ w = w') safe ⟨rfl, rfl⟩) ?_
    rintro _ _ ⟨rfl, rfl⟩
    refine Passes.bind (Q := fun _ w' => w' = w.push (ctx.filtered w.now mode)) (socWritel_passes safe ?_) ?_
    · rw [write]
      unfold Ilpcctl.filtered Ilpcctl.hicrbFor
      rw [none]
      rfl
    rintro _ _ rfl
    have all : mode = .disabled ↔ ¬ (mode = .permissive ∨ mode = .restricted) := by
      cases mode <;> decide
    refine Passes.ite (fun opening => ?_) fun disabled => ?_
    · have opening : mode ≠ .disabled := fun h => all.mp h opening
      have ungated := steps.gate opening _ ready
      have same : ctx.ungated (ctx.filtered w.now mode) = desc.ungated bridges.scu (ctx.filtered w.now mode) := by
        unfold Ilpcctl.ungated
        rw [gate]
        simp only [known]
      refine Passes.bind (bridgesEnable_passes (strapBus_plain ctx.gen) (strapWrite_other gatePlain) known safe₁) ?_
      rintro _ _ rfl
      have safe₂ := safe₁.push (steps.weaken _ ungated)
      rw [same] at ungated safe₂
      refine (sioctlDecodeConfigure_2e_passes steps opening ungated safe₂).conseq ?_
      rintro _ w' ⟨through, last⟩
      refine ⟨through, last.trans ?_⟩
      unfold Ilpcctl.enforced
      rw [if_neg opening, same]
      rfl
    · refine Passes.pure ⟨safe₁, ?_⟩
      unfold Ilpcctl.enforced
      rw [if_pos (all.mpr disabled), none]
      rfl

theorem Ilpcctl.ungated_cases (ctx : Ilpcctl) (regs : Regs) : ctx.ungated regs = regs ∨ ∃ bridges gate desc,
    ctx.gate = some (bridges, gate) ∧ bridges.desc gate = .ok desc ∧ ctx.ungated regs = desc.ungated bridges.scu regs := by
  unfold ungated
  cases gate : ctx.gate with
  | none => exact Or.inl rfl
  | some found =>
    obtain ⟨bridges, id⟩ := found
    cases known : bridges.desc id with
    | error e =>
      refine Or.inl ?_
      simp only [known]
    | ok desc =>
      refine Or.inr ⟨bridges, id, desc, rfl, known, ?_⟩
      simp only [known]

theorem Ilpcctl.ungated_of_ne (regs : Regs) {phys : Word} (other : ∀ bridges gate desc,
    ctx.gate = some (bridges, gate) → bridges.desc gate = .ok desc → phys ≠ bridges.scu + desc.reg) :
    ctx.ungated regs phys = regs phys := by
  rcases ctx.ungated_cases regs with same | ⟨bridges, gate, desc, some, known, same⟩
  · rw [same]
  · rw [same]
    exact Function.update_of_ne (other bridges gate desc some known) _ _

theorem sioctlDecode_strapped (gen : AstGeneration) (regs : Regs) :
    sioctlDecode gen (strapped gen (sioctlPdata gen).disable regs) = .disable := by
  have some : (sioctlPdata gen).disable ≠ 0 := by cases gen <;> decide
  have bit : strapped gen (sioctlPdata gen).disable regs (scuBase + (sioctlPdata gen).reg) &&& (sioctlPdata gen).disable =
      (sioctlPdata gen).disable := by
    unfold strapped
    rw [show scuBase + (sioctlPdata gen).reg = sioStrap gen from rfl, Function.update_self]
    exact BitVec.or_and_self_right _ _
  unfold sioctlDecode
  rw [bit, if_pos some]

theorem sioctlDecode_unstrapped (gen : AstGeneration) (regs : Regs) :
    sioctlDecode gen (unstrapped gen (sioctlPdata gen).disable regs) ≠ .disable := by
  have bit : unstrapped gen (sioctlPdata gen).disable regs (scuBase + (sioctlPdata gen).reg) &&&
      (sioctlPdata gen).disable = 0 := by
    unfold unstrapped
    rw [show scuBase + (sioctlPdata gen).reg = sioStrap gen from rfl, Function.update_self]
    exact BitVec.and_not_and_self _ _
  unfold sioctlDecode
  rw [bit, if_neg fun h => h rfl]
  split
  · exact fun h => nomatch h
  · exact fun h => nomatch h

theorem Ilpcctl.hicrbFor_off (gated : ctx.gate.isNone = false) (hicrb : Word) :
    ctx.hicrbFor mode hicrb &&& lpcHicrbIlpcDis ≠ 0 ↔ mode = .disabled := by
  unfold hicrbFor
  rw [gated]
  cases mode with
  | permissive =>
    have clear : hicrb &&& ~~~(lpcHicrbIlpcDis ||| lpcHicrbIlpcRo) &&& lpcHicrbIlpcDis = 0 :=
      BitVec.and_not_or_and_left _ _ _
    exact ⟨fun set => absurd clear set, fun h => nomatch h⟩
  | restricted =>
    have clear : (hicrb &&& ~~~lpcHicrbIlpcDis ||| lpcHicrbIlpcRo) &&& lpcHicrbIlpcDis = 0 :=
      BitVec.and_not_or_and _ _ (by decide)
    exact ⟨fun set => absurd clear set, fun h => nomatch h⟩
  | disabled =>
    have set : (hicrb ||| lpcHicrbIlpcDis) &&& lpcHicrbIlpcDis = lpcHicrbIlpcDis := BitVec.or_and_self_right _ _
    refine ⟨fun _ => rfl, fun _ clear => ?_⟩
    have none : lpcHicrbIlpcDis = 0 := set.symm.trans clear
    exact absurd none (by decide)

theorem Ilpcctl.hicrbFor_readOnly (opening : mode ≠ .disabled) (hicrb : Word) :
    ctx.hicrbFor mode hicrb &&& lpcHicrbIlpcRo ≠ 0 ↔ mode = .restricted := by
  have clear₁ : hicrb &&& ~~~lpcHicrbIlpcRo &&& lpcHicrbIlpcRo = 0 := BitVec.and_not_and_self _ _
  have clear₂ : hicrb &&& ~~~(lpcHicrbIlpcDis ||| lpcHicrbIlpcRo) &&& lpcHicrbIlpcRo = 0 :=
    BitVec.and_not_or_and_right _ _ _
  have set (x : Word) : (x ||| lpcHicrbIlpcRo) &&& lpcHicrbIlpcRo ≠ 0 := by
    rw [BitVec.or_and_self_right]
    decide
  unfold hicrbFor
  cases mode with
  | permissive =>
    refine ⟨fun on => absurd ?_ on, fun h => nomatch h⟩
    cases ctx.gate.isNone
    · exact clear₂
    · exact clear₁
  | restricted =>
    refine ⟨fun _ => rfl, fun _ => ?_⟩
    cases ctx.gate.isNone
    · exact set _
    · exact set _
  | disabled => exact absurd rfl opening

theorem Ilpcctl.ungated_enforced (apart : ctx.Apart) (wired : ctx.Wired) (opening : mode ≠ .disabled) {regs : Regs} :
    ctx.Ungated (ctx.enforced regs mode) := by
  unfold Ungated
  cases gate : ctx.gate with
  | none => exact True.intro
  | some found =>
    obtain ⟨bridges, id⟩ := found
    obtain ⟨desc, known⟩ := wired bridges id gate
    obtain ⟨_, strap, _⟩ := apart.gate bridges id gate desc known
    simp only [known]
    have bits : ctx.enforced regs mode (bridges.scu + desc.reg) =
        desc.ungated bridges.scu (ctx.filtered regs mode) (bridges.scu + desc.reg) := by
      unfold enforced decoded unstrapped
      rw [if_neg opening, Function.update_of_ne strap, Function.update_of_ne strap]
      unfold ungated
      rw [gate]
      simp only [known]
    refine (BridgeGateDesc.ungated_congr bits).mpr (BridgeGateDesc.ungated_ungated _ _ _)

/-- The enforcement ends in the mode asked for. -/
theorem Ilpcctl.mode_enforced (apart : ctx.Apart) (wired : ctx.Wired) (regs : Regs) (mode : BridgeMode) :
    ctx.mode (ctx.enforced regs mode) = mode := by
  have bits (opening : mode ≠ .disabled) : ctx.enforced regs mode (ctx.lpc + lpcHicrb) =
      ctx.hicrbFor mode (regs (ctx.lpc + lpcHicrb)) := by
    unfold enforced decoded unstrapped
    rw [if_neg opening, Function.update_of_ne apart.strap, Function.update_of_ne apart.strap,
      Ilpcctl.ungated_of_ne _ fun bridges gate desc some known => (apart.gate bridges gate some desc known).2.2.symm]
    exact Function.update_self _ _ _
  by_cases disabled : mode = .disabled
  · subst disabled
    unfold Ilpcctl.mode
    refine if_pos ?_
    unfold enforced
    rw [if_pos rfl]
    cases none : ctx.gate.isNone with
    | true => exact Or.inl (sioctlDecode_strapped ctx.gen regs)
    | false =>
      refine Or.inr (Or.inr ⟨?_, ?_⟩)
      · rw [← Option.not_isNone, none]
        rfl
      · rw [if_neg (by decide), Ilpcctl.filtered, Function.update_self]
        exact (Ilpcctl.hicrbFor_off none _).mpr rfl
  · have open' : ¬ (sioctlDecode ctx.gen (ctx.enforced regs mode) = .disable ∨ ¬ ctx.Ungated (ctx.enforced regs mode) ∨
        ctx.Off (ctx.enforced regs mode)) := by
      rintro (decode | shut | ⟨some, off⟩)
      · unfold enforced at decode
        rw [if_neg disabled] at decode
        exact sioctlDecode_unstrapped ctx.gen _ decode
      · exact shut (Ilpcctl.ungated_enforced apart wired disabled)
      · rw [bits disabled] at off
        refine disabled ((Ilpcctl.hicrbFor_off ?_ _).mp off)
        rw [← Option.not_isSome, some]
        rfl
    unfold Ilpcctl.mode
    rw [if_neg open', bits disabled]
    have readOnly := @Ilpcctl.hicrbFor_readOnly ctx mode disabled (regs (ctx.lpc + lpcHicrb))
    cases mode with
    | permissive => exact if_neg fun on => nomatch readOnly.mp on
    | restricted => exact if_pos (readOnly.mpr rfl)
    | disabled => exact absurd rfl disabled

end

/-- The bits that opening and closing the iLPC bridge is about: the SuperIO straps, those of HICRB
and the gate. -/
def Ilpcctl.bits (ctx : Ilpcctl) : List (Word × Word) :=
  [(sioStrap ctx.gen, (sioctlPdata ctx.gen).disable ||| (sioctlPdata ctx.gen).select),
    (ctx.lpc + lpcHicrb, lpcHicrbIlpcDis ||| lpcHicrbIlpcRo)] ++
  match ctx.gate with
  | none => []
  | some (bridges, gate) =>
    match bridges.desc gate with
    | .error _ => []
    | .ok desc => [(bridges.scu + desc.reg, desc.mask)]

section
variable {ctx : Ilpcctl} {mode : BridgeMode} {regs₀ : Regs}

theorem Ilpcctl.within_hicrbFor (ctx : Ilpcctl) (mode : BridgeMode) (hicrb : Word) :
    Within (lpcHicrbIlpcDis ||| lpcHicrbIlpcRo) hicrb (ctx.hicrbFor mode hicrb) := by
  have dis : lpcHicrbIlpcDis &&& ~~~(lpcHicrbIlpcDis ||| lpcHicrbIlpcRo) = 0 := by decide
  have ro : lpcHicrbIlpcRo &&& ~~~(lpcHicrbIlpcDis ||| lpcHicrbIlpcRo) = 0 := by decide
  unfold hicrbFor
  split
  · split
    · exact Within.set ro hicrb
    · exact Within.clear ro hicrb
  · cases mode with
    | permissive => exact Within.clear (BitVec.and_not_self _) hicrb
    | restricted => exact (Within.clear dis hicrb).trans (Within.set ro _)
    | disabled => exact Within.set dis hicrb

theorem ilpcSteps_confined : IlpcSteps ctx mode (Confined ctx.bits regs₀) (Confined ctx.bits regs₀) := by
  have straps : (sioStrap ctx.gen, (sioctlPdata ctx.gen).disable ||| (sioctlPdata ctx.gen).select) ∈ ctx.bits :=
    List.mem_cons_self
  have disable : (sioctlPdata ctx.gen).disable &&&
      ~~~((sioctlPdata ctx.gen).disable ||| (sioctlPdata ctx.gen).select) = 0 := by
    cases ctx.gen <;> decide
  have select : (sioctlPdata ctx.gen).select &&&
      ~~~((sioctlPdata ctx.gen).disable ||| (sioctlPdata ctx.gen).select) = 0 := by
    cases ctx.gen <;> decide
  constructor
  · intro _ regs confined
    exact confined.update straps (Within.set disable _)
  · intro _ regs confined
    exact confined.update (List.mem_cons_of_mem _ List.mem_cons_self) (ctx.within_hicrbFor mode _)
  · intro _ regs confined
    rcases ctx.ungated_cases regs with same | ⟨bridges, gate, desc, some, known, same⟩
    · rw [same]
      exact confined
    · have own : (bridges.scu + desc.reg, desc.mask) ∈ ctx.bits := by
        unfold Ilpcctl.bits
        rw [some]
        simp only [known]
        exact List.mem_append_right _ List.mem_cons_self
      rw [same]
      exact confined.update own (Within.clear (BitVec.and_not_self _) _)
  · intro _ regs confined
    exact confined.update straps (Within.clear select _)
  · intro _ regs confined
    exact confined.update straps (Within.clear disable _)
  · intro regs confined
    exact confined

end

theorem ilpcctl_gen (gen : AstGeneration) : (ilpcctl gen).gen = gen := by
  cases gen <;> rfl

/-- Whatever fails, an enforcement that returns 0 ends with the status asked for, and changes only
bits of the bridge. -/
theorem ilpcctl_agrees (gen : AstGeneration) (mode : BridgeMode) (regs : Regs) (fails : Nat → Option Errno) :
    (∀ s', (ilpcctlEnforce (strapBus gen).watched (ilpcctl gen) mode).run (watching regs fails) = .ok () s' →
      Yields s'.dev.now (ilpcctlStatus (strapBus gen) (ilpcctl gen)) mode s'.dev.now) ∧
    Confined (ilpcctl gen).bits regs
      ((ilpcctlEnforce (strapBus gen).watched (ilpcctl gen) mode).run (watching regs fails)).state.dev.now := by
  have apart := ilpcctl_apart gen
  have wired := ilpcctl_wired gen
  have start : Through (Confined (ilpcctl gen).bits regs) ⟨regs, []⟩ := Through.start (Confined.refl _ _)
  have passes := ilpcctlEnforce_passes apart wired (@ilpcSteps_confined _ mode regs) start
  rw [ilpcctl_gen] at passes
  constructor
  · intro s' run
    obtain ⟨_, last⟩ := Passes.ok (s := watching regs fails) passes run
    have status := (ilpcctlStatus_observes wired).yields s'.dev.now
    rw [last, Ilpcctl.mode_enforced apart wired, ← last] at status
    exact status
  · have reached := Passes.state (s := watching regs fails) (passes.conseq fun _ _ post => post.1)
    exact reached.1

end Culvert
