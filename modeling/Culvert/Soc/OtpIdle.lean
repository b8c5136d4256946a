import Culvert.Soc.OtpPrograms

namespace Culvert
open Prog
variable {σ : Type}

/-- The controller is idle whenever its status is read. -/
def OtpIdle (bus : Bus σ) (otp : Otp) : Prop :=
  ∀ s, (bus.readl (otp.iomem + otpStatus) s).1 &&& otpStatusIdle = otpStatusIdle

/-- No access of the bus will fail. -/
def OtpSound (env : OtpEnv σ) : Prop := env.soc.Sound

/-- At least one program command was issued. -/
def OtpFires (env env' : OtpEnv σ) : Prop := ∃ p, p :: otpPrograms env.issued <:+ otpPrograms env'.issued

section
variable {bus : Bus σ} {otp : Otp} {fuel : Nat} {env env₁ env' : OtpEnv σ}

theorem OtpProgramsOnly.suffix {P : Option Word × Option Word → Prop} (only : OtpProgramsOnly P env env') :
    otpPrograms env.issued <:+ otpPrograms env'.issued := by
  obtain ⟨new, same, _⟩ := only
  exact ⟨new, same.symm⟩

theorem OtpFires.then {P : Option Word × Option Word → Prop} (fires : OtpFires env env₁)
    (only : OtpProgramsOnly P env₁ env') : OtpFires env env' := by
  obtain ⟨p, grown⟩ := fires
  exact ⟨p, grown.trans only.suffix⟩

theorem OtpFires.after (same : otpPrograms env₁.issued = otpPrograms env.issued) (fires : OtpFires env₁ env') :
    OtpFires env env' := by
  obtain ⟨p, grown⟩ := fires
  rw [same] at grown
  exact ⟨p, grown⟩

theorem OtpFires.ne (fires : OtpFires env env') : otpPrograms env'.issued ≠ otpPrograms env.issued := by
  obtain ⟨p, grown⟩ := fires
  intro same
  have longer := grown.length_le
  rw [same, List.length_cons] at longer
  omega

theorem otpReadl_run (sound : OtpSound env) (offset : Word) : ∃ env', (otpReadl bus otp offset).run env =
    .ok (bus.readl (otp.iomem + offset) env.soc.dev).1 env' ∧ OtpSound env' := by
  obtain ⟨val, soc', run, sound'⟩ := Faulty.access_succeeds (bus.readl (otp.iomem + offset)) env.soc sound
  obtain ⟨value, _⟩ := Faulty.access_ok run
  rw [value] at run
  exact ⟨{ env with soc := soc' }, run_zoom_ok run, sound'⟩

theorem otpReadl_succeeds (offset : Word) : Succeeds OtpSound (otpReadl bus otp offset) := by
  intro env sound
  obtain ⟨env', run, sound'⟩ := otpReadl_run sound offset
  exact ⟨_, env', run, sound'⟩

theorem otpWritel_succeeds (offset val : Word) : Succeeds OtpSound (otpWritel bus otp offset val) := by
  have record : Succeeds OtpSound
      (modify fun env : OtpEnv σ => { env with issued := (offset, val) :: env.issued }) :=
    fun env sound => ⟨(), _, rfl, sound⟩
  refine record.bind fun _ env sound => ?_
  obtain ⟨_, soc', run, sound'⟩ := Faulty.access_succeeds
    (fun s => ((), bus.writel (otp.iomem + offset) val s)) env.soc sound
  exact ⟨(), { env with soc := soc' }, run_zoom_ok run, sound'⟩

theorem otpWaitComplete_succeeds (idle : OtpIdle bus otp) (turns : 0 < fuel) :
    Succeeds OtpSound (otpWaitComplete bus otp fuel) := by
  intro env sound
  obtain ⟨fuel, rfl⟩ := Nat.exists_eq_add_one_of_ne_zero (Nat.pos_iff_ne_zero.mp turns)
  have clock : (OtpEnv.clockGettime (σ := σ)).run env =
    .ok (env.clock env.calls) { env with calls := env.calls + 1 } := rfl
  obtain ⟨env', look, sound'⟩ := @otpReadl_run _ bus otp { env with calls := env.calls + 1 } sound otpStatus
  have ready : (bus.readl (otp.iomem + otpStatus) env.soc.dev).1 &&& otpStatusIdle = otpStatusIdle := idle _
  have poll : (otpPoll bus otp (env.clock env.calls)).run { env with calls := env.calls + 1 } =
      .ok (.inr 0) env' := by
    unfold otpPoll
    rw [run_bind_ok look, if_pos ready]
    rfl
  refine ⟨0, env', ?_, sound'⟩
  unfold otpWaitComplete
  rw [run_bind_ok clock, Prog.loop, run_bind_ok poll]
  rfl

theorem otpTrigger_succeeds (idle : OtpIdle bus otp) (turns : 0 < fuel) (command addr val : Word) :
    Succeeds OtpSound (otpTrigger bus otp fuel command addr val) :=
  (otpWritel_succeeds _ _).bind fun _ => (otpWritel_succeeds _ _).bind fun _ =>
    (otpWritel_succeeds _ _).bind fun _ => otpWaitComplete_succeeds idle turns

theorem otpReadReg_succeeds (idle : OtpIdle bus otp) (turns : 0 < fuel) (addr : Word) :
    Succeeds OtpSound (otpReadReg bus otp fuel addr) :=
  (otpWritel_succeeds _ _).bind fun _ => (otpWritel_succeeds _ _).bind fun _ =>
    (otpWaitComplete_succeeds idle turns).bind fun _ => otpReadl_succeeds _

theorem otpSetSoak_succeeds (idle : OtpIdle bus otp) (turns : 0 < fuel) {soak : Nat} (known : soak ≤ 2) :
    Succeeds OtpSound (otpSetSoak bus otp fuel soak) := by
  unfold otpSetSoak
  rw [dif_neg (Nat.not_lt.mpr known)]
  exact (otpTrigger_succeeds idle turns _ _ _).bind fun _ => (otpTrigger_succeeds idle turns _ _ _).bind fun _ =>
    (otpTrigger_succeeds idle turns _ _ _).bind fun _ => otpWritel_succeeds _ _

theorem otpProgram_fires (sound : OtpSound env) (addr val : Word) :
    OtpFires env ((otpProgram bus otp fuel addr val).run env).state := by
  obtain ⟨_, env₁, first, sound₁⟩ := @otpWritel_succeeds _ bus otp otpAddr addr env sound
  obtain ⟨_, env₂, second, sound₂⟩ := @otpWritel_succeeds _ bus otp otpCompare1 val env₁ sound₁
  obtain ⟨_, env₃, third, sound₃⟩ := @otpWritel_succeeds _ bus otp otpCommand otpTriggerProgram env₂ sound₂
  have issued₁ := (otpWritel_issued otpAddr addr _ env rfl).1 _ _ first
  have issued₂ := (otpWritel_issued otpCompare1 val _ env₁ issued₁).1 _ _ second
  have issued₃ := (otpWritel_issued otpCommand otpTriggerProgram _ env₂ issued₂).1 _ _ third
  have fired : OtpFires env env₃ := by
    unfold OtpFires
    rw [issued₃]
    exact ⟨(some addr, some val), List.suffix_rfl⟩
  have rest := @otpWaitComplete_quiet _ bus otp fuel env₃
  have run : (otpProgram bus otp fuel addr val).run env = (otpWaitComplete bus otp fuel).run env₃ := by
    unfold otpProgram otpTrigger
    rw [run_bind_ok first, run_bind_ok second, run_bind_ok third]
  rw [run]
  exact fired.then (P := fun _ => True) rest.programsOnly

/-- Once it is reached on a working bus, a write issues a program command. -/
theorem otpWrite_fires (idle : OtpIdle bus otp) (turns : 0 < fuel) (sound : OtpSound env) (address bitmask : Word) :
    OtpFires env ((otpWrite bus otp fuel address bitmask).run env).state := by
  obtain ⟨_, env₁, soak, sound₁⟩ := @otpSetSoak_succeeds _ bus otp fuel idle turns 1 (by decide) env sound
  have carry (s₁ s₂ : OtpEnv σ) (fires : OtpFires env₁ s₁)
    (only : OtpProgramsOnly (· = (some address, some (~~~bitmask))) s₁ s₂) : OtpFires env₁ s₂ := fires.then only
  unfold otpWrite
  rw [run_bind_ok soak]
  refine OtpFires.after ((otpSetSoak_quiet 1).ok soak).programs (state_ensuring (state_bind (otpProgram_fires sound₁ _ _)
    (fun _ => ?_) carry) ((otpSetSoak_quiet 0).mono fun _ _ => OtpQuiet.programsOnly) carry)
  exact (Keeps.loop (otpWriteTry_programs address bitmask) _ 0).bind fun _ => .ite (keeps_fail _) (keeps_pure _)

end

end Culvert
