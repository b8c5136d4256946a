import Culvert.Soc.OtpIdle

namespace Culvert

/-- The OTP controller of an AST2600: the address and data registers, and the words behind them. -/
structure OtpChip where
  addr : Word
  data : Word
  words : Word → Word

def otpChipBase : Word := 0x1e6f2000

namespace OtpChip

/-- A command. Programming sets the bits that are 0 in the data, and always takes. -/
def command (chip : OtpChip) (val : Word) : OtpChip :=
  if val = otpTriggerProgram then
    { chip with words := Function.update chip.words chip.addr (chip.words chip.addr ||| ~~~chip.data) }
  else if val = otpTriggerRead then { chip with data := chip.words chip.addr }
  else chip

/-- The controller is always idle, and keeps no other registers. -/
def bus : Bus OtpChip where
  readl phys chip :=
    (if phys = otpChipBase + otpStatus then otpStatusIdle
      else if phys = otpChipBase + otpCompare1 then chip.data else 0, chip)
  writel phys val chip :=
    if phys = otpChipBase + otpAddr then { chip with addr := val }
    else if phys = otpChipBase + otpCompare1 then { chip with data := val }
    else if phys = otpChipBase + otpCommand then chip.command val
    else chip

end OtpChip

theorem otpDriverInit_iomem (stepping : Nat) : (otpDriverInit stepping).iomem = otpChipBase := by
  unfold otpDriverInit
  split <;> rfl

/-- Where no access fails, `m` returns `a`, takes the controller from `chip` to `chip'` and reads
no input. -/
def OtpYields {α : Type} (chip : OtpChip) (m : Prog (OtpEnv OtpChip) α) (a : α) (chip' : OtpChip) : Prop :=
  ∀ env, OtpSound env → env.soc.dev = chip → ∃ env', m.run env = .ok a env' ∧ OtpSound env' ∧ env'.soc.dev = chip' ∧
    env'.stdin = env.stdin

namespace OtpYields
variable {α β : Type} {chip chip₁ chip' : OtpChip} {m : Prog (OtpEnv OtpChip) α} {f : α → Prog (OtpEnv OtpChip) β}
variable {a : α} {b : β}

theorem pure (a : α) : OtpYields chip (pure a) a chip := fun env sound here => ⟨env, rfl, sound, here, rfl⟩

theorem bind (first : OtpYields chip m a chip₁) (next : OtpYields chip₁ (f a) b chip') :
    OtpYields chip (m >>= f) b chip' := by
  intro env sound here
  obtain ⟨env₁, run, sound₁, here₁, input⟩ := first env sound here
  obtain ⟨env', run', sound', here', input'⟩ := next env₁ sound₁ here₁
  exact ⟨env', by rw [Prog.run_bind_ok run, run'], sound', here', input'.trans input⟩

end OtpYields

section
variable {chip : OtpChip} {stepping fuel : Nat}

theorem otpReadl_yields (offset : Word) : OtpYields chip (otpReadl OtpChip.bus (otpDriverInit stepping) offset)
    (OtpChip.bus.readl (otpChipBase + offset) chip).1 chip := by
  intro env sound here
  unfold otpReadl
  rw [otpDriverInit_iomem]
  obtain ⟨val, soc', run, sound'⟩ := Faulty.access_succeeds (OtpChip.bus.readl (otpChipBase + offset)) env.soc sound
  obtain ⟨value, dev⟩ := Faulty.access_ok run
  rw [value, here] at run
  exact ⟨{ env with soc := soc' }, Prog.run_zoom_ok run, sound', dev.trans here, rfl⟩

theorem otpWritel_yields (offset val : Word) : OtpYields chip (otpWritel OtpChip.bus (otpDriverInit stepping) offset val)
    () (OtpChip.bus.writel (otpChipBase + offset) val chip) := by
  intro env sound here
  unfold otpWritel
  rw [otpDriverInit_iomem]
  obtain ⟨_, soc', run, sound'⟩ := Faulty.access_succeeds
    (fun s => ((), OtpChip.bus.writel (otpChipBase + offset) val s)) env.soc sound
  obtain ⟨_, dev⟩ := Faulty.access_ok run
  rw [here] at dev
  let issued : OtpEnv OtpChip := { env with issued := (offset, val) :: env.issued }
  have write : (Prog.zoom (fun env : OtpEnv OtpChip => env.soc) (fun env soc => { env with soc := soc })
      (socWritel OtpChip.bus (otpChipBase + offset) val)).run issued = .ok () { issued with soc := soc' } :=
    Prog.run_zoom_ok run
  exact ⟨{ issued with soc := soc' }, write, sound', dev, rfl⟩

theorem otpWaitComplete_yields : OtpYields chip (otpWaitComplete OtpChip.bus (otpDriverInit stepping) (fuel + 1)) 0 chip := by
  have idle : (OtpChip.bus.readl (otpChipBase + otpStatus) chip).1 &&& otpStatusIdle = otpStatusIdle := by
    rw [show (OtpChip.bus.readl (otpChipBase + otpStatus) chip).1 = otpStatusIdle from rfl, BitVec.and_self]
  have poll (start : Timespec) : OtpYields chip (otpPoll OtpChip.bus (otpDriverInit stepping) start) (.inr 0) chip := by
    refine (otpReadl_yields otpStatus).bind ?_
    rw [if_pos idle]
    exact .pure _
  have wait (start : Timespec) : OtpYields chip
      (Prog.loop (fun _ => otpPoll OtpChip.bus (otpDriverInit stepping) start) (fuel + 1) ()) 0 chip :=
    (poll start).bind (.pure 0)
  intro env sound here
  obtain ⟨env', run, rest⟩ := wait (env.clock env.calls) { env with calls := env.calls + 1 } sound here
  refine ⟨env', ?_, rest⟩
  have clock : (OtpEnv.clockGettime (σ := OtpChip)).run env =
    .ok (env.clock env.calls) { env with calls := env.calls + 1 } := rfl
  unfold otpWaitComplete
  rw [Prog.run_bind_ok clock, run]

theorem otpTrigger_yields (command addr val : Word) :
    OtpYields chip (otpTrigger OtpChip.bus (otpDriverInit stepping) (fuel + 1) command addr val) 0
      (OtpChip.command ⟨addr, val, chip.words⟩ command) :=
  (otpWritel_yields _ _).bind ((otpWritel_yields _ _).bind ((otpWritel_yields _ _).bind otpWaitComplete_yields))

theorem otpReadReg_yields (addr : Word) :
    OtpYields chip (otpReadReg OtpChip.bus (otpDriverInit stepping) (fuel + 1) addr) (chip.words addr)
      ⟨addr, chip.words addr, chip.words⟩ :=
  (otpWritel_yields _ _).bind ((otpWritel_yields _ _).bind (otpWaitComplete_yields.bind (otpReadl_yields _)))

end

end Culvert
