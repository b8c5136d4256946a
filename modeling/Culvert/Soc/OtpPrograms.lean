import Culvert.Lib.Hoare
import Culvert.Lib.Trace
import Culvert.Soc.Otp

namespace Culvert
open Prog

/-- The value last written to the register at `offset`. -/
def otpLatched (offset : Word) : List (Word × Word) → Option Word
  | [] => none
  | (off, val) :: earlier => if off = offset then some val else otpLatched offset earlier

/-- The program commands among the writes, latest first, with the address and the data they act on. -/
def otpPrograms : List (Word × Word) → List (Option Word × Option Word)
  | [] => []
  | (off, val) :: earlier =>
    if off = otpCommand ∧ val = otpTriggerProgram then
      (otpLatched otpAddr earlier, otpLatched otpCompare1 earlier) :: otpPrograms earlier
    else otpPrograms earlier

/-- No program command is issued, and no input is taken. -/
def OtpQuiet {σ : Type} : OtpEnv σ → OtpEnv σ → Prop :=
  Same fun env => (otpPrograms env.issued, env.stdin, env.errno)

instance {σ : Type} : IsPreorder (OtpEnv σ) OtpQuiet := inferInstanceAs (IsPreorder _ (Same _))

/-- The program commands issued are all in `P`. -/
def OtpProgramsOnly {σ : Type} (P : Option Word × Option Word → Prop) (env env' : OtpEnv σ) : Prop :=
  Grown P (otpPrograms env.issued) (otpPrograms env'.issued)

instance {σ : Type} (P : Option Word × Option Word → Prop) : IsPreorder (OtpEnv σ) (OtpProgramsOnly P) where
  refl _ := Grown.refl P _
  trans _ _ _ first second := first.trans second

section
variable {σ : Type} {bus : Bus σ} {otp : Otp} {fuel : Nat} {P : Option Word × Option Word → Prop}
variable {env env' : OtpEnv σ}

theorem OtpQuiet.programs (quiet : OtpQuiet env env') : otpPrograms env'.issued = otpPrograms env.issued :=
  congrArg Prod.fst quiet

theorem OtpQuiet.programsOnly (quiet : OtpQuiet env env') : OtpProgramsOnly P env env' := by
  unfold OtpProgramsOnly
  rw [quiet.programs]
  exact Grown.refl P _

theorem otpReadl_quiet (offset : Word) : Keeps OtpQuiet (otpReadl bus otp offset) := zoom_keeps fun _ _ => rfl

/-- Only one value at one register is a program command. -/
theorem otpWritel_quiet {offset val : Word} (other : ¬ (offset = otpCommand ∧ val = otpTriggerProgram)) :
    Keeps OtpQuiet (otpWritel bus otp offset val) := by
  have record : Keeps OtpQuiet
      (modify fun env : OtpEnv σ => { env with issued := (offset, val) :: env.issued }) := by
    intro env
    show (otpPrograms ((offset, val) :: env.issued), env.stdin, env.errno) = _
    rw [otpPrograms, if_neg other]
  exact record.bind fun _ => zoom_keeps fun _ _ => rfl

theorem clockGettime_quiet : Keeps OtpQuiet (OtpEnv.clockGettime (σ := σ)) := fun _ => rfl

theorem clockNanosleep_quiet : Keeps OtpQuiet (OtpEnv.clockNanosleep (σ := σ)) := fun _ => rfl

theorem otpPoll_quiet (start : Timespec) : Keeps OtpQuiet (otpPoll bus otp start) := by
  refine (otpReadl_quiet otpStatus).bind fun reg => .ite (keeps_pure _) ?_
  refine clockNanosleep_quiet.bind fun nap => ?_
  cases nap with
  | some e => exact keeps_pure _
  | none => exact clockGettime_quiet.bind fun stop => .ite (keeps_pure _) (keeps_fail _)

theorem otpWaitComplete_quiet : Keeps OtpQuiet (otpWaitComplete bus otp fuel) :=
  clockGettime_quiet.bind fun start => .loop (fun _ => otpPoll_quiet start) fuel ()

theorem not_program_of_ne {offset : Word} (other : offset ≠ otpCommand) (val : Word) :
    ¬ (offset = otpCommand ∧ val = otpTriggerProgram) := fun both => other both.1

theorem otpTrigger_quiet {command : Word} (other : command ≠ otpTriggerProgram) (addr val : Word) :
    Keeps OtpQuiet (otpTrigger bus otp fuel command addr val) := by
  refine (otpWritel_quiet (not_program_of_ne (by decide) addr)).bind fun _ => ?_
  refine (otpWritel_quiet (not_program_of_ne (by decide) val)).bind fun _ => ?_
  exact (otpWritel_quiet fun both => other both.2).bind fun _ => otpWaitComplete_quiet

theorem otpReadReg_quiet (addr : Word) : Keeps OtpQuiet (otpReadReg bus otp fuel addr) := by
  refine (otpWritel_quiet (not_program_of_ne (by decide) addr)).bind fun _ => ?_
  refine (otpWritel_quiet (by decide)).bind fun _ => ?_
  exact otpWaitComplete_quiet.bind fun _ => otpReadl_quiet _

theorem otpSetSoak_quiet (soak : Nat) : Keeps OtpQuiet (otpSetSoak bus otp fuel soak) := by
  unfold otpSetSoak
  split
  · exact keeps_fail _
  · have reg (addr val : Word) : Keeps OtpQuiet (otpWriteReg bus otp fuel addr val) :=
      otpTrigger_quiet (by decide) addr val
    exact (reg _ _).bind fun _ => (reg _ _).bind fun _ => (reg _ _).bind fun _ =>
      otpWritel_quiet (not_program_of_ne (by decide) _)

theorem otpStrapOptions_quiet (word bitmask : Word) (left i : Nat) (acc : Word × Option Nat) :
    Keeps OtpQuiet (otpStrapOptions bus otp fuel word bitmask left i acc) := by
  induction left generalizing i acc with
  | zero => exact keeps_pure _
  | succ left ih => exact (otpReadReg_quiet _).bind fun strap => ih _ _

theorem otpWritel_issued (offset val : Word) (issued : List (Word × Word)) :
    Triple (fun env => env.issued = issued) (otpWritel bus otp offset val)
      (fun _ env => env.issued = (offset, val) :: issued) (fun _ env => env.issued = (offset, val) :: issued) := by
  intro env here
  have kept : Keeps (fun env env' => env'.issued = (offset, val) :: env.issued) (otpWritel bus otp offset val) := by
    intro env
    have access : Keeps (Same fun env : OtpEnv σ => env.issued) (zoom (fun env : OtpEnv σ => env.soc)
        (fun env soc => { env with soc := soc }) (socWritel bus (otp.iomem + offset) val)) :=
      zoom_keeps fun _ _ => rfl
    exact access { env with issued := (offset, val) :: env.issued }
  rw [← here]
  exact ⟨fun _ env' run => kept.ok run, fun _ env' run => kept.error run⟩

/-- The address and the data of the command are those given. -/
theorem otpProgram_programs (addr val : Word) :
    Keeps (OtpProgramsOnly (· = (some addr, some val))) (otpProgram bus otp fuel addr val) := by
  intro env
  have latched : Triple (fun env' => env'.issued = env.issued) (otpProgram bus otp fuel addr val)
      (fun _ => OtpProgramsOnly (· = (some addr, some val)) env)
      (fun _ => OtpProgramsOnly (· = (some addr, some val)) env) := by
    have quiet (issued : List (Word × Word)) (same : otpPrograms issued = otpPrograms env.issued) (e : Stop)
        (env' : OtpEnv σ) (here : env'.issued = issued) : OtpProgramsOnly (· = (some addr, some val)) env env' := by
      unfold OtpProgramsOnly
      rw [here, same]
      exact Grown.refl _ _
    refine Triple.bind ((otpWritel_issued otpAddr addr env.issued).conseq (fun _ here => here)
      (fun _ _ here => here) (quiet _ rfl)) fun _ => ?_
    refine Triple.bind ((otpWritel_issued otpCompare1 val _).conseq (fun _ here => here)
      (fun _ _ here => here) (quiet _ rfl)) fun _ => ?_
    have fired (env' : OtpEnv σ) (here : env'.issued = (otpCommand, otpTriggerProgram) ::
        (otpCompare1, val) :: (otpAddr, addr) :: env.issued) :
        OtpProgramsOnly (· = (some addr, some val)) env env' := by
      unfold OtpProgramsOnly
      rw [here]
      exact (Grown.refl _ _).cons rfl
    refine Triple.bind ((otpWritel_issued otpCommand otpTriggerProgram _).conseq (fun _ here => here)
      (fun _ env' here => fired env' here) (fun _ env' here => fired env' here)) fun _ => ?_
    exact Triple.of_keeps otpWaitComplete_quiet fun _ _ first second => trans_of _ first second.programsOnly
  exact latched.state rfl

theorem otpWriteTry_programs (address bitmask : Word) (tries : Nat) :
    Keeps (OtpProgramsOnly (· = (some address, some (~~~bitmask)))) (otpWriteTry bus otp fuel address bitmask tries) := by
  refine ((otpReadReg_quiet address).mono fun _ _ => OtpQuiet.programsOnly).bind fun readback => ?_
  refine .ite (keeps_pure _) ?_
  refine ((otpSetSoak_quiet _).mono fun _ _ => OtpQuiet.programsOnly).bind fun _ => ?_
  exact (otpProgram_programs address (~~~bitmask)).bind fun rc => keeps_pure _

theorem otpWrite_programs (address bitmask : Word) :
    Keeps (OtpProgramsOnly (· = (some address, some (~~~bitmask)))) (otpWrite bus otp fuel address bitmask) := by
  have soak (n : Nat) : Keeps (OtpProgramsOnly (· = (some address, some (~~~bitmask)))) (otpSetSoak bus otp fuel n) :=
    (otpSetSoak_quiet n).mono fun _ _ => OtpQuiet.programsOnly
  refine (soak 1).bind fun _ => .ensuring ?_ (soak 0)
  refine (otpProgram_programs address (~~~bitmask)).bind fun _ => ?_
  refine (Keeps.loop (otpWriteTry_programs address bitmask) _ 0).bind fun outcome => ?_
  exact .ite (keeps_fail _) (keeps_pure _)

theorem otpUnlocked_programs {α : Type} {body : Prog (OtpEnv σ) α} (inner : Keeps (OtpProgramsOnly P) body) :
    Keeps (OtpProgramsOnly P) (otpUnlocked bus otp body) := by
  have key (val : Word) : Keeps (OtpProgramsOnly P) (otpWritel bus otp otpProtectKey val) :=
    (otpWritel_quiet (not_program_of_ne (by decide) val)).mono fun _ _ => OtpQuiet.programsOnly
  exact (key _).bind fun _ => inner.ensuring (key 0)

end

end Culvert
