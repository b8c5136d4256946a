import Culvert.Soc.OtpIdle

namespace Culvert
open Prog
variable {σ : Type}

/-- The first word of the input, as `scanf` with `%7s` leaves it in the buffer. -/
def otpToken (stdin : List Char) : Option (List Char) := (Text.scanWord 7 stdin).1.map Text.cString

section
variable {bus : Bus σ} {otp : Otp} {fuel : Nat} {start env env' : OtpEnv σ}

/-- A program command is issued only after the input said so. -/
def OtpGuarded {α : Type} (env : OtpEnv σ) (m : Prog (OtpEnv σ) α) : Prop :=
  otpPrograms (m.run env).state.issued ≠ otpPrograms env.issued → otpToken env.stdin = some "YES".toList

theorem otpConfirm_ok (run : (otpConfirm (σ := σ)).run env = .ok () env') :
    otpToken env.stdin = some "YES".toList ∨ otpToken env.stdin = none ∧ env.errno = none := by
  obtain ⟨outcome, env₁, scan, rest⟩ := bind_ok_iff.mp run
  cases scan
  unfold otpToken
  cases word : (Text.scanWord 7 env.stdin).1 with
  | none =>
    rw [word] at rest
    refine Or.inr ⟨rfl, ?_⟩
    cases held : env.errno with
    | none => rfl
    | some e =>
      simp only [EStateM.run_bind, EStateM.run_get, held] at rest
      cases rest
  | some inp =>
    rw [word] at rest
    refine Or.inl ?_
    by_cases same : Text.cString inp = "YES".toList
    · exact congrArg some same
    · simp only [if_neg same] at rest
      cases rest

theorem otpConfirm_programs : Keeps (Same fun env : OtpEnv σ => otpPrograms env.issued) (otpConfirm (σ := σ)) := by
  have scan : Keeps (Same fun env : OtpEnv σ => otpPrograms env.issued) (OtpEnv.scanf (σ := σ)) := fun _ => rfl
  refine scan.bind fun outcome => ?_
  cases outcome with
  | none =>
    have look : Keeps (Same fun env : OtpEnv σ => otpPrograms env.issued) (get : Prog (OtpEnv σ) (OtpEnv σ)) :=
      fun _ => rfl
    refine look.bind fun env => ?_
    cases env.errno with
    | none => exact keeps_pure _
    | some e => exact keeps_fail e
  | some inp => exact .ite (keeps_pure _) (keeps_fail _)

/-- Where the confirmation does not pass, the command it guards is not reached. -/
theorem otpConfirm_stops (refused : ¬ (otpToken start.stdin = some "YES".toList ∨
      otpToken start.stdin = none ∧ start.errno = none)) {α : Type} (action : Prog (OtpEnv σ) α) :
    Triple (OtpQuiet start) (do otpConfirm; action) (fun _ env => otpPrograms env.issued = otpPrograms start.issued)
      (fun _ env => otpPrograms env.issued = otpPrograms start.issued) := by
  refine Triple.bind (Q := fun _ _ => False) (fun env quiet => ⟨fun _ env' run => ?_, fun e env' run => ?_⟩) fun _ => ?_
  · have input : env.stdin = start.stdin := congrArg (fun s => s.2.1) quiet
    have errno : env.errno = start.errno := congrArg (fun s => s.2.2) quiet
    rw [← input, ← errno] at refused
    exact refused (otpConfirm_ok run)
  · exact (otpConfirm_programs.error run).trans quiet.programs
  · exact fun _ never => never.elim

/-- What is done with the controller unlocked issues no command, if `body` does not. -/
theorem otpUnlocked_quiet {α : Type} {body : Prog (OtpEnv σ) α}
    (inner : Triple (OtpQuiet start) body (fun _ env => otpPrograms env.issued = otpPrograms start.issued)
      (fun _ env => otpPrograms env.issued = otpPrograms start.issued)) :
    Triple (OtpQuiet start) (otpUnlocked bus otp body)
      (fun _ env => otpPrograms env.issued = otpPrograms start.issued)
      (fun _ env => otpPrograms env.issued = otpPrograms start.issued) := by
  have key (val : Word) : Keeps OtpQuiet (otpWritel bus otp otpProtectKey val) :=
    otpWritel_quiet (not_program_of_ne (by decide) val)
  have unlock : Triple (OtpQuiet start) (otpWritel bus otp otpProtectKey otpPasswd)
      (fun _ => OtpQuiet start) (fun _ => OtpQuiet start) :=
    Triple.of_keeps (key _) fun _ _ first second => trans_of OtpQuiet first second
  refine Triple.bind (unlock.conseq (fun _ pre => pre) (fun _ _ post => post) fun _ _ post => post.programs) fun _ => ?_
  exact inner.ensuring (Triple.of_keeps (key 0) fun _ _ first second => second.programs.trans first)

/-- A quiet step before a body that issues no command. -/
theorem otpQuiet_bind {α β : Type} {m : Prog (OtpEnv σ) α} {f : α → Prog (OtpEnv σ) β} (quiet : Keeps OtpQuiet m)
    (next : ∀ a, Triple (OtpQuiet start) (f a) (fun _ env => otpPrograms env.issued = otpPrograms start.issued)
      (fun _ env => otpPrograms env.issued = otpPrograms start.issued)) :
    Triple (OtpQuiet start) (m >>= f) (fun _ env => otpPrograms env.issued = otpPrograms start.issued)
      (fun _ env => otpPrograms env.issued = otpPrograms start.issued) := by
  have first : Triple (OtpQuiet start) m (fun _ => OtpQuiet start) (fun _ => OtpQuiet start) :=
    Triple.of_keeps quiet fun _ _ first second => trans_of OtpQuiet first second
  exact Triple.bind (first.conseq (fun _ pre => pre) (fun _ _ post => post) fun _ _ post => post.programs) next

theorem otpWriteConf_stops (refused : ¬ (otpToken start.stdin = some "YES".toList ∨
      otpToken start.stdin = none ∧ start.errno = none)) (word bit : Word) :
    Triple (OtpQuiet start) (otpWriteConf bus otp fuel word bit)
      (fun _ env => otpPrograms env.issued = otpPrograms start.issued)
      (fun _ env => otpPrograms env.issued = otpPrograms start.issued) := by
  refine .ite (.fail fun _ quiet => quiet.programs) (otpUnlocked_quiet (otpQuiet_bind (otpReadReg_quiet _) fun conf => ?_))
  exact .ite (.fail fun _ quiet => quiet.programs) (otpConfirm_stops refused _)

theorem otpWriteStrap_stops (refused : ¬ (otpToken start.stdin = some "YES".toList ∨
      otpToken start.stdin = none ∧ start.errno = none)) (bit val : Word) :
    Triple (OtpQuiet start) (otpWriteStrap bus otp fuel bit val)
      (fun _ env => otpPrograms env.issued = otpPrograms start.issued)
      (fun _ env => otpPrograms env.issued = otpPrograms start.issued) := by
  refine .ite (.fail fun _ quiet => quiet.programs)
    (otpUnlocked_quiet (otpQuiet_bind (otpReadReg_quiet _) fun protect => ?_))
  refine .ite (.fail fun _ quiet => quiet.programs) (otpQuiet_bind (otpStrapOptions_quiet _ _ 6 0 _) fun options => ?_)
  obtain ⟨res, _ | f⟩ := options
  · exact .fail fun _ quiet => quiet.programs
  · exact .ite (.fail fun _ quiet => quiet.programs) (otpConfirm_stops refused _)

end

theorem otpConfirm_passes {env : OtpEnv σ} (passes : otpToken env.stdin = some "YES".toList ∨
      otpToken env.stdin = none ∧ env.errno = none) :
    (otpConfirm (σ := σ)).run env = .ok () { env with stdin := (Text.scanWord 7 env.stdin).2 } := by
  have scan : (OtpEnv.scanf (σ := σ)).run env = .ok (Text.scanWord 7 env.stdin).1
    { env with stdin := (Text.scanWord 7 env.stdin).2 } := rfl
  unfold otpToken at passes
  unfold otpConfirm
  rw [run_bind_ok scan]
  cases word : (Text.scanWord 7 env.stdin).1 with
  | none =>
    rw [word] at passes
    obtain yes | ⟨_, held⟩ := passes
    · cases yes
    · simp only [EStateM.run_bind, EStateM.run_get, held]
      rfl
  | some inp =>
    rw [word] at passes
    obtain yes | ⟨none, _⟩ := passes
    · have same : Text.cString inp = "YES".toList := Option.some.inj yes
      simp only [if_pos same]
      rfl
    · cases none

section
variable {bus : Bus σ} {otp : Otp} {fuel : Nat} {env : OtpEnv σ}

theorem otpReadReg_value {addr val : Word} {env' : OtpEnv σ} (run : (otpReadReg bus otp fuel addr).run env = .ok val env') :
    ∃ s, val = (bus.readl (otp.iomem + otpCompare1) s).1 := by
  obtain ⟨_, env₁, _, run⟩ := bind_ok_iff.mp run
  obtain ⟨_, env₂, _, run⟩ := bind_ok_iff.mp run
  obtain ⟨_, env₃, _, run⟩ := bind_ok_iff.mp run
  obtain ⟨soc', access, _⟩ := zoom_ok_iff.mp run
  exact ⟨env₃.soc.dev, (Faulty.access_ok access).1⟩

/-- On a working bus, a confirmed write of a bit that reads clear in every word is carried out. -/
theorem otpWriteConf_fires (idle : OtpIdle bus otp) (turns : 0 < fuel) (sound : OtpSound env)
    (passes : otpToken env.stdin = some "YES".toList ∨ otpToken env.stdin = none ∧ env.errno = none) {word bit : Word}
    (range : ¬ (word.toNat ≥ numOtpConf ∨ bit.toNat ≥ 32))
    (clear : ∀ s, (bus.readl (otp.iomem + otpCompare1) s).1 &&& (1 : Word) <<< bit = 0) :
    OtpFires env ((otpWriteConf bus otp fuel word bit).run env).state := by
  obtain ⟨_, env₁, unlock, sound₁⟩ := @otpWritel_succeeds _ bus otp otpProtectKey otpPasswd env sound
  obtain ⟨conf, env₂, look, sound₂⟩ := otpReadReg_succeeds idle turns (otpConfigAddr word) env₁ sound₁
  have quiet₁ : OtpQuiet env env₁ := (otpWritel_quiet (not_program_of_ne (by decide) otpPasswd)).ok unlock
  have quiet₂ : OtpQuiet env₁ env₂ := (otpReadReg_quiet (otpConfigAddr word)).ok look
  have quiet : OtpQuiet env env₂ := trans_of OtpQuiet quiet₁ quiet₂
  obtain ⟨s, value⟩ := otpReadReg_value look
  have config : (otpReadConfig bus otp fuel word).run env₁ = .ok conf env₂ := look
  have unset : ¬ conf &&& (1 : Word) <<< bit ≠ 0 := fun set => set (by rw [value]; exact clear s)
  have input : env₂.stdin = env.stdin := congrArg (fun s => s.2.1) quiet
  have errno : env₂.errno = env.errno := congrArg (fun s => s.2.2) quiet
  rw [← input, ← errno] at passes
  have confirm := otpConfirm_passes passes
  let env₃ := { env₂ with stdin := (Text.scanWord 7 env₂.stdin).2 }
  have fires : OtpFires env ((otpWrite bus otp fuel (otpConfigAddr word) ((1 : Word) <<< bit)).run env₃).state :=
    @OtpFires.after _ env env₃ _ quiet.programs (@otpWrite_fires _ bus otp fuel env₃ idle turns sound₂ _ _)
  unfold otpWriteConf
  rw [if_neg range]
  dsimp only
  unfold otpUnlocked
  rw [run_bind_ok unlock]
  refine state_ensuring ?_ ((otpWritel_quiet (not_program_of_ne (by decide) 0)).mono fun _ _ => OtpQuiet.programsOnly)
    (fun s₁ s₂ => OtpFires.then (P := fun _ => True))
  rw [run_bind_ok config, if_neg unset, run_bind_ok confirm]
  exact fires

end

/-- A controller of an AST2600 A3 that is always idle, and whose words all read as the idle status. -/
def otpBench : Bus Unit where
  readl phys _ := (if phys = 0x1e6e2014 then 0x05030303 else otpStatusIdle, ())
  writel _ _ _ := ()

/-- A process in front of it, on a bus without failures. -/
def otpBenchEnv (stdin : List Char) (errno : Option Errno) : OtpEnv Unit where
  soc := ⟨(), fun _ => none, 0⟩
  issued := []
  clock _ := ⟨0, 0⟩
  naps _ := none
  calls := 0
  stdin := stdin
  errno := errno

theorem otpBench_fires {env : OtpEnv Unit} (sound : OtpSound env) (stepping : Nat)
    (passes : otpToken env.stdin = some "YES".toList ∨ otpToken env.stdin = none ∧ env.errno = none) {word : Word}
    (low : word.toNat < numOtpConf) :
    OtpFires env ((otpWriteConf otpBench (otpDriverInit stepping) 1 word 0).run env).state := by
  have iomem : (otpDriverInit stepping).iomem = 0x1e6f2000 := by
    unfold otpDriverInit
    split <;> rfl
  have status : (otpBench.readl (0x1e6f2000 + otpStatus) ()).1 &&& otpStatusIdle = otpStatusIdle := by decide
  have compare : (otpBench.readl (0x1e6f2000 + otpCompare1) ()).1 &&& (1 : Word) <<< (0 : Word) = 0 := by decide
  have idle : OtpIdle otpBench (otpDriverInit stepping) := by
    intro _
    rw [iomem]
    exact status
  refine otpWriteConf_fires idle Nat.one_pos sound passes ?_ fun _ => ?_
  · rintro (high | high)
    · exact absurd low (Nat.not_lt.mpr high)
    · exact absurd high (by decide)
  · rw [iomem]
    exact compare

/-- No input makes the writes of configuration and straps issue a command without a `YES`, except
for one that ends before its first word while `errno` is 0. -/
theorem otp_guarded_iff (stdin : List Char) (errno : Option Errno) :
    (∀ (σ : Type) (bus : Bus σ) (otp : Otp) (fuel : Nat) (env : OtpEnv σ), env.stdin = stdin → env.errno = errno →
      ∀ a b, OtpGuarded env (otpWriteConf bus otp fuel a b) ∧ OtpGuarded env (otpWriteStrap bus otp fuel a b)) ↔
    ¬ (otpToken stdin = none ∧ errno = none) := by
  constructor
  · rintro guarded ⟨empty, zero⟩
    obtain ⟨conf, _⟩ := guarded Unit otpBench (otpDriverInit 0) 1 (otpBenchEnv stdin errno) rfl rfl 0 0
    have yes := conf (otpBench_fires (fun _ => rfl) 0 (Or.inr ⟨empty, zero⟩) (by decide)).ne
    change otpToken stdin = _ at yes
    rw [empty] at yes
    cases yes
  · rintro ended σ bus otp fuel env rfl rfl a b
    constructor
    · intro issued
      by_contra other
      refine issued ((@otpWriteConf_stops _ bus otp fuel env ?_ a b).state rfl)
      rintro (yes | both)
      · exact other yes
      · exact ended both
    · intro issued
      by_contra other
      refine issued ((@otpWriteStrap_stops _ bus otp fuel env ?_ a b).state rfl)
      rintro (yes | both)
      · exact other yes
      · exact ended both

/-- An empty input, with `errno` never set. -/
theorem otp_not_guarded : ¬ OtpGuarded (otpBenchEnv [] none) (otpWriteConf otpBench (otpDriverInit 0) 1 0 0) := by
  intro guarded
  have yes := guarded (otpBench_fires (fun _ => rfl) 0 (Or.inr ⟨by decide, rfl⟩) (by decide)).ne
  exact absurd yes (by decide)

end Culvert
