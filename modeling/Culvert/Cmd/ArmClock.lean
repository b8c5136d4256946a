import Culvert.Cmd.Reset
import Culvert.Cmd.Write
import Culvert.Lib.Pending

/-! The clock gate of the ARM over whole commands. -/

namespace Culvert

open Prog Faulty

namespace Session
variable {σ α β : Type} {s s' : Session σ}

/-- The ARM was gated and not ungated since. -/
def ArmGated (s : Session σ) : Prop := Pending.Open (fun _ => False) (· = .gated) (· = .ungated) s.arm

theorem not_gated_of_ungated {older : List ArmEvent} (last : s.arm = .ungated :: older) : ¬ s.ArmGated := by
  rw [ArmGated, last]
  rintro ⟨_, opened | ⟨kept, _⟩⟩
  · cases opened
  · exact kept rfl

theorem gated_of_gated {older : List ArmEvent} (last : s.arm = .gated :: older) : s.ArmGated := by
  rw [ArmGated, last]
  exact ⟨not_false, Or.inl rfl⟩

/-- Nothing happened to the clock gate, and what was initialised still is. -/
def Calm (s s' : Session σ) : Prop := s'.arm = s.arm ∧ ∀ dev ∈ s.live, dev ∈ s'.live

instance : IsPreorder (Session σ) Calm where
  refl _ := ⟨rfl, fun _ mem => mem⟩
  trans _ _ _ first second := ⟨second.1.trans first.1, fun dev mem => second.2 dev (first.2 dev mem)⟩

theorem Calm.gated_iff (calm : Calm s s') : s'.ArmGated ↔ s.ArmGated := by
  rw [ArmGated, ArmGated, calm.1]

theorem onSoc_calm (m : Prog (Faulty σ) α) : Keeps Calm (onSoc m) := zoom_keeps fun _ _ => ⟨rfl, fun _ mem => mem⟩

theorem malloc_calm : Keeps Calm (malloc : Prog (Session σ) Unit) := by
  intro s
  simp only [malloc, EStateM.run]
  split
  · exact ⟨rfl, fun _ mem => mem⟩
  · exact ⟨rfl, fun _ mem => mem⟩

theorem setDrvdata_calm (dev : Device) : Keeps Calm (setDrvdata dev : Prog (Session σ) Unit) :=
  fun _ => ⟨rfl, fun _ mem => List.mem_cons_of_mem dev mem⟩

theorem get_calm : Keeps Calm (get : Prog (Session σ) (Session σ)) := fun _ => ⟨rfl, fun _ mem => mem⟩

theorem getDrvdata_calm (gen : AstGeneration) (dev : Device) {init : Prog (Session σ) Unit} (calm : Keeps Calm init) :
    Keeps Calm (getDrvdata gen dev init) := by
  refine Keeps.ite (get_calm.bind fun s => Keeps.ite (keeps_pure true) ?_) (keeps_pure false)
  exact calm.attempt.bind fun _ => get_calm.bind fun _ => keeps_pure _

end Session

open Session

section
variable {σ : Type} (bus : Bus σ) (gen : AstGeneration) (host : CmdHost σ)

theorem clkGet_calm : Keeps Calm (clkGet bus gen) := by
  refine getDrvdata_calm gen .clk (malloc_calm.bind fun _ => ?_)
  have scu : Keeps Calm (scuDriverStart bus) := by
    refine malloc_calm.bind fun _ => (onSoc_calm _).bind fun value => ?_
    by_cases locked : value = 0
    · rw [if_pos locked]
      exact (onSoc_calm _).bind fun _ => setDrvdata_calm .scu
    · rw [if_neg locked]
      exact (keeps_pure ()).bind fun _ => setDrvdata_calm .scu
  exact (getDrvdata_calm gen .scu scu).bind fun found => Keeps.ite (setDrvdata_calm .clk) (keeps_fail enodev)

theorem vuartGetByName_calm : Keeps Calm (vuartGetByName gen : Prog (Session σ) Bool) :=
  getDrvdata_calm gen .vuart (malloc_calm.bind fun _ => setDrvdata_calm .vuart)

theorem wdtGetByName_calm (wdt : Wdt) : Keeps Calm (wdtGetByName bus gen wdt) := by
  refine getDrvdata_calm gen (.wdt wdt) (malloc_calm.bind fun _ => (clkGet_calm bus gen).bind fun found => ?_)
  exact Keeps.ite (setDrvdata_calm (.wdt wdt)) (keeps_fail enodev)

theorem sfcGetByName_calm (initDevice : Prog (Faulty σ) Unit) : Keeps Calm (sfcGetByName bus gen initDevice) := by
  refine getDrvdata_calm gen .fmc (malloc_calm.bind fun _ => (clkGet_calm bus gen).bind fun found => ?_)
  exact Keeps.ite ((onSoc_calm initDevice).bind fun _ => setDrvdata_calm .fmc) (keeps_fail enodev)

theorem socOpen_calm : Keeps Calm (socOpen bus host) := by
  have init : Keeps Calm (Prog.ofExcept host.init : Prog (Session σ) Unit) := by
    cases host.init
    · exact keeps_fail _
    · exact keeps_pure _
  refine init.bind fun _ => Keeps.ite ((onSoc_calm _).bind fun rev => ?_) (keeps_fail enodev)
  cases revGeneration rev
  · exact keeps_fail enotsup
  · exact keeps_pure _

theorem firmwareOpen_calm : Keeps Calm (firmwareOpen bus host) := by
  refine (socOpen_calm bus host).bind fun gen => (clkGet_calm bus gen).bind fun found => ?_
  exact Keeps.ite ((vuartGetByName_calm gen).bind fun _ => Keeps.ite (keeps_pure gen) (keeps_fail enodev))
    (keeps_fail enodev)

theorem firmwareFlash_calm (parts : FlashParts σ) (fuel : Nat) (stdin : List StdinRead) :
    Keeps Calm (firmwareFlash bus gen parts fuel stdin) := by
  refine (sfcGetByName_calm bus gen parts.initDevice).bind fun found => Keeps.ite ?_ (keeps_fail enodev)
  have init : Keeps Calm (sessionFlashInit fuel parts.ctrl) :=
    malloc_calm.bind fun _ => (onSoc_calm _).bind fun _ => malloc_calm.bind fun _ => onSoc_calm _
  exact init.bind fun chip => malloc_calm.bind fun _ => onSoc_calm _

theorem armEnable_ungates (s : Session σ) : ¬ ((armEnable bus gen).run s).state.ArmGated := by
  have noted : ((note .ungated).run s).state = { s with arm := .ungated :: s.arm } := rfl
  have calm := onSoc_calm (clkEnable bus gen .arm) { s with arm := .ungated :: s.arm }
  have run : (armEnable bus gen).run s = (onSoc (clkEnable bus gen .arm)).run { s with arm := .ungated :: s.arm } := rfl
  rw [run]
  exact not_gated_of_ungated calm.1

theorem armDisable_ok {s s' : Session σ} {r : Unit} (run : (armDisable bus gen).run s = .ok r s') :
    s'.ArmGated ∧ ∀ dev ∈ s.live, dev ∈ s'.live := by
  obtain ⟨_, s₁, head, tail⟩ := bind_ok_iff.mp run
  cases tail
  exact ⟨gated_of_gated rfl, ((onSoc_calm _).ok head).2⟩

theorem armDisable_error {s s' : Session σ} {e : Stop} (run : (armDisable bus gen).run s = .error e s') :
    Calm s s' := by
  rcases bind_error_iff.mp run with head | ⟨_, s₁, _, tail⟩
  · exact (onSoc_calm _).error head
  · cases tail

/-- A reset that gets past the reset itself ungates the ARM, whatever fails after that. -/
theorem wdtPerformReset_rest (wdt : Wdt) (s : Session σ) : ¬ ((do
    armEnable bus gen
    onSoc (wdtWritel bus wdt wdtReload 0)).run s).state.ArmGated := by
  refine state_bind (F := fun s => ¬ s.ArmGated) (armEnable_ungates bus gen s)
    (fun _ => onSoc_calm (wdtWritel bus wdt wdtReload 0)) ?_
  intro s₁ s₂ still calm
  rw [calm.gated_iff]
  exact still

theorem wdtPerformReset_ok {wdt : Wdt} {s s' : Session σ} {r : Unit}
    (run : (wdtPerformReset bus gen host wdt).run s = .ok r s') : ¬ s'.ArmGated := by
  obtain ⟨_, s₁, _, tail⟩ := bind_ok_iff.mp run
  have rest := wdtPerformReset_rest bus gen wdt s₁
  rw [tail] at rest
  exact rest

theorem wdtPerformReset_error {wdt : Wdt} {s s' : Session σ} {e : Stop}
    (run : (wdtPerformReset bus gen host wdt).run s = .error e s') :
    (∃ soc, (wdtExpire bus host wdt).run s.soc = .error e soc ∧ Calm s s') ∨ ¬ s'.ArmGated := by
  rcases bind_error_iff.mp run with head | ⟨_, s₁, _, tail⟩
  · obtain ⟨soc, failed, _⟩ := zoom_error_iff.mp head
    exact Or.inl ⟨soc, failed, (onSoc_calm _).error head⟩
  · have rest := wdtPerformReset_rest bus gen wdt s₁
    rw [tail] at rest
    exact Or.inr rest

theorem wdtPerformReset_fails {wdt : Wdt} {s : Session σ} {e : Stop} {soc : Faulty σ}
    (failed : (wdtExpire bus host wdt).run s.soc = .error e soc) :
    ∃ s', (wdtPerformReset bus gen host wdt).run s = .error e s' ∧ Calm s s' := by
  have head : (onSoc (wdtExpire bus host wdt)).run s = .error e { s with soc := soc } :=
    zoom_error_iff.mpr ⟨soc, failed, rfl⟩
  exact ⟨_, run_bind_error head, (onSoc_calm _).error head⟩

end

/-- A reset is not given up before the ARM is ungated: the ten accesses that start the watchdog go
through, it runs on its 1 MHz clock, and the bridge is released and comes back. -/
structure ResetGoesThrough {σ : Type} (bus : Bus σ) (host : CmdHost σ) (wdt : Wdt) (s : Faulty σ) : Prop where
  accesses : s.Clear 10
  clock : (wdtClock bus wdt s.dev).1 &&& wdtCtrlClk1mhz ≠ 0
  release : ∀ e s₁,
    host.release.run (s.after 10 (wdtRunning bus wdt (wdtClock bus wdt s.dev).2 5000000)) ≠ .error (.rc e) s₁
  reinit : ∀ s₁ e s₂,
    host.release.run (s.after 10 (wdtRunning bus wdt (wdtClock bus wdt s.dev).2 5000000)) = .ok () s₁ →
    host.reinit.run s₁ ≠ .error (.rc e) s₂

section
variable {σ : Type} {bus : Bus σ} {gen : AstGeneration} {host : CmdHost σ} {wdt : Wdt}

theorem wdtExpire_of_goesThrough {s s' : Faulty σ} {e : Errno} (through : ResetGoesThrough bus host wdt s) :
    (wdtExpire bus host wdt).run s ≠ .error (.rc e) s' := by
  intro failed
  have armed := (wdtArm_takes bus wdt s.dev through.clock).clear s rfl through.accesses
  rw [wdtExpire, run_bind_ok armed] at failed
  rcases bind_error_iff.mp failed with head | ⟨_, s₁, head, tail⟩
  · exact through.release e s' head
  · exact through.reinit s₁ e s' head tail

theorem goesThrough_of_wdtExpire {s : Faulty σ} (fine : ∀ e s', (wdtExpire bus host wdt).run s ≠ .error (.rc e) s') :
    ResetGoesThrough bus host wdt s := by
  have clock : (wdtClock bus wdt s.dev).1 &&& wdtCtrlClk1mhz ≠ 0 := by
    intro none
    obtain ⟨e, s', run⟩ := wdtArm_no_clock bus wdt s none
    exact fine e s' (run_bind_error run)
  have takes := wdtArm_takes bus wdt s.dev clock
  have accesses : s.Clear 10 := by
    rcases clear_or_firstFails s 10 with clear | ⟨k, lt, first⟩
    · exact clear
    · obtain ⟨e, mid, _, run⟩ := takes.failed s k rfl lt first
      exact absurd (run_bind_error run) (fine e _)
  have armed := takes.clear s rfl accesses
  rw [wdtExpire] at fine
  refine ⟨accesses, clock, fun e s₁ head => ?_, fun s₁ e s₂ head tail => ?_⟩
  · refine fine e s₁ ?_
    rw [run_bind_ok armed]
    exact run_bind_error head
  · refine fine e s₂ ?_
    rw [run_bind_ok armed, run_bind_ok head]
    exact tail

/-- From a gated ARM, a reset that returns leaves it ungated exactly where it goes through. -/
theorem wdtPerformReset_gated_iff {s s' : Session σ} (gated : s.ArmGated)
    (returned : ReturnsIn (wdtPerformReset bus gen host wdt) s s') :
    ¬ s'.ArmGated ↔ ResetGoesThrough bus host wdt s.soc := by
  constructor
  · intro ungated
    refine goesThrough_of_wdtExpire fun e soc failed => ungated ?_
    obtain ⟨s₁, run₁, calm⟩ := wdtPerformReset_fails bus gen host failed
    obtain ⟨r, run⟩ := returned
    rw [attempt_rc run₁] at run
    cases run
    exact calm.gated_iff.mpr gated
  · intro through
    rcases returnsIn_iff.mp returned with ⟨_, run⟩ | ⟨e, run⟩
    · exact wdtPerformReset_ok bus gen host run
    · rcases wdtPerformReset_error bus gen host run with ⟨soc, failed, _⟩ | ungated
      · exact absurd failed (wdtExpire_of_goesThrough through)
      · exact ungated

theorem armEnable_returnsIn {s s' : Session σ} (returned : ReturnsIn (armEnable bus gen) s s') : ¬ s'.ArmGated := by
  have ungated := armEnable_ungates bus gen s
  rcases returnsIn_iff.mp returned with ⟨_, run⟩ | ⟨e, run⟩
  · rw [run] at ungated
    exact ungated
  · rw [run] at ungated
    exact ungated

theorem fail_returnsIn {α : Type} {s s' : Session σ} {e : Errno}
    (returned : ReturnsIn (Prog.fail e : Prog (Session σ) α) s s') : s' = s := by
  obtain ⟨r, run⟩ := returned
  cases run
  rfl

/-- What ends with the ARM enabled and an error leaves it ungated. -/
theorem recover_returnsIn {α : Type} {s s' : Session σ} {e : Errno} (returned : ReturnsIn (do
      let _ ← attempt (armEnable bus gen)
      (Prog.fail e : Prog (Session σ) α)) s s') : ¬ s'.ArmGated := by
  rcases returnsIn_bind.mp returned with ⟨e', never⟩ | ⟨r, s₁, enabled, failed⟩
  · exact absurd never attempt_ne_rc
  · obtain rfl := fail_returnsIn failed
    exact armEnable_returnsIn ⟨r, enabled⟩

theorem resetSoc_ungated {s s' : Session σ} (ungated : ¬ s.ArmGated)
    (returned : ReturnsIn (resetSoc bus host gen wdt) s s') : ¬ s'.ArmGated := by
  have rest {s₁ : Session σ} (returned : ReturnsIn (do
      let rc ← attempt do
        wdtPreventReset bus gen
        wdtPerformReset bus gen host wdt
      resetRecover bus gen rc) s₁ s') : ¬ s'.ArmGated := by
    rcases returnsIn_bind.mp returned with ⟨e, never⟩ | ⟨rc, s₂, reset, recover⟩
    · exact absurd never attempt_ne_rc
    · cases rc with
      | error e => exact recover_returnsIn recover
      | ok =>
        obtain ⟨_, s₃, _, performed⟩ := bind_ok_iff.mp (attempt_ok_iff.mp reset)
        obtain ⟨r, done⟩ := recover
        cases done
        exact wdtPerformReset_ok bus gen host performed
  rw [resetSoc] at returned
  dsimp only at returned
  split at returned
  · exact rest returned
  · rcases returnsIn_bind.mp returned with ⟨e, failed⟩ | ⟨_, s₁, _, tail⟩
    · rw [(armDisable_error bus gen failed).gated_iff]
      exact ungated
    · exact rest tail

/-- A step before the clock is touched that fails, or that is followed by one that leaves the ARM ungated. -/
theorem ungated_bind {α β : Type} {m : Prog (Session σ) α} {f : α → Prog (Session σ) β} {s s' : Session σ}
    (calm : Keeps Calm m) (ungated : ¬ s.ArmGated)
    (next : ∀ a s₁, m.run s = .ok a s₁ → ¬ s₁.ArmGated → ReturnsIn (f a) s₁ s' → ¬ s'.ArmGated)
    (returned : ReturnsIn (m >>= f) s s') : ¬ s'.ArmGated := by
  rcases returnsIn_bind.mp returned with ⟨e, failed⟩ | ⟨a, s₁, head, tail⟩
  · rw [(calm.error failed).gated_iff]
    exact ungated
  · refine next a s₁ head ?_ tail
    rw [(calm.ok head).gated_iff]
    exact ungated

theorem ofExcept_calm (x : Except Errno Unit) : Keeps Calm (Prog.ofExcept x : Prog (Session σ) Unit) := by
  cases x with
  | error e => exact keeps_fail e
  | ok => exact keeps_pure ()

/-- `do_reset` never returns with the ARM gated. -/
theorem doReset_ungated {wdt : Option Wdt} {s s' : Session σ} (ungated : ¬ s.ArmGated)
    (returned : ReturnsIn (doReset bus host wdt) s s') : ¬ s'.ArmGated := by
  have calm {α : Type} {m : Prog (Session σ) α} {s : Session σ} (kept : Keeps Calm m) (ungated : ¬ s.ArmGated)
      (returned : ReturnsIn m s s') : ¬ s'.ArmGated := by
    rw [(kept.returnsIn returned).gated_iff]
    exact ungated
  refine ungated_bind (ofExcept_calm host.init) ungated (fun _ s₁ _ ungated returned => ?_) returned
  by_cases ahb : host.ahb = true
  · rw [if_pos ahb] at returned
    refine ungated_bind (onSoc_calm _) ungated (fun rev s₂ _ ungated returned => ?_) returned
    cases generation : revGeneration rev with
    | none =>
      rw [generation] at returned
      exact calm (keeps_fail enotsup) ungated returned
    | some gen =>
      rw [generation] at returned
      refine ungated_bind (clkGet_calm bus gen) ungated (fun clk s₃ _ ungated returned => ?_) returned
      by_cases clk : clk = true
      · rw [if_pos clk] at returned
        cases wdt with
        | none => exact calm (keeps_pure 0) ungated returned
        | some wdt =>
          refine ungated_bind (wdtGetByName_calm bus gen wdt) ungated (fun found s₄ _ ungated returned => ?_) returned
          by_cases found : found = true
          · rw [if_pos found] at returned
            exact resetSoc_ungated ungated returned
          · rw [if_neg found] at returned
            exact calm (keeps_pure 0) ungated returned
      · rw [if_neg clk] at returned
        exact calm (keeps_pure 0) ungated returned
  · rw [if_neg ahb] at returned
    exact calm (keeps_pure 1) ungated returned

end

/-! ## Writing firmware -/

section
variable {σ : Type} {bus : Bus σ} {gen : AstGeneration} {host : CmdHost σ}
variable {parts : FlashParts σ} {fuel : Nat} {stdin : List StdinRead}

/-- A device that is found has its driver data. -/
theorem getDrvdata_true {dev : Device} {init : Prog (Session σ) Unit} {s s' : Session σ}
    (run : (getDrvdata gen dev init).run s = .ok true s') : dev.bound gen = true ∧ dev ∈ s'.live := by
  rw [getDrvdata] at run
  by_cases bound : dev.bound gen = true
  · rw [if_pos bound] at run
    refine ⟨bound, ?_⟩
    obtain ⟨s₁, _, head, run⟩ := bind_ok_iff.mp run
    cases head
    by_cases there : dev ∈ s.live
    · rw [if_pos there] at run
      cases run
      exact there
    · rw [if_neg there] at run
      obtain ⟨_, s₂, _, run⟩ := bind_ok_iff.mp run
      obtain ⟨_, _, head, last⟩ := bind_ok_iff.mp run
      cases head
      obtain ⟨found, rfl⟩ : decide (dev ∈ s₂.live) = true ∧ s₂ = s' := by simpa using last
      exact of_decide_eq_true found
  · rw [if_neg bound] at run
    cases run

/-- Driver data that are there are found, and nothing else happens. -/
theorem getDrvdata_live {dev : Device} {init : Prog (Session σ) Unit} {s : Session σ} (bound : dev.bound gen = true)
    (there : dev ∈ s.live) : (getDrvdata gen dev init).run s = .ok true s := by
  rw [getDrvdata, if_pos bound]
  have head : (get : Prog (Session σ) (Session σ)).run s = .ok s s := rfl
  rw [run_bind_ok head, if_pos there]
  rfl

theorem wdtPreventReset_wdt2 {s s' : Session σ} {r : Unit} (run : (wdtPreventReset bus gen).run s = .ok r s') :
    (Device.wdt .wdt2).bound gen = true ∧ Device.wdt .wdt2 ∈ s'.live := by
  have each (wdt : Wdt) : Keeps Calm (do
      if ← wdtGetByName bus gen wdt then onSoc (wdtStop bus wdt) else Prog.fail enodev) :=
    (wdtGetByName_calm bus gen wdt).bind fun found => Keeps.ite (onSoc_calm _) (keeps_fail enodev)
  obtain ⟨_, s₁, _, rest⟩ := bind_ok_iff.mp run
  obtain ⟨_, s₂, second, rest⟩ := bind_ok_iff.mp rest
  obtain ⟨found, s₃, lookup, stop⟩ := bind_ok_iff.mp second
  cases found with
  | false => cases stop
  | true =>
    obtain ⟨bound, there⟩ := getDrvdata_true lookup
    have later := (((onSoc_calm _).ok stop).2 _ there)
    exact ⟨bound, (((each .wdt3).bind fun _ => keeps_pure PUnit.unit).ok rest).2 _ later⟩

/-- With the image written, the ARM is gated and the second watchdog is at hand. -/
theorem firmwareWrite_ok (remote : host.isLocal = false) {s s' : Session σ}
    (run : (firmwareWrite bus gen host parts fuel stdin).run s = .ok (.ok ()) s') :
    s'.ArmGated ∧ (Device.wdt .wdt2).bound gen = true ∧ Device.wdt .wdt2 ∈ s'.live := by
  obtain ⟨_, s₁, quiesce, flash⟩ := bind_ok_iff.mp (attempt_ok_iff.mp run)
  have written := (firmwareFlash_calm bus gen parts fuel stdin).ok flash
  rw [firmwareQuiesce, remote, if_neg Bool.false_ne_true] at quiesce
  obtain ⟨_, s₂, prevent, quiesce⟩ := bind_ok_iff.mp quiesce
  obtain ⟨_, s₃, disable, discard⟩ := bind_ok_iff.mp quiesce
  obtain ⟨bound, there⟩ := wdtPreventReset_wdt2 prevent
  obtain ⟨gated, kept⟩ := armDisable_ok bus gen disable
  have calm : Calm s₃ s' := trans_of Calm ((onSoc_calm _).ok discard) written
  exact ⟨calm.gated_iff.mpr gated, bound, calm.2 _ (kept _ there)⟩

theorem firmwareCleanup_error {s s' : Session σ} {e : Errno}
    (returned : ReturnsIn (firmwareCleanup bus gen host (.error e)) s s') : ¬ s'.ArmGated := by
  rcases returnsIn_bind.mp returned with ⟨e', never⟩ | ⟨_, s₁, _, rest⟩
  · exact absurd never attempt_ne_rc
  · exact recover_returnsIn rest

theorem firmwareCleanup_ok (remote : host.isLocal = false) {s : Session σ} (bound : (Device.wdt .wdt2).bound gen = true)
    (there : Device.wdt .wdt2 ∈ s.live) :
    (firmwareCleanup bus gen host (.ok ())).run s = (wdtPerformReset bus gen host .wdt2).run s := by
  rw [firmwareCleanup, remote, if_neg Bool.false_ne_true]
  have lookup : (wdtGetByName bus gen .wdt2).run s = .ok true s := getDrvdata_live bound there
  rw [run_bind_ok lookup, if_pos rfl]

/-- The last reset of `cmd_write_firmware` goes through wherever the image was written. -/
def LastResetGoesThrough (bus : Bus σ) (host : CmdHost σ) (parts : FlashParts σ) (fuel : Nat) (stdin : List StdinRead)
    (s : Session σ) : Prop := ∀ gen s₁ s₂, (firmwareOpen bus host).run s = .ok gen s₁ →
  (firmwareWrite bus gen host parts fuel stdin).run s₁ = .ok (.ok ()) s₂ → ResetGoesThrough bus host .wdt2 s₂.soc

theorem cmdWriteFirmware_gated (remote : host.isLocal = false) {s s₁ s₂ : Session σ}
    (opened : (firmwareOpen bus host).run s = .ok gen s₁)
    (written : (firmwareWrite bus gen host parts fuel stdin).run s₁ = .ok (.ok ()) s₂) {e : Errno} {soc : Faulty σ}
    (failed : (wdtExpire bus host .wdt2).run s₂.soc = .error (.rc e) soc) :
    ∃ s', ReturnsIn (cmdWriteFirmware bus host parts fuel stdin) s s' ∧ s'.ArmGated := by
  obtain ⟨gated, bound, there⟩ := firmwareWrite_ok remote written
  obtain ⟨s', reset, calm⟩ := wdtPerformReset_fails bus gen host failed
  refine ⟨s', returnsIn_iff.mpr (Or.inr ⟨e, ?_⟩), calm.gated_iff.mpr gated⟩
  rw [cmdWriteFirmware, run_bind_ok opened, run_bind_ok written, firmwareCleanup_ok remote bound there]
  exact reset

theorem cmdWriteFirmware_ungated (remote : host.isLocal = false) {s s' : Session σ} (ungated : ¬ s.ArmGated)
    (through : LastResetGoesThrough bus host parts fuel stdin s)
    (returned : ReturnsIn (cmdWriteFirmware bus host parts fuel stdin) s s') : ¬ s'.ArmGated := by
  refine ungated_bind (firmwareOpen_calm bus host) ungated (fun gen s₁ opened _ returned => ?_) returned
  rcases returnsIn_bind.mp returned with ⟨e, never⟩ | ⟨rc, s₂, written, returned⟩
  · exact absurd never attempt_ne_rc
  · cases rc with
    | error e => exact firmwareCleanup_error returned
    | ok =>
      obtain ⟨gated, bound, there⟩ := firmwareWrite_ok remote written
      have reset : ReturnsIn (wdtPerformReset bus gen host .wdt2) s₂ s' := by
        rw [returnsIn_iff, firmwareCleanup_ok remote bound there] at returned
        exact returnsIn_iff.mpr returned
      exact (wdtPerformReset_gated_iff gated reset).mpr (through gen s₁ s₂ opened written)

end

/-- `do_reset` never returns with the ARM gated. `cmd_write_firmware` does not where, with the image
written, its reset goes through as far as the clock gate, and only there. -/
theorem arm_never_left_gated {σ : Type} (bus : Bus σ) (host : CmdHost σ) (remote : host.isLocal = false) (s : Session σ)
    (ungated : ¬ s.ArmGated) :
    (∀ wdt s', ReturnsIn (doReset bus host wdt) s s' → ¬ s'.ArmGated) ∧
    ∀ parts fuel stdin, (∀ s', ReturnsIn (cmdWriteFirmware bus host parts fuel stdin) s s' → ¬ s'.ArmGated) ↔
      LastResetGoesThrough bus host parts fuel stdin s := by
  refine ⟨fun wdt s' returned => doReset_ungated ungated returned, fun parts fuel stdin => ⟨fun never => ?_, ?_⟩⟩
  · intro gen s₁ s₂ opened written
    refine goesThrough_of_wdtExpire fun e soc failed => ?_
    obtain ⟨s', returned, gated⟩ := cmdWriteFirmware_gated remote opened written failed
    exact never s' returned gated
  · intro through s' returned
    exact cmdWriteFirmware_ungated remote ungated through returned

/-- A bridge from the outside on which nothing fails. -/
def remoteHost : CmdHost Regs := ⟨.ok (), true, .ok (), false, pure (), pure ()⟩

/-- An AST2500 whose accesses fail from the given one on. -/
def ast2500Session (first : Nat) : Session Regs where
  soc := ⟨fun phys => if phys = 0x1e6e207c then 0x04030303 else 0, fun n => if n < first then none else some eio, 0⟩
  allocs := fun _ => true
  nallocs := 0
  live := []
  arm := []

/-- A controller with an idle 16 MiB chip. -/
def winbondParts : FlashParts Regs where
  initDevice := pure ()
  ctrl :=
    { setup := none, set4b := none, chipId := none, directRead := none, write := none, erase := none, finfo := none
      rd := some fun op _ n => pure (if op = cmdRdid then [0xef, 0x40, 0x18] else List.replicate n 0)
      wr := some fun _ _ _ => pure () }

theorem ast2500Session_ungated (first : Nat) : ¬ (ast2500Session first).ArmGated := not_false

theorem arm_never_left_gated_remote :
    (∀ wdt s', ReturnsIn (doReset regBus remoteHost wdt) (ast2500Session 13) s' → ¬ s'.ArmGated) ∧
    ∀ parts fuel stdin, (∀ s', ReturnsIn (cmdWriteFirmware regBus remoteHost parts fuel stdin) (ast2500Session 13) s' →
        ¬ s'.ArmGated) ↔ LastResetGoesThrough regBus remoteHost parts fuel stdin (ast2500Session 13) :=
  arm_never_left_gated regBus remoteHost rfl (ast2500Session 13) (ast2500Session_ungated 13)

/-- The bridge goes away with the image written, and the ARM stays gated. -/
theorem cmd_write_firmware_left_gated : ¬ ∀ (s s' : Session Regs) (stdin : List StdinRead), ¬ s.ArmGated →
    ReturnsIn (cmdWriteFirmware regBus remoteHost winbondParts 0 stdin) s s' → ¬ s'.ArmGated := by
  intro all
  have outcome : (match (cmdWriteFirmware regBus remoteHost winbondParts 0 []).run (ast2500Session 13) with
      | .error e s' => some (e, s'.arm)
      | .ok .. => none) = some (.rc eio, [.gated]) := by decide +kernel
  cases run : (cmdWriteFirmware regBus remoteHost winbondParts 0 []).run (ast2500Session 13) with
  | ok r s' =>
    rw [run] at outcome
    cases outcome
  | error e s' =>
    rw [run] at outcome
    obtain ⟨rfl, arm⟩ : e = .rc eio ∧ s'.arm = [.gated] := by simpa using outcome
    exact all _ s' [] (ast2500Session_ungated 13) (returnsIn_iff.mpr (Or.inr ⟨eio, run⟩)) (gated_of_gated arm)

end Culvert
