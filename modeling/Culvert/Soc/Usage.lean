import Culvert.Lib.Passes
import Culvert.Soc.Unbind

namespace Culvert

namespace Soc

/-- There is an SCU whose driver has data, or would get them: neither the allocation nor the read of
the key fails, nor the write that unlocks it. -/
def ScuReady (s : Faulty Soc) : Prop := ∃ dev, (Lookup.driver .scu).target s.dev = some dev ∧
  (dev ∈ s.dev.live ∨ ¬ s.FailsAt 0 ∧ ¬ s.FailsAt 1 ∧ (s.dev.values s.dev.reads = 0 → ¬ s.FailsAt 2))

/-- The `init` of a JTAG master gets past `scu_get`. -/
def JtagTakes (s : Faulty Soc) : Prop := ¬ s.FailsAt 0 ∧ ScuReady (s.after 1 s.dev)

section
variable {s : Faulty Soc}

theorem malloc_passed (passed : ¬ s.FailsAt 0) : malloc.run s = .ok () (s.after 1 s.dev) := by
  have asked := Faulty.access_passed (f := fun s : Soc => ((), s)) passed
  rw [malloc, Prog.run_bind_ok (Prog.attempt_ok asked)]
  rfl

theorem malloc_failed (failed : s.FailsAt 0) : ∃ e, malloc.run s = .error (.rc e) (s.after 1 s.dev) := by
  obtain ⟨e, asked⟩ := Faulty.access_failed (f := fun s : Soc => ((), s)) failed
  refine ⟨enomem, ?_⟩
  rw [malloc, Prog.run_bind_ok (Prog.attempt_rc asked)]
  rfl

theorem get_run (s : Faulty Soc) : (get : Prog (Faulty Soc) _).run s = .ok s s := rfl

/-- `scu_driver_init` sets the driver data, or leaves the devices with such as they are and fails. -/
theorem scuDriverInit_run (s : Faulty Soc) (dev : SocDev) :
    ((¬ s.FailsAt 0 ∧ ¬ s.FailsAt 1 ∧ (s.dev.values s.dev.reads = 0 → ¬ s.FailsAt 2)) ∧
      ∃ s', (scuDriverInit dev).run s = .ok () s' ∧ dev ∈ s'.dev.live) ∨
    (¬ (¬ s.FailsAt 0 ∧ ¬ s.FailsAt 1 ∧ (s.dev.values s.dev.reads = 0 → ¬ s.FailsAt 2)) ∧
      ∃ e s', (scuDriverInit dev).run s = .error (.rc e) s') := by
  rw [scuDriverInit]
  by_cases first : s.FailsAt 0
  · obtain ⟨e, run⟩ := malloc_failed first
    exact Or.inr ⟨fun all => all.1 first, e, _, by rw [Prog.run_bind_error run]⟩
  rw [Prog.run_bind_ok (malloc_passed first)]
  by_cases second : s.FailsAt 1
  · obtain ⟨e, run⟩ := Faulty.access_failed (f := bus.readl (scuBase + astScuProtKey)) (s := s.after 1 s.dev)
      (Faulty.after_failsAt.mpr second)
    exact Or.inr ⟨fun all => all.2.1 second, e, _, Prog.run_bind_error run⟩
  have read := Faulty.access_passed (f := bus.readl (scuBase + astScuProtKey)) (s := s.after 1 s.dev)
    (fun failed => second (Faulty.after_failsAt.mp failed))
  rw [Prog.run_bind_ok (show (scuReadl bus astScuProtKey).run _ = _ from read)]
  by_cases locked : s.dev.values s.dev.reads = 0
  · have opened : (bus.readl (scuBase + astScuProtKey) (s.after 1 s.dev).dev).1 = 0 := locked
    simp only [if_pos opened]
    by_cases third : s.FailsAt 2
    · obtain ⟨e, run⟩ := Faulty.access_failed (f := fun s => ((), bus.writel (scuBase + astScuProtKey) astScuPassword s))
        (s := (s.after 1 s.dev).after 1 (bus.readl (scuBase + astScuProtKey) (s.after 1 s.dev).dev).2)
        (Faulty.after_failsAt.mpr (Faulty.after_failsAt.mpr third))
      exact Or.inr ⟨fun all => all.2.2 locked third, e, _, Prog.run_bind_error run⟩
    · have wrote := Faulty.access_passed
        (f := fun s => ((), bus.writel (scuBase + astScuProtKey) astScuPassword s))
        (s := (s.after 1 s.dev).after 1 (bus.readl (scuBase + astScuProtKey) (s.after 1 s.dev).dev).2)
        (fun failed => third (Faulty.after_failsAt.mp (Faulty.after_failsAt.mp failed)))
      refine Or.inl ⟨⟨first, second, fun _ => third⟩, _, Prog.run_bind_ok wrote, ?_⟩
      exact List.mem_cons_self
  · have opened : ¬ (bus.readl (scuBase + astScuProtKey) (s.after 1 s.dev).dev).1 = 0 := locked
    simp only [if_neg opened]
    refine Or.inl ⟨⟨first, second, fun zero => absurd zero locked⟩, _, rfl, ?_⟩
    exact List.mem_cons_self

/-- `scu_get` gives a reference where there is an SCU to be had, and only there. -/
theorem scuGet_run (s : Faulty Soc) (holder : Holder) :
    ∃ b s', (scuGet holder).run s = .ok b s' ∧ (b = true ↔ ScuReady s) := by
  have found : ∃ b s', (getDrvdata (.driver .scu) scuDriverInit).run s = .ok b s' ∧ (b = true ↔ ScuReady s) := by
    rw [getDrvdata, Prog.run_bind_ok (get_run s)]
    cases here : (Lookup.driver .scu).target s.dev with
    | none =>
      refine ⟨false, s, rfl, fun never => absurd never Bool.false_ne_true, ?_⟩
      rintro ⟨dev, target, _⟩
      rw [here] at target
      cases target
    | some dev =>
      by_cases alive : dev ∈ s.dev.live
      · exact ⟨true, s, deviceInitDriver_live alive, fun _ => ⟨dev, here, Or.inl alive⟩, fun _ => rfl⟩
      · rcases scuDriverInit_run s dev with ⟨all, s₁, run, now⟩ | ⟨some, e, s₁, run⟩
        · have start : (deviceInitDriver dev (scuDriverInit dev)).run s = .ok (decide (dev ∈ s₁.dev.live)) s₁ := by
            rw [deviceInitDriver, Prog.run_bind_ok (get_run s), if_neg alive, Prog.run_bind_ok (Prog.attempt_ok run)]
            exact Prog.run_bind_ok (get_run s₁)
          refine ⟨_, s₁, start, fun _ => ⟨dev, here, Or.inr all⟩, fun _ => ?_⟩
          exact decide_eq_true now
        · have start : (deviceInitDriver dev (scuDriverInit dev)).run s = .ok false s₁ := by
            rw [deviceInitDriver, Prog.run_bind_ok (get_run s), if_neg alive]
            exact Prog.run_bind_ok (Prog.attempt_rc run)
          refine ⟨_, s₁, start, fun never => absurd never Bool.false_ne_true, ?_⟩
          rintro ⟨other, target, ready⟩
          obtain rfl : dev = other := Option.some.inj (here.symm.trans target)
          exact absurd (ready.resolve_left alive) some
  obtain ⟨b, s', run, ready⟩ := found
  rw [scuGet, Prog.run_bind_ok run]
  cases b with
  | true => exact ⟨true, _, rfl, ready⟩
  | false => exact ⟨false, _, rfl, ready⟩

end

variable {devices before : List SocDev} {extra : List Holder} {held : Nat} {dev : SocDev}

/-- The steps of the JTAG driver once it has its reference. -/
theorem jtagDriverInit_rest (gen : AstGeneration) (known : dev ∈ devices) (new : dev ∉ before)
    (driver : dev.driver = .jtag) :
    Prog.Triple (fun s => InUse devices before dev.driver.rank extra held s.dev)
      (do
        jtagRelease gen
        socWritel bus (jtagStart gen dev + jtagEc) (jtagEcEngEn ||| jtagEcEngOutEn)
        socWritel bus (jtagStart gen dev + jtagEc) (jtagEcEngEn ||| jtagEcEngOutEn ||| jtagEcForceTms)
        socWritel bus (jtagStart gen dev + jtagSwMode) jtagSwModeEn
        setDrvdata dev : Prog (Faulty Soc) Unit)
      (fun _ s => InUse devices before (dev.driver.rank + 1) extra held s.dev)
      (fun _ s => InUse devices before (dev.driver.rank + 1) extra held s.dev) := by
  have ec : jtagStart gen dev + jtagEc ≠ scuBase + astScuProtKey := by
    unfold jtagStart
    split_ifs <;> decide
  have mode : jtagStart gen dev + jtagSwMode ≠ scuBase + astScuProtKey := by
    unfold jtagStart
    split_ifs <;> decide
  refine Enters.of ((InUse.blind.jtagRelease gen).bind fun _ => ?_)
  refine (InUse.blind.writel (not_locks_of_ne ec)).bind fun _ => ?_
  refine (InUse.blind.writel (not_locks_of_ne ec)).bind fun _ => ?_
  refine (InUse.blind.writel (not_locks_of_ne mode)).bind fun _ => ?_
  exact setDrvdata_enters known new (by rw [driver]; decide) (by rw [driver]; rfl)

/-- The reference that the JTAG driver takes is one that nobody will drop. -/
theorem jtagDriverInit_takes (one : OneScu devices) (gen : AstGeneration) (known : dev ∈ devices) (new : dev ∉ before)
    (driver : dev.driver = .jtag) :
    Prog.Triple (fun s => JtagTakes s ∧ InUse devices before dev.driver.rank extra held s.dev) (jtagDriverInit gen dev)
      (fun _ s => InUse devices before (dev.driver.rank + 1) (.device dev :: extra) held s.dev)
      (fun _ s => InUse devices before (dev.driver.rank + 1) (.device dev :: extra) held s.dev) := by
  rintro s ⟨⟨passed, ready⟩, inUse⟩
  rw [jtagDriverInit, Prog.run_bind_ok (malloc_passed passed)]
  obtain ⟨b, s₁, run, got⟩ := scuGet_run (s.after 1 s.dev) (.device dev)
  obtain rfl : b = true := got.mpr ready
  have taken := (scuGet_inUse one (by rw [driver]; decide) (.device dev) (s.after 1 s.dev) inUse).1 true s₁ run
  rw [Prog.run_bind_ok run]
  exact jtagDriverInit_rest gen known new driver s₁ taken

theorem jtagDriverInit_spares (one : OneScu devices) (gen : AstGeneration) (driver : dev.driver = .jtag) :
    Prog.Triple (fun s => ¬ JtagTakes s ∧ InUse devices before dev.driver.rank extra held s.dev) (jtagDriverInit gen dev)
      (fun _ s => InUse devices before (dev.driver.rank + 1) extra held s.dev)
      (fun _ s => InUse devices before (dev.driver.rank + 1) extra held s.dev) := by
  rintro s ⟨free, inUse⟩
  rw [jtagDriverInit]
  by_cases first : s.FailsAt 0
  · obtain ⟨e, run⟩ := malloc_failed first
    rw [Prog.run_bind_error run]
    refine ⟨fun _ _ run => (nomatch run), fun e' s' run => ?_⟩
    cases run
    exact inUse.mono (Nat.le_succ _)
  · rw [Prog.run_bind_ok (malloc_passed first)]
    obtain ⟨b, s₁, run, got⟩ := scuGet_run (s.after 1 s.dev) (.device dev)
    obtain rfl : b = false := by
      rw [← Bool.not_eq_true, got]
      exact fun ready => free ⟨first, ready⟩
    have spared := (scuGet_inUse one (by rw [driver]; decide) (.device dev) (s.after 1 s.dev) inUse).1 false s₁ run
    rw [Prog.run_bind_ok run]
    refine ⟨fun _ _ run => (nomatch run), fun e' s' run => ?_⟩
    cases run
    exact InUse.mono spared (Nat.le_succ _)

theorem state_of {α : Type} {m : Prog (Faulty Soc) α} {s : Faulty Soc} {K : Soc → Prop}
    (ends : (∀ a s', m.run s = .ok a s' → K s'.dev) ∧ ∀ e s', m.run s = .error e s' → K s'.dev) :
    K (m.run s).state.dev := by
  cases run : m.run s with
  | ok a s' => exact ends.1 a s' run
  | error e s' => exact ends.2 e s' run

/-- The lookup initialises a JTAG master, which gets past `scu_get`. -/
def LookupTakes (lookup : Lookup) (s : Faulty Soc) : Prop :=
  ∃ dev, lookup.target s.dev = some dev ∧ dev.driver = .jtag ∧ dev ∉ s.dev.live ∧ JtagTakes s

theorem rank_lt (driver : Driver) : driver.rank < 4 := by
  cases driver <;> decide

section
variable (one : OneScu devices) (gen : AstGeneration) (lookup : Lookup) {s : Faulty Soc}
  (inUse : InUse devices before 4 extra held s.dev)
include one inUse

theorem getDrvdata_takes (takes : LookupTakes lookup s) : ∃ dev, InUse devices before 4 (.device dev :: extra) held
    ((getDrvdata lookup (driverInit gen)).run s).state.dev := by
  obtain ⟨dev, found, jtag, new, takes⟩ := takes
  have known : dev ∈ devices := inUse.bound ▸ target_known found
  have initialises : driverInit gen dev = jtagDriverInit gen dev := by
    rw [driverInit, jtag]
  refine ⟨dev, ?_⟩
  rw [getDrvdata, Prog.run_bind_ok (get_run s), found]
  simp only [initialises]
  obtain ⟨good, bad⟩ := deviceInitDriver_fresh (rank_lt _)
    (fun L new => jtagDriverInit_takes one gen known new jtag) s ⟨takes, new, inUse⟩
  exact state_of ⟨fun a s' run => (good a s' run).1, bad⟩

theorem getDrvdata_spares (free : ¬ LookupTakes lookup s) :
    InUse devices before 4 extra held ((getDrvdata lookup (driverInit gen)).run s).state.dev := by
  rw [getDrvdata, Prog.run_bind_ok (get_run s)]
  cases found : lookup.target s.dev with
  | none => exact inUse
  | some dev =>
    have known : dev ∈ devices := inUse.bound ▸ target_known found
    by_cases jtag : dev.driver = .jtag
    · have initialises : driverInit gen dev = jtagDriverInit gen dev := by
        rw [driverInit, jtag]
      simp only [initialises]
      by_cases alive : dev ∈ s.dev.live
      · rw [deviceInitDriver_live alive]
        exact inUse
      · have spared : ¬ JtagTakes s := fun takes => free ⟨dev, found, jtag, alive, takes⟩
        obtain ⟨good, bad⟩ := deviceInitDriver_fresh (rank_lt _)
          (fun L _ => jtagDriverInit_spares one gen jtag) s ⟨spared, alive, inUse⟩
        exact state_of ⟨fun a s' run => (good a s' run).1, bad⟩
    · obtain ⟨good, bad⟩ := deviceInitDriver_inUse (rank_lt _)
        (fun L new => driverInit_enters one gen known new jtag) s inUse
      exact state_of ⟨fun a s' run => (good a s' run).1, bad⟩

end

theorem initBridgeControllersEach_inUse (one : OneScu devices) (gen : AstGeneration) (l : List SocDev)
    (known : ∀ dev ∈ l, dev ∈ devices ∧ (isBridgeController gen dev → dev.driver ≠ .jtag)) :
    Prog.Triple (fun s => InUse devices before 4 extra held s.dev) (initBridgeControllersEach gen l)
      (fun _ s => InUse devices before 4 extra held s.dev) (fun _ s => InUse devices before 4 extra held s.dev) := by
  induction l with
  | nil => exact Prog.Triple.pure fun _ here => here
  | cons dev rest ih =>
    have later := ih fun other mem => known other (List.mem_cons_of_mem dev mem)
    obtain ⟨bound, other⟩ := known dev List.mem_cons_self
    rw [initBridgeControllersEach]
    by_cases bridge : isBridgeController gen dev
    · simp only [if_pos bridge]
      have turn : Prog.Triple (fun s => InUse devices before 4 extra held s.dev)
          (deviceInitDriver dev (driverInit gen dev))
          (fun b s => InUse devices before 4 extra held s.dev ∧ (b = true → dev ∈ s.dev.live))
          (fun _ s => InUse devices before 4 extra held s.dev) :=
        deviceInitDriver_inUse (rank_lt dev.driver) fun L new => driverInit_enters one gen bound new (other bridge)
      exact turn.bind fun _ => later.conseq (fun _ here => here.1) (fun _ _ post => post) fun _ _ post => post
    · simp only [if_neg bridge]
      exact later

/-- What the proofs need of the devices of a device tree. -/
structure Shipped (gen : AstGeneration) (devices : List SocDev) : Prop where
  once : devices.Nodup
  one : OneScu devices
  bridge : ∀ dev ∈ devices, isBridgeController gen dev → dev.driver ≠ .jtag

theorem shipped (gen : AstGeneration) (fails : Nat → Option Errno) : Shipped gen (socProbeDevices gen fails) := by
  have part := socProbeDevices_sublist gen fails
  have bridge : ∀ dev ∈ socDevices gen, isBridgeController gen dev → dev.driver ≠ .jtag := by
    cases gen <;> decide
  refine ⟨part.nodup (socDevices_nodup gen), fun dev mem other mem' => ?_, fun dev mem => bridge dev (part.subset mem)⟩
  exact socDevices_scu gen dev (part.subset mem) other (part.subset mem')

/-- The reference that a command has taken. -/
theorem InUse.command {s : Soc} {rank : Nat} (inUse : InUse devices before rank (.command :: extra) held s) :
    InUse devices before rank extra (held + 1) s := by
  have moved : (.command :: extra ++ due held s.live).Perm (extra ++ due (held + 1) s.live) := by
    rw [due, due, List.replicate_succ]
    exact (List.perm_middle.symm.trans (List.perm_middle.symm.append_left extra) :)
  refine ⟨inUse.bound, inUse.once, inUse.known, inUse.owes.perm moved, inUse.wired, ?_, inUse.within⟩
  exact Or.inr (inUse.up.resolve_left (List.cons_ne_nil _ _))

theorem InUse.commandDrops {s : Faulty Soc} {rank : Nat}
    (inUse : InUse devices before rank extra (held + 1) s.dev) :
    ∃ s', (scuPut .command).run s = .ok () s' ∧ InUse devices before rank extra held s'.dev := by
  have moved : (extra ++ due (held + 1) s.dev.live).Perm (.command :: (extra ++ due held s.dev.live)) := by
    rw [due, due, List.replicate_succ]
    exact ((List.perm_middle.append_left extra).trans List.perm_middle :)
  obtain ⟨s', run, _, here⟩ := scuPut_run ((inUse.at s.fails).perm moved)
  have some : extra ++ due (held + 1) s.dev.live ≠ [] := by
    intro none
    rw [none] at moved
    exact List.cons_ne_nil _ _ moved.nil_eq.symm
  have up := inUse.up.resolve_left some
  have once := inUse.once
  have known := inUse.known
  have within := inUse.within
  have wired := inUse.wired
  rw [← here.alive] at up once known within wired
  rw [← here.linked] at wired
  have owes := here.owes
  rw [← here.alive] at owes
  exact ⟨s', run, here.bound, once, known, owes, wired, Or.inr up, within⟩

end Soc

/-- A JTAG master is initialised, as far as its reference on the SCU. -/
def Use.TakesForJtag (usage : Usage) : Use → Prop
  | .lookup target fails => Soc.LookupTakes target ⟨usage.soc, fails, 0⟩
  | _ => False

section
variable {gen : AstGeneration} {devices before : List SocDev} {extra : List Holder} {usage : Usage}
variable (shipped : Soc.Shipped gen devices) (use : Use) (inUse : Soc.InUse devices before 4 extra usage.held usage.soc)
include shipped inUse

theorem Use.run_takes (takes : use.TakesForJtag usage) :
    ∃ dev, Soc.InUse devices before 4 (.device dev :: extra) (use.run gen usage).held (use.run gen usage).soc := by
  cases use with
  | lookup target fails => exact Soc.getDrvdata_takes shipped.one gen target inUse takes
  | probe _ => exact takes.elim
  | scuGet _ => exact takes.elim
  | scuPut => exact takes.elim

theorem Use.run_spares (free : ¬ use.TakesForJtag usage) :
    Soc.InUse devices before 4 extra (use.run gen usage).held (use.run gen usage).soc := by
  cases use with
  | lookup target fails => exact Soc.getDrvdata_spares shipped.one gen target inUse free
  | probe fails =>
    have probed : Prog.Triple (fun s => Soc.InUse devices before 4 extra usage.held s.dev)
        (Soc.initBridgeControllersEach gen usage.soc.devices)
        (fun _ s => Soc.InUse devices before 4 extra usage.held s.dev)
        (fun _ s => Soc.InUse devices before 4 extra usage.held s.dev) :=
      Soc.initBridgeControllersEach_inUse shipped.one gen usage.soc.devices fun dev mem =>
        ⟨inUse.bound ▸ mem, shipped.bridge dev (inUse.bound ▸ mem)⟩
    exact probed.state (s := ⟨usage.soc, fails, 0⟩) inUse
  | scuGet fails =>
    obtain ⟨b, s', run, _⟩ := Soc.scuGet_run ⟨usage.soc, fails, 0⟩ .command
    have got := (Soc.scuGet_inUse shipped.one (by decide) .command ⟨usage.soc, fails, 0⟩ inUse).1 b s' run
    rw [Use.run, run]
    cases b with
    | true => exact Soc.InUse.command got
    | false => exact got
  | scuPut =>
    rw [Use.run]
    by_cases none : usage.held = 0
    · rw [if_pos none]
      exact inUse
    · obtain ⟨held, more⟩ := Nat.exists_eq_succ_of_ne_zero none
      rw [more] at inUse
      obtain ⟨s', run, here⟩ := Soc.InUse.commandDrops (s := ⟨usage.soc, fun _ => Option.none, 0⟩) inUse
      rw [if_neg none, run, more]
      exact here

end

end Culvert
