import Culvert.Cmd.ViaCommands
import Culvert.Rev
import Culvert.Soc.Controllers

namespace Culvert
open Prog SocEnv

/-- What the parts around the SoC give to `do_probe`: the results of `host_init`, `host_get_ahb` and
`soc_align_fdt`, with `true` for a pointer that is not null. -/
structure ProbeHost where
  init : Except Errno Unit
  ahb : Bool
  align : Except Errno Unit

/-- A SoC whose drivers have not been initialised. -/
def socEnv {σ : Type} (soc : Faulty σ) (allocs : Nat → SocDevice → Bool) : SocEnv σ := ⟨soc, allocs, 0, [], [], []⟩

/-- The mode that the argument of `--require` asks for, where it is one of the two. -/
def requirementOf (arg : String) : BridgeMode := if arg = "integrity" then .restricted else .disabled

/-- `--require`, and the words behind it. -/
def probeLine (arg : String) (words : List String) : List ArgpItem :=
  .option 'r' (some arg) ["--require", arg] :: words.map .word

section
variable {σ : Type} (bus : Bus σ)

/-- The names that are printed. -/
def socListBridgeControllers (gen : AstGeneration) : Prog (SocEnv σ) (List String) := do
  socInitBridgeControllers bus gen
  return (← get).bridges.map bridgectlName

/-- `do_probe` with the SoC probed. The value is the exit status, here and below. -/
def probeControllers (gen : AstGeneration) (arguments : CmdArgs CmdProbeArgs) : Prog (SocEnv σ) Nat := do
  if arguments.own.listIfaces then
    let _ ← socListBridgeControllers bus gen
    return 0
  else
    match ← attempt (socProbeBridgeControllers bus gen arguments.connection.interface) with
    | .ok discovered => return if arguments.own.requirement ≤ discovered then 0 else 1
    | .error _ => return 1

/-- `do_probe` with its arguments. The error of `soc_probe` is what it exits with. -/
def probeHost (host : ProbeHost) (arguments : CmdArgs CmdProbeArgs) : Prog (SocEnv σ) Nat :=
  match host.init with
  | .error _ => return 1
  | .ok () =>
    if host.ahb then do
      match ← attempt (onSoc (socFromRev bus host.align)) with
      | .error e => return 256 - e.num
      | .ok rev =>
        match revGeneration rev with
        | some gen => probeControllers bus gen arguments
        | none => Prog.fail enotsup
    else return 1

/-- The whole command, on what follows its name. A failing `argp_error` exits with 64. -/
def doProbe (drivers : List BridgeDriver) (host : ProbeHost) (items : List ArgpItem) : Prog (SocEnv σ) Nat :=
  match cmdProbe.parse drivers items with
  | .error _ => return 64
  | .ok arguments => probeHost bus host arguments

/-- What a report reads. -/
def bridgectlReads (bridge : Bridgectl) : Prog (Faulty σ) BridgeMode := do
  let mode ← bridgectlStatus bus bridge
  bridgectlDetails bus bridge mode
  return mode

/-- Each of the controllers can be reported, one after the other, and each has at least the mode. -/
def ReportAtLeast (required : BridgeMode) : List Bridgectl → Faulty σ → Prop
  | [], _ => True
  | bridge :: rest, s => ∃ mode s', (bridgectlReads bus bridge).run s = .ok mode s' ∧ required ≤ mode ∧
    ReportAtLeast required rest s'

/-- The controllers that a name leaves. -/
def selected (name : Option String) (bridges : List Bridgectl) : List Bridgectl :=
  bridges.filter fun bridge => ¬ ∃ n ∈ name, n ≠ bridgectlName bridge

/-- The SoC is one of this generation. -/
def Probed (host : ProbeHost) (soc : Faulty σ) (gen : AstGeneration) (soc' : Faulty σ) : Prop :=
  ∃ rev, (socFromRev bus host.align).run soc = .ok rev soc' ∧ revGeneration rev = some gen

/-- Every device that is compatible with `bridge-controller` was inspected, and each of its bridges was found in a
mode that satisfies the requirement. -/
def Assured (required : BridgeMode) (gen : AstGeneration) (env : SocEnv σ) : Prop :=
  ∀ dev ∈ bridgeDevices gen, ∀ bridge ∈ bridgesOf gen dev, ∃ mode, (bridge, mode) ∈ env.reported ∧ required ≤ mode

/-- Everything up to the reports succeeds, but a driver does not initialise or the interface of the connection is
taken for the name of a controller, and the controllers that are left satisfy the requirement. -/
def Overlooks (host : ProbeHost) (required : BridgeMode) (interface : Option String) (soc : Faulty σ)
    (allocs : Nat → SocDevice → Bool) : Prop :=
  host.init = .ok () ∧ host.ahb = true ∧ ∃ gen soc' env, Probed bus host soc gen soc' ∧
    (socInitBridgeControllers bus gen).run (socEnv soc' allocs) = .ok () env ∧
    (interface ≠ none ∨ ∃ dev ∈ bridgeDevices gen, dev ∉ env.live) ∧
    ReportAtLeast bus required (selected interface env.bridges) env.soc

end

/-! The command line. -/

theorem cmdProbe_line {drivers : List BridgeDriver} {arg : String} {words : List String}
    {arguments : CmdArgs CmdProbeArgs} (parsed : cmdProbe.parse drivers (probeLine arg words) = .ok arguments) :
    arguments.own = ⟨false, requirementOf arg⟩ := by
  obtain ⟨own, option, rest⟩ := except_bind_ok_iff.mp parsed
  obtain ⟨own', switched, _, last⟩ := (ViaCommand.parseFrom_words 0 own connectionArgs).mp rest
  rw [ViaCommand.switches_passed fun _ _ _ => rfl] at switched
  cases switched
  rw [← Except.ok.inj last]
  simp only [cmdProbe] at option
  split at option
  · cases option
  · cases option
    rfl

/-! The controllers that initialise. -/

section
variable {σ : Type} {bus : Bus σ} {gen : AstGeneration}

/-- The controllers on the list are those of the devices with driver data, and nothing is reported yet. -/
def Registered (gen : AstGeneration) (env : SocEnv σ) : Prop :=
  (∀ bridge, bridge ∈ env.bridges ↔ ∃ dev ∈ env.live, bridge ∈ bridgesOf gen dev) ∧ env.reported = []

/-- A program that leaves the controllers registered, whatever it returns. -/
def KeepsRegistered {α : Type} (gen : AstGeneration) (m : Prog (SocEnv σ) α) : Prop :=
  Triple (Registered gen) m (fun _ => Registered gen) fun _ => Registered gen

namespace KeepsRegistered
variable {α β : Type} {m : Prog (SocEnv σ) α} {f : α → Prog (SocEnv σ) β}

theorem pure (a : α) : KeepsRegistered gen (pure a : Prog (SocEnv σ) α) := Triple.pure fun _ kept => kept

theorem fail (e : Errno) : KeepsRegistered gen (fail e : Prog (SocEnv σ) α) := Triple.fail fun _ kept => kept

theorem bind (first : KeepsRegistered gen m) (next : ∀ a, KeepsRegistered gen (f a)) :
    KeepsRegistered gen (m >>= f) :=
  Triple.bind first next

theorem ite {c : Prop} [Decidable c] {m' : Prog (SocEnv σ) α} (yes : KeepsRegistered gen m)
    (no : KeepsRegistered gen m') : KeepsRegistered gen (if c then m else m') :=
  Triple.ite yes no

theorem malloc (dev : SocDevice) : KeepsRegistered gen (malloc dev : Prog (SocEnv σ) Unit) := by
  intro env kept
  by_cases given : env.allocs env.nallocs dev = true
  · have run : (SocEnv.malloc dev).run env = .ok () { env with nallocs := env.nallocs + 1 } := if_pos given
    rw [run]
    exact ⟨fun _ _ same => by cases same; exact kept, fun _ _ never => by cases never⟩
  · have run : (SocEnv.malloc dev).run env = .error (.rc enomem) { env with nallocs := env.nallocs + 1 } :=
      if_neg given
    rw [run]
    exact ⟨fun _ _ never => (by cases never), fun _ _ same => by cases same; exact kept⟩

theorem onSoc (m : Prog (Faulty σ) α) : KeepsRegistered gen (onSoc m) := by
  refine fun env kept => ⟨fun a env' run => ?_, fun e env' run => ?_⟩
  · obtain ⟨soc', _, rfl⟩ := zoom_ok_iff.mp run
    exact kept
  · obtain ⟨soc', _, rfl⟩ := zoom_error_iff.mp run
    exact kept

/-- A device without bridges. -/
theorem setDrvdata {dev : SocDevice} (none : bridgesOf gen dev = []) :
    KeepsRegistered gen (setDrvdata dev : Prog (SocEnv σ) Unit) := by
  refine fun env kept => ⟨fun _ env' run => ?_, fun _ _ never => by cases never⟩
  cases run
  refine ⟨fun bridge => ?_, kept.2⟩
  rw [kept.1 bridge, List.exists_mem_cons_iff, none]
  simp

theorem get : KeepsRegistered gen (get : Prog (SocEnv σ) (SocEnv σ)) := by
  refine fun env kept => ⟨fun _ env' run => ?_, fun _ _ never => by cases never⟩
  cases run
  exact kept

theorem attempt (kept : KeepsRegistered gen m) : KeepsRegistered gen (attempt m) := by
  refine (Triple.attempt kept).conseq (fun _ pre => pre) (fun r env post => ?_) (fun _ _ post => post)
  cases r with
  | ok a => exact post
  | error e => exact post

theorem initDriver {dev : SocDevice} {init : Prog (SocEnv σ) Unit} (kept : KeepsRegistered gen init) :
    KeepsRegistered gen (initDriver dev init) :=
  get.bind fun _ => .ite (.pure true) (kept.attempt.bind fun _ => get.bind fun _ => .pure _)

end KeepsRegistered

theorem register_run (bridges : List Bridgectl) (env : SocEnv σ) :
    (bridges.forM register).run env = .ok () { env with bridges := bridges.reverse ++ env.bridges } := by
  induction bridges generalizing env with
  | nil => rfl
  | cons bridge rest ih =>
    have first : (register bridge).run env = .ok () { env with bridges := bridge :: env.bridges } := rfl
    show (register bridge >>= fun _ => rest.forM register).run env = _
    rw [run_bind_ok first, ih, List.reverse_cons, List.append_assoc, List.singleton_append]

theorem registerAll_registered (dev : SocDevice) :
    KeepsRegistered gen (registerAll gen dev : Prog (SocEnv σ) Unit) := by
  have run (env : SocEnv σ) : (registerAll gen dev).run env =
      .ok () { env with live := dev :: env.live, bridges := (bridgesOf gen dev).reverse ++ env.bridges } :=
    register_run _ { env with live := dev :: env.live }
  refine fun env kept => ⟨fun _ env' same => ?_, fun _ _ never => ?_⟩
  · rw [run] at same
    cases same
    refine ⟨fun bridge => ?_, kept.2⟩
    rw [List.mem_append, List.mem_reverse, kept.1 bridge, List.exists_mem_cons_iff]
  · rw [run] at never
    cases never

/-! Each of the drivers, with those it needs. -/

theorem scuGet_registered : KeepsRegistered gen (scuGet bus) :=
  .initDriver (.bind (.malloc _) fun _ => .bind (.onSoc _) fun _ =>
    .ite (.bind (.onSoc _) fun _ => .setDrvdata rfl) (.setDrvdata rfl))

theorem strapGet_registered : KeepsRegistered gen (strapGet bus) :=
  .initDriver (.bind (.malloc _) fun _ => .bind scuGet_registered fun _ => .ite (.setDrvdata rfl) (.fail _))

theorem sioctlGet_registered : KeepsRegistered gen (sioctlGet bus) :=
  .initDriver (.bind (.malloc _) fun _ => .bind strapGet_registered fun _ => .ite (.setDrvdata rfl) (.fail _))

theorem sdmcGet_registered : KeepsRegistered gen (sdmcGet : Prog (SocEnv σ) Bool) :=
  .initDriver (.bind (.malloc _) fun _ => .setDrvdata rfl)

theorem bridgesGet_registered : KeepsRegistered gen (bridgesGet : Prog (SocEnv σ) Bool) :=
  .initDriver (.bind (.malloc _) fun _ => .setDrvdata rfl)

theorem bridgesGetOn_registered : KeepsRegistered gen (bridgesGetOn gen : Prog (SocEnv σ) Bool) :=
  .ite bridgesGet_registered (.pure true)

theorem bridgeDriverInit_registered (dev : SocDevice) : KeepsRegistered gen (bridgeDriverInit bus gen dev) := by
  have debug (dev : SocDevice) : KeepsRegistered gen (debugctlDriverInit gen dev : Prog (SocEnv σ) Unit) :=
    .bind (.malloc dev) fun _ => .bind bridgesGet_registered fun _ => .ite (registerAll_registered dev) (.fail _)
  cases dev with
  | pcie =>
    exact .bind (.malloc _) fun _ => .bind sdmcGet_registered fun _ =>
      .ite (.bind bridgesGetOn_registered fun _ => .ite (registerAll_registered .pcie) (.pure ())) (.pure ())
  | ilpc =>
    exact .bind (.malloc _) fun _ => .bind sioctlGet_registered fun _ =>
      .ite (.bind bridgesGetOn_registered fun _ => .ite (registerAll_registered .ilpc) (.fail _)) (.pure ())
  | _ => exact debug _

theorem socInitBridgeControllers_registered : KeepsRegistered gen (socInitBridgeControllers bus gen) := by
  have each (devs : List SocDevice) : KeepsRegistered gen (socInitBridgeControllersEach bus gen devs) := by
    induction devs with
    | nil => exact .pure ()
    | cons dev rest ih => exact .bind (.initDriver (bridgeDriverInit_registered dev)) fun _ => ih
  exact each (bridgeDevices gen)

/-- The device that registers a controller. -/
def Bridgectl.device : Bridgectl → SocDevice
  | .p2a _ | .xdma _ => .pcie
  | .ilpc _ => .ilpc
  | .debug ctx => if ctx = ast2500Debugctl then .debug else if ctx = ast2600Uart1 then .uart1 else .uart5

theorem bridgesOf_device {dev : SocDevice} {bridge : Bridgectl} (mem : bridge ∈ bridgesOf gen dev) :
    bridge.device = dev := by
  cases dev with
  | pcie =>
    simp only [bridgesOf, List.mem_cons, List.not_mem_nil, or_false] at mem
    rcases mem with rfl | rfl
    · rfl
    · rfl
  | ilpc | debug | uart1 | uart5 =>
    obtain rfl := List.mem_singleton.mp mem
    rfl
  | _ => cases mem

/-- A device with bridges has one of them at least. -/
theorem bridgesOf_some {dev : SocDevice} (mem : dev ∈ bridgeDevices gen) : ∃ bridge, bridge ∈ bridgesOf gen dev := by
  cases dev with
  | pcie => exact ⟨_, List.mem_cons_self⟩
  | ilpc | debug | uart1 | uart5 => exact ⟨_, List.mem_singleton_self _⟩
  | _ => cases gen <;> simp [bridgeDevices] at mem

/-! The reports. -/

variable {required mode aggregate aggregate' : BridgeMode} {name : Option String} {bridges : List Bridgectl}
variable {bridge : Bridgectl} {error : Option Errno} {env env' : SocEnv σ}

theorem bridgectlReport_ok_iff : (bridgectlReport bus bridge).run env = .ok mode env' ↔
    ∃ soc', (bridgectlReads bus bridge).run env.soc = .ok mode soc' ∧
      env' = { env with soc := soc', reported := (bridge, mode) :: env.reported } := by
  constructor
  · intro run
    obtain ⟨_, _, first, run⟩ := bind_ok_iff.mp run
    obtain ⟨soc₁, status, rfl⟩ := zoom_ok_iff.mp first
    obtain ⟨_, _, logged, run⟩ := bind_ok_iff.mp run
    cases logged
    obtain ⟨_, _, second, run⟩ := bind_ok_iff.mp run
    obtain ⟨soc₂, details, rfl⟩ := zoom_ok_iff.mp second
    cases run
    exact ⟨soc₂, bind_ok_iff.mpr ⟨_, soc₁, status, bind_ok_iff.mpr ⟨(), soc₂, details, rfl⟩⟩, rfl⟩
  · rintro ⟨soc₂, reads, rfl⟩
    obtain ⟨_, soc₁, status, reads⟩ := bind_ok_iff.mp reads
    obtain ⟨_, _, details, last⟩ := bind_ok_iff.mp reads
    cases last
    refine bind_ok_iff.mpr ⟨mode, _, zoom_ok_iff.mpr ⟨soc₁, status, rfl⟩, bind_ok_iff.mpr ⟨(), _, rfl, ?_⟩⟩
    exact bind_ok_iff.mpr ⟨(), _, zoom_ok_iff.mpr ⟨soc₂, details, rfl⟩, rfl⟩

theorem required_le_aggregate : required ≤ (if mode < aggregate then mode else aggregate) ↔
    required ≤ mode ∧ required ≤ aggregate := by
  split
  case isTrue lower => exact ⟨fun le => ⟨le, le.trans lower.le⟩, And.left⟩
  case isFalse higher => exact ⟨fun le => ⟨le.trans (not_lt.mp higher), le⟩, And.right⟩

/-- A verdict that satisfies the requirement comes from reports of every controller that is left. -/
theorem socProbeEach_sound
    (run : (socProbeEach bus name bridges (aggregate, error)).run env = .ok (aggregate', none) env')
    (met : required ≤ aggregate') : error = none ∧ required ≤ aggregate ∧
      ReportAtLeast bus required (selected name bridges) env.soc ∧ (∀ p ∈ env.reported, p ∈ env'.reported) ∧
      ∀ bridge ∈ selected name bridges, ∃ mode, (bridge, mode) ∈ env'.reported ∧ required ≤ mode := by
  induction bridges generalizing aggregate error env with
  | nil =>
    cases run
    exact ⟨rfl, met, trivial, fun _ mem => mem, fun _ never => by cases never⟩
  | cons bridge rest ih =>
    by_cases skipped : ∃ n ∈ name, n ≠ bridgectlName bridge
    · rw [socProbeEach, if_pos skipped] at run
      rw [selected, List.filter_cons_of_neg (by simpa using skipped)]
      exact ih run
    · rw [socProbeEach, if_neg skipped] at run
      rw [selected, List.filter_cons_of_pos (by simpa using skipped)]
      obtain ⟨outcome, env₁, first, run⟩ := bind_ok_iff.mp run
      cases outcome with
      | error e => exact absurd (ih run).1 (by simp)
      | ok mode =>
        obtain ⟨soc', reads, rfl⟩ := bridgectlReport_ok_iff.mp (attempt_ok_iff.mp first)
        obtain ⟨clean, le, reports, kept, each⟩ := ih run
        obtain ⟨le, le'⟩ := required_le_aggregate.mp le
        refine ⟨clean, le', ⟨mode, soc', reads, le, reports⟩, fun p mem => kept p (List.mem_cons_of_mem _ mem), ?_⟩
        intro bridge' mem
        rcases List.mem_cons.mp mem with rfl | mem
        · exact ⟨mode, kept _ List.mem_cons_self, le⟩
        · exact each bridge' mem

/-- Where every controller that is left satisfies the requirement, the verdict does, and nothing else is
reported. -/
theorem socProbeEach_complete (reports : ReportAtLeast bus required (selected name bridges) env.soc)
    (start : required ≤ aggregate) : ∃ aggregate' env',
      (socProbeEach bus name bridges (aggregate, none)).run env = .ok (aggregate', none) env' ∧
      required ≤ aggregate' ∧ ∀ p ∈ env'.reported, p ∈ env.reported ∨ p.1 ∈ selected name bridges := by
  induction bridges generalizing aggregate env with
  | nil => exact ⟨aggregate, env, rfl, start, fun _ mem => Or.inl mem⟩
  | cons bridge rest ih =>
    by_cases skipped : ∃ n ∈ name, n ≠ bridgectlName bridge
    · rw [selected, List.filter_cons_of_neg (by simpa using skipped)] at reports ⊢
      rw [socProbeEach, if_pos skipped]
      exact ih reports start
    · rw [selected, List.filter_cons_of_pos (by simpa using skipped)] at reports ⊢
      obtain ⟨mode, soc', reads, le, reports⟩ := reports
      rw [socProbeEach, if_neg skipped, run_bind_ok (attempt_ok (bridgectlReport_ok_iff.mpr ⟨soc', reads, rfl⟩))]
      obtain ⟨aggregate', env', run, met, only⟩ := @ih _
        { env with soc := soc', reported := (bridge, mode) :: env.reported } reports
        (required_le_aggregate.mpr ⟨le, start⟩)
      refine ⟨aggregate', env', run, met, fun p mem => ?_⟩
      rcases only p mem with before | after
      · rcases List.mem_cons.mp before with rfl | before
        · exact Or.inr List.mem_cons_self
        · exact Or.inl before
      · exact Or.inr (List.mem_cons_of_mem _ after)

/-! The exit status. -/

variable {drivers : List BridgeDriver} {host : ProbeHost} {arguments : CmdArgs CmdProbeArgs}
variable {soc : Faulty σ} {allocs : Nat → SocDevice → Bool}

theorem socProbeBridgeControllers_ok_iff :
    (socProbeBridgeControllers bus gen name).run env = .ok aggregate env' ↔ ∃ env₁,
      (socInitBridgeControllers bus gen).run env = .ok () env₁ ∧
      (socProbeEach bus name env₁.bridges (.disabled, none)).run env₁ = .ok (aggregate, none) env' := by
  constructor
  · intro run
    obtain ⟨_, env₁, init, run⟩ := bind_ok_iff.mp run
    obtain ⟨_, _, same, run⟩ := bind_ok_iff.mp run
    cases same
    obtain ⟨⟨_, error⟩, _, each, last⟩ := bind_ok_iff.mp run
    cases error with
    | some e => cases last
    | none =>
      cases last
      exact ⟨env₁, init, each⟩
  · rintro ⟨env₁, init, each⟩
    exact bind_ok_iff.mpr ⟨(), env₁, init, bind_ok_iff.mpr ⟨env₁, env₁, rfl,
      bind_ok_iff.mpr ⟨(aggregate, none), env', each, rfl⟩⟩⟩

theorem probeControllers_zero_iff (own : arguments.own = ⟨false, required⟩) :
    (probeControllers bus gen arguments).run env = .ok 0 env' ↔ ∃ aggregate,
      (socProbeBridgeControllers bus gen arguments.connection.interface).run env = .ok aggregate env' ∧
      required ≤ aggregate := by
  rw [probeControllers, own, if_neg Bool.false_ne_true]
  constructor
  · intro run
    obtain ⟨outcome, env₂, probed, last⟩ := bind_ok_iff.mp run
    cases outcome with
    | error e => cases last
    | ok aggregate =>
      have last : (pure (if required ≤ aggregate then 0 else 1) : Prog (SocEnv σ) Nat).run env₂ = .ok 0 env' := last
      by_cases met : required ≤ aggregate
      · rw [if_pos met] at last
        cases last
        exact ⟨aggregate, attempt_ok_iff.mp probed, met⟩
      · rw [if_neg met] at last
        cases last
  · rintro ⟨aggregate, probed, met⟩
    rw [run_bind_ok (attempt_ok probed)]
    show (pure (if required ≤ aggregate then 0 else 1) : Prog (SocEnv σ) Nat).run env' = _
    rw [if_pos met]
    rfl

theorem probeHost_zero_iff : (probeHost bus host arguments).run (socEnv soc allocs) = .ok 0 env' ↔
    host.init = .ok () ∧ host.ahb = true ∧ ∃ gen soc', Probed bus host soc gen soc' ∧
      (probeControllers bus gen arguments).run (socEnv soc' allocs) = .ok 0 env' := by
  rw [probeHost]
  cases host.init with
  | error e => simp
  | ok _ =>
    cases host.ahb with
    | false => simp
    | true =>
      rw [if_pos rfl]
      constructor
      · intro run
        obtain ⟨outcome, _, first, run⟩ := bind_ok_iff.mp run
        cases outcome with
        | error e =>
          have small := e.bound
          have status : (pure (256 - e.num) : Prog (SocEnv σ) Nat).run _ = .ok 0 env' := run
          have zero : 256 - e.num = 0 := by
            injection status
          omega
        | ok rev =>
          obtain ⟨soc', reads, rfl⟩ := zoom_ok_iff.mp (attempt_ok_iff.mp first)
          cases found : revGeneration rev with
          | none =>
            simp only [found] at run
            cases run
          | some gen =>
            simp only [found] at run
            exact ⟨rfl, rfl, gen, soc', ⟨rev, reads, found⟩, run⟩
      · rintro ⟨_, _, gen, soc', ⟨rev, reads, found⟩, run⟩
        have first : (onSoc (socFromRev bus host.align)).run (socEnv soc allocs) = .ok rev (socEnv soc' allocs) :=
          zoom_ok_iff.mpr ⟨soc', reads, rfl⟩
        rw [run_bind_ok (attempt_ok first)]
        simp only [found]
        exact run

/-- How the command can exit with success. -/
theorem doProbe_zero_iff {arg : String} {words : List String} :
    (doProbe bus drivers host (probeLine arg words)).run (socEnv soc allocs) = .ok 0 env' ↔
      ∃ arguments, cmdProbe.parse drivers (probeLine arg words) = .ok arguments ∧
        host.init = .ok () ∧ host.ahb = true ∧ ∃ gen soc' aggregate, Probed bus host soc gen soc' ∧
          (socProbeBridgeControllers bus gen arguments.connection.interface).run (socEnv soc' allocs) =
            .ok aggregate env' ∧ requirementOf arg ≤ aggregate := by
  rw [doProbe]
  cases parsed : cmdProbe.parse drivers (probeLine arg words) with
  | error e => simp
  | ok arguments =>
    have each (gen : AstGeneration) (soc' : Faulty σ) :
        (probeControllers bus gen arguments).run (socEnv soc' allocs) = .ok 0 env' ↔ ∃ aggregate,
          (socProbeBridgeControllers bus gen arguments.connection.interface).run (socEnv soc' allocs) =
            .ok aggregate env' ∧ requirementOf arg ≤ aggregate := probeControllers_zero_iff (cmdProbe_line parsed)
    constructor
    · intro run
      obtain ⟨init, ahb, gen, soc', probed, run⟩ := probeHost_zero_iff.mp run
      obtain ⟨aggregate, run, met⟩ := (each gen soc').mp run
      exact ⟨arguments, rfl, init, ahb, gen, soc', aggregate, probed, run, met⟩
    · rintro ⟨_, same, init, ahb, gen, soc', aggregate, probed, run, met⟩
      cases same
      exact probeHost_zero_iff.mpr ⟨init, ahb, gen, soc', probed, (each gen soc').mpr ⟨aggregate, run, met⟩⟩

theorem Probed.unique {gen' : AstGeneration} {soc' soc'' : Faulty σ} (first : Probed bus host soc gen soc')
    (second : Probed bus host soc gen' soc'') : gen = gen' ∧ soc' = soc'' := by
  obtain ⟨rev, run, found⟩ := first
  obtain ⟨rev', run', found'⟩ := second
  rw [run] at run'
  cases run'
  rw [found] at found'
  cases found'
  exact ⟨rfl, rfl⟩

/-- A SoC without an initialised driver, as the command finds it, has no controllers. -/
theorem socEnv_registered : Registered gen (socEnv soc allocs) :=
  ⟨fun _ => ⟨fun never => (by cases never), fun ⟨_, never, _⟩ => by cases never⟩, rfl⟩

/-- Every device has driver data and no name is given: nothing is left out. -/
theorem assured_of_complete {env₁ : SocEnv σ} (registered : Registered gen env₁)
    (live : ∀ dev ∈ bridgeDevices gen, dev ∈ env₁.live)
    (each : ∀ bridge ∈ selected none env₁.bridges, ∃ mode, (bridge, mode) ∈ env'.reported ∧ required ≤ mode) :
    Assured required gen env' := by
  intro dev mem bridge of
  have there : bridge ∈ env₁.bridges := (registered.1 bridge).mpr ⟨dev, live dev mem, of⟩
  exact each bridge (List.mem_filter.mpr ⟨there, by simp⟩)

theorem mem_selected_some {n : String} :
    bridge ∈ selected (some n) bridges ↔ bridge ∈ bridges ∧ n = bridgectlName bridge := by
  simp [selected]

/-- A controller that is left out is not reported. -/
theorem not_assured_of_left_out {env₁ : SocEnv σ} (registered : Registered gen env₁)
    (out : name ≠ none ∨ ∃ dev ∈ bridgeDevices gen, dev ∉ env₁.live)
    (only : ∀ p ∈ env'.reported, p ∈ env₁.reported ∨ p.1 ∈ selected name env₁.bridges) :
    ¬ Assured required gen env' := by
  intro assured
  have inside {dev : SocDevice} {bridge : Bridgectl} (mem : dev ∈ bridgeDevices gen)
      (of : bridge ∈ bridgesOf gen dev) : bridge ∈ selected name env₁.bridges := by
    obtain ⟨mode, reported, _⟩ := assured dev mem bridge of
    rcases only _ reported with before | here
    · rw [registered.2] at before
      cases before
    · exact here
  rcases out with named | ⟨dev, mem, dead⟩
  · obtain ⟨n, rfl⟩ := Option.ne_none_iff_exists'.mp named
    have pcie : SocDevice.pcie ∈ bridgeDevices gen := by cases gen <;> decide
    have p2a : Bridgectl.p2a (pciectl gen) ∈ selected (some n) env₁.bridges := inside pcie (by simp [bridgesOf])
    have xdma : Bridgectl.xdma (pciectl gen) ∈ selected (some n) env₁.bridges := inside pcie (by simp [bridgesOf])
    -- No name is that of both controllers.
    have same : "p2a" = "xdma" := (mem_selected_some.mp p2a).2.symm.trans (mem_selected_some.mp xdma).2
    exact absurd same (by decide)
  · obtain ⟨bridge, of⟩ := bridgesOf_some mem
    obtain ⟨dev', live, of'⟩ := (registered.1 bridge).mp (List.mem_filter.mp (inside mem of)).1
    rw [← bridgesOf_device of, bridgesOf_device of'] at dead
    exact dead live

end

/-- `do_probe` exits with success on a SoC that was not looked at in full exactly where `Overlooks` says so. -/
theorem doProbe_assures_iff {σ : Type} (bus : Bus σ) (drivers : List BridgeDriver) (host : ProbeHost) (arg : String)
    (words : List String) (soc : Faulty σ) (allocs : Nat → SocDevice → Bool) :
    (∀ env, (doProbe bus drivers host (probeLine arg words)).run (socEnv soc allocs) = .ok 0 env →
      ∃ gen soc', Probed bus host soc gen soc' ∧ Assured (requirementOf arg) gen env) ↔
    ¬ ∃ arguments, cmdProbe.parse drivers (probeLine arg words) = .ok arguments ∧
      Overlooks bus host (requirementOf arg) arguments.connection.interface soc allocs := by
  constructor
  · rintro assures ⟨arguments, parsed, init, ahb, gen, soc', env₁, probed, run, out, reports⟩
    have registered : Registered gen env₁ :=
      (socInitBridgeControllers_registered _ socEnv_registered).1 () env₁ run
    obtain ⟨aggregate, env', each, met, only⟩ := socProbeEach_complete reports (BridgeMode.le_disabled _)
    obtain ⟨gen', soc'', probed', assured⟩ := assures env' (doProbe_zero_iff.mpr ⟨arguments, parsed, init, ahb, gen,
      soc', aggregate, probed, socProbeBridgeControllers_ok_iff.mpr ⟨env₁, run, each⟩, met⟩)
    obtain ⟨rfl, rfl⟩ := probed.unique probed'
    exact not_assured_of_left_out registered out only assured
  · intro whole env' run
    obtain ⟨arguments, parsed, init, ahb, gen, soc', aggregate, probed, run, met⟩ := doProbe_zero_iff.mp run
    obtain ⟨env₁, run, each⟩ := socProbeBridgeControllers_ok_iff.mp run
    have registered : Registered gen env₁ :=
      (socInitBridgeControllers_registered _ socEnv_registered).1 () env₁ run
    obtain ⟨_, _, reports, _, found⟩ := socProbeEach_sound each met
    have complete : ¬ (arguments.connection.interface ≠ none ∨ ∃ dev ∈ bridgeDevices gen, dev ∉ env₁.live) :=
      fun out => whole ⟨arguments, parsed, init, ahb, gen, soc', env₁, probed, run, out, reports⟩
    obtain ⟨unnamed, live⟩ := not_or.mp complete
    rw [not_not.mp unnamed] at found
    refine ⟨gen, soc', probed, assured_of_complete registered (fun dev mem => ?_) found⟩
    exact not_not.mp fun dead => live ⟨dev, mem, dead⟩

/-- An AST2500 with every register clear but the revision. Its iLPC and its debug UART are open. -/
def openSoc : Faulty Regs := ⟨Function.update (fun _ => 0) 0x1e6e207c 0x04030303, fun _ => none, 0⟩

/-- `probe --require confidentiality via debug-uart /dev/ttyUSB0` inspects nothing, and exits with success. -/
theorem doProbe_overlooks : ¬ ∀ env, (doProbe regBus (bridgeDrivers fun _ => false) ⟨.ok (), true, .ok ()⟩
      (probeLine "confidentiality" ["via", "debug-uart", "/dev/ttyUSB0"])).run (socEnv openSoc fun _ _ => true) =
        .ok 0 env →
    ∃ gen soc', Probed regBus ⟨.ok (), true, .ok ()⟩ openSoc gen soc' ∧ Assured (requirementOf "confidentiality") gen env := by
  intro assures
  have outcome : (match (doProbe regBus (bridgeDrivers fun _ => false) ⟨.ok (), true, .ok ()⟩
      (probeLine "confidentiality" ["via", "debug-uart", "/dev/ttyUSB0"])).run (socEnv openSoc fun _ _ => true) with
      | .ok status env => decide (status = 0 ∧ env.reported = [])
      | .error _ _ => false) = true := by decide +kernel
  cases run : (doProbe regBus (bridgeDrivers fun _ => false) ⟨.ok (), true, .ok ()⟩
      (probeLine "confidentiality" ["via", "debug-uart", "/dev/ttyUSB0"])).run (socEnv openSoc fun _ _ => true) with
  | error e env =>
    rw [run] at outcome
    cases outcome
  | ok status env =>
    rw [run] at outcome
    obtain ⟨rfl, nothing⟩ := of_decide_eq_true outcome
    obtain ⟨gen, _, _, assured⟩ := assures env run
    have pcie : SocDevice.pcie ∈ bridgeDevices gen := by cases gen <;> decide
    obtain ⟨mode, reported, _⟩ := assured .pcie pcie (.p2a (pciectl gen)) List.mem_cons_self
    rw [nothing] at reported
    cases reported

end Culvert
