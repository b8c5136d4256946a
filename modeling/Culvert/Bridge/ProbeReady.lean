import Culvert.Bridge.Probing

namespace Culvert

namespace Probing
variable {κ σ α : Type} {env : HostEnv σ}

theorem onBus_ok_iff {m : Prog σ α} {p p' : Probing κ σ} {a : α} : (onBus m).run p = .ok a p' ↔
    ∃ bus, m.run p.bus = .ok a bus ∧ p' = { p with bus := bus } := Prog.zoom_ok_iff

/-- Whether or not the bus fails, the context keeps what it has. -/
theorem onBus_attempt {m : Prog σ α} {p p' : Probing κ σ} {r : Except Errno α}
    (run : (Prog.attempt (onBus m)).run p = .ok r p') : ∃ bus, p' = { p with bus := bus } := by
  cases r with
  | ok a =>
    obtain ⟨bus, _, rfl⟩ := onBus_ok_iff.mp (Prog.attempt_ok_iff.mp run)
    exact ⟨bus, rfl⟩
  | error e =>
    obtain ⟨bus, _, rfl⟩ := Prog.zoom_error_iff.mp (Prog.attempt_error_iff.mp run)
    exact ⟨bus, rfl⟩

theorem setCtx_ok_iff {f : κ → κ} {p p' : Probing κ σ} {u : Unit} : (setCtx f).run p = .ok u p' ↔
    p' = { p with ctx := f p.ctx } := by
  constructor
  · intro run
    cases run
    rfl
  · rintro rfl
    rfl

theorem acquire_ok_iff {res : HostResource} {outcome : Except Errno Unit} {p p' : Probing κ σ} {u : Unit} :
    (acquire res outcome).run p = .ok u p' ↔ outcome = .ok () ∧ p' = { p with held := res :: p.held } := by
  cases outcome with
  | ok _ =>
    constructor
    · intro run
      cases run
      exact ⟨rfl, rfl⟩
    · rintro ⟨_, rfl⟩
      rfl
  | error e =>
    constructor
    · intro run
      cases run
    · rintro ⟨never, _⟩
      cases never

theorem revProbe_ok_iff {readl : Word → Prog σ Word} {p p' : Probing κ σ} {u : Unit} :
    (revProbe readl).run p = .ok u p' ↔ ∃ rev bus, (revProbeThrough readl).run p.bus = .ok rev bus ∧
      p' = { p with bus := bus, revs := rev :: p.revs } := by
  constructor
  · intro run
    obtain ⟨rev, p₁, head, last⟩ := Prog.bind_ok_iff.mp run
    obtain ⟨bus, found, rfl⟩ := onBus_ok_iff.mp head
    cases last
    exact ⟨rev, bus, found, rfl⟩
  · rintro ⟨rev, bus, found, rfl⟩
    exact Prog.bind_ok_iff.mpr ⟨rev, _, onBus_ok_iff.mpr ⟨bus, found, rfl⟩, rfl⟩

theorem orCleanup_true_iff {m cleanup : Prog (Probing κ σ) Unit} {next : Prog (Probing κ σ) Bool}
    {p p' : Probing κ σ} : (orCleanup m cleanup next).run p = .ok true p' ↔
      ∃ p₁, m.run p = .ok () p₁ ∧ next.run p₁ = .ok true p' := by
  constructor
  · intro run
    obtain ⟨r, p₁, first, last⟩ := Prog.bind_ok_iff.mp run
    cases r with
    | ok _ => exact ⟨p₁, Prog.attempt_ok_iff.mp first, last⟩
    | error e =>
      obtain ⟨_, _, _, never⟩ := Prog.bind_ok_iff.mp last
      cases never
  · rintro ⟨p₁, first, last⟩
    exact Prog.bind_ok_iff.mpr ⟨.ok (), p₁, Prog.attempt_ok first, last⟩

/-- A driver's probe that allocates its context first. -/
theorem allocated_true_iff {c : Bool} {m : Prog (Probing κ σ) Bool} {p p' : Probing κ σ} :
    (if c then m else pure false).run p = .ok true p' ↔ c = true ∧ m.run p = .ok true p' := by
  cases c with
  | true => simp
  | false =>
    constructor
    · intro run
      cases run
    · rintro ⟨never, _⟩
      cases never

end Probing

/-- The SuperIO reads back wrong at both of its address ports. -/
def SioAbsent {σ : Type} (io : Lpc σ) (bus : σ) : Prop := ∃ base bus', (sioProbe io).run bus = .ok (false, base) bus'

/-- The SuperIO is found, and a supported revision is read through it. -/
def RevFound {σ : Type} (io : Lpc σ) (bus : σ) : Prop := ∃ base bus₁ rev bus₂,
  (sioProbe io).run bus = .ok (true, base) bus₁ ∧ (revProbeThrough (ilpcbReadl ⟨io, base⟩)).run bus₁ = .ok rev bus₂

/-- There is no SuperIO, and yet HICR7 and HICR8 are read through one. -/
def HicrRead {σ : Type} (io : Lpc σ) (bus : σ) : Prop := ∃ base bus₁ hicr7 bus₂ hicr8 bus₃,
  (sioProbe io).run bus = .ok (false, base) bus₁ ∧ (ilpcbReadl ⟨io, base⟩ 0x1e789088).run bus₁ = .ok hicr7 bus₂ ∧
    (ilpcbReadl ⟨io, base⟩ 0x1e78908c).run bus₂ = .ok hicr8 bus₃

namespace Probing
variable {σ : Type} {env : HostEnv σ}

theorem ilpcbInit_ok_iff {p p' : Probing IlpcbMem σ} {u : Unit} : (ilpcbInit env).run p = .ok u p' ↔
    env.lpcInitIo = .ok () ∧ p' = ⟨⟨ahbInitOps .ilpc, 0x2e⟩, .lpcIo :: p.held, p.revs, p.bus⟩ := by
  constructor
  · intro run
    obtain ⟨_, p₁, first, last⟩ := Prog.bind_ok_iff.mp run
    obtain rfl := setCtx_ok_iff.mp first
    exact acquire_ok_iff.mp last
  · intro opened
    exact Prog.bind_ok_iff.mpr ⟨(), _, setCtx_ok_iff.mpr rfl, acquire_ok_iff.mpr opened⟩

/-- With a SuperIO `ilpcb_probe` returns 1 only after a supported revision, without one it returns 0. -/
theorem ilpcbProbe_ok_iff {p p' : Probing IlpcbMem σ} {rc : Nat} : (ilpcbProbe env).run p = .ok rc p' ↔
    (∃ base bus, (sioProbe env.io).run p.bus = .ok (false, base) bus ∧ rc = 0 ∧
      p' = ⟨⟨p.ctx.ahb, base⟩, p.held, p.revs, bus⟩) ∨
    ∃ base bus₁ rev bus₂, (sioProbe env.io).run p.bus = .ok (true, base) bus₁ ∧
      (revProbeThrough (ilpcbReadl ⟨env.io, base⟩)).run bus₁ = .ok rev bus₂ ∧ rc = 1 ∧
      p' = ⟨⟨p.ctx.ahb, base⟩, p.held, rev :: p.revs, bus₂⟩ := by
  constructor
  · intro run
    obtain ⟨⟨found, base⟩, p₁, head, run⟩ := Prog.bind_ok_iff.mp run
    obtain ⟨bus₁, first, rfl⟩ := onBus_ok_iff.mp head
    obtain ⟨_, p₂, second, run⟩ := Prog.bind_ok_iff.mp run
    obtain rfl := setCtx_ok_iff.mp second
    cases found with
    | false =>
      cases run
      exact Or.inl ⟨base, bus₁, first, rfl, rfl⟩
    | true =>
      obtain ⟨_, p₃, rest, last⟩ := Prog.bind_ok_iff.mp run
      obtain ⟨rev, bus₂, third, rfl⟩ := revProbe_ok_iff.mp rest
      cases last
      exact Or.inr ⟨base, bus₁, rev, bus₂, first, third, rfl, rfl⟩
  · intro outcome
    rcases outcome with ⟨base, bus, first, rfl, rfl⟩ | ⟨base, bus₁, rev, bus₂, first, second, rfl, rfl⟩
    · refine Prog.bind_ok_iff.mpr ⟨(false, base), _, onBus_ok_iff.mpr ⟨bus, first, rfl⟩, ?_⟩
      exact Prog.bind_ok_iff.mpr ⟨(), _, setCtx_ok_iff.mpr rfl, rfl⟩
    · refine Prog.bind_ok_iff.mpr ⟨(true, base), _, onBus_ok_iff.mpr ⟨bus₁, first, rfl⟩, ?_⟩
      refine Prog.bind_ok_iff.mpr ⟨(), _, setCtx_ok_iff.mpr rfl, ?_⟩
      exact Prog.bind_ok_iff.mpr ⟨(), _, revProbe_ok_iff.mpr ⟨rev, bus₂, second, rfl⟩, rfl⟩

theorem onIlpcb_ok_iff {α : Type} {m : Prog (Probing IlpcbMem σ) α} {p p' : Probing L2abMem σ} {a : α} :
    (onIlpcb m).run p = .ok a p' ↔ ∃ q, m.run ⟨p.ctx.ilpcb, p.held, p.revs, p.bus⟩ = .ok a q ∧
      p' = ⟨{ p.ctx with ilpcb := q.ctx }, q.held, q.revs, q.bus⟩ := Prog.zoom_ok_iff

theorem ilpcbDriverProbe_true_iff {p p' : Probing IlpcbMem σ} : (ilpcbDriverProbe env).run p = .ok true p' ↔
    env.malloc = true ∧ env.lpcInitIo = .ok () ∧
      ∃ rc, (ilpcbProbe env).run ⟨⟨ahbInitOps .ilpc, 0x2e⟩, .lpcIo :: p.held, p.revs, p.bus⟩ = .ok rc p' := by
  rw [ilpcbDriverProbe, allocated_true_iff, orCleanup_true_iff]
  constructor
  · rintro ⟨allocated, p₁, init, run⟩
    obtain ⟨opened, rfl⟩ := ilpcbInit_ok_iff.mp init
    obtain ⟨p₂, probe, last⟩ := orCleanup_true_iff.mp run
    obtain ⟨rc, p₃, probe, last'⟩ := Prog.bind_ok_iff.mp probe
    cases last'
    cases last
    exact ⟨allocated, opened, rc, probe⟩
  · rintro ⟨allocated, opened, rc, probe⟩
    refine ⟨allocated, _, ilpcbInit_ok_iff.mpr ⟨opened, rfl⟩, orCleanup_true_iff.mpr ⟨p', ?_, rfl⟩⟩
    exact Prog.bind_ok_iff.mpr ⟨rc, p', probe, rfl⟩

theorem l2abSaveHicr78_ok_iff {p p' : Probing L2abMem σ} {u : Unit} : (l2abSaveHicr78 env).run p = .ok u p' ↔
    ∃ hicr7 bus₁ hicr8 bus₂, (ilpcbReadl ⟨env.io, p.ctx.ilpcb.base⟩ 0x1e789088).run p.bus = .ok hicr7 bus₁ ∧
      (ilpcbReadl ⟨env.io, p.ctx.ilpcb.base⟩ 0x1e78908c).run bus₁ = .ok hicr8 bus₂ ∧
      p' = ⟨⟨p.ctx.ahb, p.ctx.ilpcb, hicr7, hicr8⟩, p.held, p.revs, bus₂⟩ := by
  constructor
  · intro run
    obtain ⟨_, _, start, run⟩ := Prog.bind_ok_iff.mp run
    cases start
    obtain ⟨hicr7, p₁, head, run⟩ := Prog.bind_ok_iff.mp run
    obtain ⟨bus₁, first, rfl⟩ := onBus_ok_iff.mp head
    obtain ⟨_, p₂, saved, run⟩ := Prog.bind_ok_iff.mp run
    obtain rfl := setCtx_ok_iff.mp saved
    obtain ⟨hicr8, p₃, head, last⟩ := Prog.bind_ok_iff.mp run
    obtain ⟨bus₂, second, rfl⟩ := onBus_ok_iff.mp head
    obtain rfl := setCtx_ok_iff.mp last
    exact ⟨hicr7, bus₁, hicr8, bus₂, first, second, rfl⟩
  · rintro ⟨hicr7, bus₁, hicr8, bus₂, first, second, rfl⟩
    refine Prog.bind_ok_iff.mpr ⟨p, p, rfl, ?_⟩
    refine Prog.bind_ok_iff.mpr ⟨hicr7, _, onBus_ok_iff.mpr ⟨bus₁, first, rfl⟩, ?_⟩
    refine Prog.bind_ok_iff.mpr ⟨(), _, setCtx_ok_iff.mpr rfl, ?_⟩
    exact Prog.bind_ok_iff.mpr ⟨hicr8, _, onBus_ok_iff.mpr ⟨bus₂, second, rfl⟩, setCtx_ok_iff.mpr rfl⟩

/-- `l2ab_init` takes the 1 of `ilpcb_probe` for a failure, so that it only gets by where there is no
SuperIO. -/
theorem l2abAttach_ok_iff {p p' : Probing L2abMem σ} {rc : Nat} : (l2abAttach env).run p = .ok rc p' ↔
    (∃ base bus₁ hicr7 bus₂ hicr8 bus₃, (sioProbe env.io).run p.bus = .ok (false, base) bus₁ ∧
      (ilpcbReadl ⟨env.io, base⟩ 0x1e789088).run bus₁ = .ok hicr7 bus₂ ∧
      (ilpcbReadl ⟨env.io, base⟩ 0x1e78908c).run bus₂ = .ok hicr8 bus₃ ∧ rc = 0 ∧
      p' = ⟨⟨p.ctx.ahb, ⟨p.ctx.ilpcb.ahb, base⟩, hicr7, hicr8⟩, p.held, p.revs, bus₃⟩) ∨
    ∃ base bus₁ rev bus₂, (sioProbe env.io).run p.bus = .ok (true, base) bus₁ ∧
      (revProbeThrough (ilpcbReadl ⟨env.io, base⟩)).run bus₁ = .ok rev bus₂ ∧ rc = 1 ∧
      p' = ⟨⟨p.ctx.ahb, ⟨p.ctx.ilpcb.ahb, base⟩, p.ctx.restore7, p.ctx.restore8⟩, p.held, rev :: p.revs, bus₂⟩ := by
  constructor
  · intro run
    obtain ⟨rc₁, p₁, head, run⟩ := Prog.bind_ok_iff.mp run
    obtain ⟨q, probe, rfl⟩ := onIlpcb_ok_iff.mp head
    rcases ilpcbProbe_ok_iff.mp probe with ⟨base, bus₁, absent, rfl, rfl⟩ | ⟨base, bus₁, rev, bus₂, found, supported, rfl, rfl⟩
    · obtain ⟨_, p₂, head, last⟩ := Prog.bind_ok_iff.mp run
      obtain ⟨hicr7, bus₂, hicr8, bus₃, first, second, rfl⟩ := l2abSaveHicr78_ok_iff.mp head
      cases last
      exact Or.inl ⟨base, bus₁, hicr7, bus₂, hicr8, bus₃, absent, first, second, rfl, rfl⟩
    · cases run
      exact Or.inr ⟨base, bus₁, rev, bus₂, found, supported, rfl, rfl⟩
  · rintro (⟨base, bus₁, hicr7, bus₂, hicr8, bus₃, absent, first, second, rfl, rfl⟩ |
      ⟨base, bus₁, rev, bus₂, found, supported, rfl, rfl⟩)
    · have probe : (ilpcbProbe env).run ⟨p.ctx.ilpcb, p.held, p.revs, p.bus⟩ =
          .ok 0 ⟨⟨p.ctx.ilpcb.ahb, base⟩, p.held, p.revs, bus₁⟩ :=
        ilpcbProbe_ok_iff.mpr (Or.inl ⟨base, bus₁, absent, rfl, rfl⟩)
      refine Prog.bind_ok_iff.mpr ⟨0, _, onIlpcb_ok_iff.mpr ⟨_, probe, rfl⟩, ?_⟩
      refine Prog.bind_ok_iff.mpr ⟨(), _, l2abSaveHicr78_ok_iff.mpr ?_, rfl⟩
      exact ⟨hicr7, bus₂, hicr8, bus₃, first, second, rfl⟩
    · have probe : (ilpcbProbe env).run ⟨p.ctx.ilpcb, p.held, p.revs, p.bus⟩ =
          .ok 1 ⟨⟨p.ctx.ilpcb.ahb, base⟩, p.held, rev :: p.revs, bus₂⟩ :=
        ilpcbProbe_ok_iff.mpr (Or.inr ⟨base, bus₁, rev, bus₂, found, supported, rfl, rfl⟩)
      exact Prog.bind_ok_iff.mpr ⟨1, _, onIlpcb_ok_iff.mpr ⟨_, probe, rfl⟩, rfl⟩

/-- What `l2ab_init` makes of the context that its `ilpcb_probe` and `l2ab_save_hicr78` left. -/
def l2abInitDone (rc : Nat) (p : Probing L2abMem σ) : Probing L2abMem σ :=
  if rc = 0 then { p with ctx := { p.ctx with ahb := ahbInitOps .l2a } }
  else { p with held := (p.held.filter fun r => r ≠ .lpcIo).filter fun r => r ≠ .lpcFw }

theorem l2abInit_ok_iff {p p' : Probing L2abMem σ} {rc : Nat} : (l2abInit env).run p = .ok rc p' ↔
    env.lpcInitFw = .ok () ∧ env.lpcInitIo = .ok () ∧ ∃ p₁, (l2abAttach env).run
      ⟨{ p.ctx with ilpcb := ⟨ahbInitOps .ilpc, 0x2e⟩ }, .lpcIo :: .lpcFw :: p.held, p.revs, p.bus⟩ = .ok rc p₁ ∧
      p' = l2abInitDone rc p₁ := by
  constructor
  · intro run
    obtain ⟨_, _, head, run⟩ := Prog.bind_ok_iff.mp run
    obtain ⟨fw, rfl⟩ := acquire_ok_iff.mp head
    obtain ⟨_, _, head, run⟩ := Prog.bind_ok_iff.mp run
    obtain ⟨q, init, rfl⟩ := onIlpcb_ok_iff.mp head
    obtain ⟨io, rfl⟩ := ilpcbInit_ok_iff.mp init
    obtain ⟨r, p₁, attach, run⟩ := Prog.bind_ok_iff.mp run
    match r with
    | .ok 0 =>
      cases run
      exact ⟨fw, io, p₁, Prog.attempt_ok_iff.mp attach, rfl⟩
    | .ok (rc₁ + 1) =>
      cases run
      exact ⟨fw, io, p₁, Prog.attempt_ok_iff.mp attach, rfl⟩
    | .error e =>
      obtain ⟨_, _, _, never⟩ := Prog.bind_ok_iff.mp run
      cases never
  · rintro ⟨fw, io, p₁, attach, rfl⟩
    refine Prog.bind_ok_iff.mpr ⟨(), _, acquire_ok_iff.mpr ⟨fw, rfl⟩, ?_⟩
    refine Prog.bind_ok_iff.mpr ⟨(), _, onIlpcb_ok_iff.mpr ⟨_, ilpcbInit_ok_iff.mpr ⟨io, rfl⟩, rfl⟩, ?_⟩
    refine Prog.bind_ok_iff.mpr ⟨.ok rc, p₁, Prog.attempt_ok attach, ?_⟩
    cases rc with
    | zero => rfl
    | succ rc => rfl

theorem l2abDriverProbe_true_iff {p p' : Probing L2abMem σ} : (l2abDriverProbe env).run p = .ok true p' ↔
    env.malloc = true ∧ ∃ rc, (l2abInit env).run p = .ok rc p' := by
  rw [l2abDriverProbe, allocated_true_iff, orCleanup_true_iff]
  constructor
  · rintro ⟨allocated, p₁, init, last⟩
    obtain ⟨rc, p₂, init, last'⟩ := Prog.bind_ok_iff.mp init
    cases last'
    cases last
    exact ⟨allocated, rc, init⟩
  · rintro ⟨allocated, rc, init⟩
    exact ⟨allocated, p', Prog.bind_ok_iff.mpr ⟨rc, p', init, rfl⟩, rfl⟩

theorem p2abInit_ok {p p' : Probing P2abMem σ} {u : Unit} (run : (p2abInit env).run p = .ok u p') :
    p'.ctx.ahb = ahbInitOps .p2a ∧ p'.held = .barMap :: .pciBar :: p.held := by
  obtain ⟨_, _, head, run⟩ := Prog.bind_ok_iff.mp run
  obtain ⟨_, rfl⟩ := acquire_ok_iff.mp head
  obtain ⟨r, p₁, mapped, run⟩ := Prog.bind_ok_iff.mp run
  cases r with
  | error e =>
    obtain ⟨_, _, _, never⟩ := Prog.bind_ok_iff.mp run
    cases never
  | ok _ =>
    obtain ⟨_, rfl⟩ := acquire_ok_iff.mp (Prog.attempt_ok_iff.mp mapped)
    obtain ⟨_, _, head, run⟩ := Prog.bind_ok_iff.mp run
    obtain rfl := setCtx_ok_iff.mp head
    obtain ⟨_, p₂, rbar, run⟩ := Prog.bind_ok_iff.mp run
    obtain ⟨bus₁, rfl⟩ := onBus_attempt rbar
    obtain ⟨r, p₃, unlock, run⟩ := Prog.bind_ok_iff.mp run
    obtain ⟨bus₂, rfl⟩ := onBus_attempt unlock
    cases r with
    | error e =>
      obtain ⟨_, _, _, run⟩ := Prog.bind_ok_iff.mp run
      obtain ⟨_, _, _, never⟩ := Prog.bind_ok_iff.mp run
      cases never
    | ok _ =>
      obtain rfl := setCtx_ok_iff.mp run
      exact ⟨rfl, rfl⟩

theorem devmemInit_ok {p p' : Probing DevmemMem σ} {u : Unit} (run : (devmemInit env).run p = .ok u p') :
    p'.ctx.ahb = ahbInitOps .devmem ∧ p'.held = .ioMap :: .devMem :: p.held := by
  obtain ⟨_, _, head, run⟩ := Prog.bind_ok_iff.mp run
  obtain ⟨_, rfl⟩ := acquire_ok_iff.mp head
  obtain ⟨r, p₁, mapped, run⟩ := Prog.bind_ok_iff.mp run
  cases r with
  | error e =>
    obtain ⟨_, _, _, never⟩ := Prog.bind_ok_iff.mp run
    cases never
  | ok _ =>
    obtain ⟨_, rfl⟩ := acquire_ok_iff.mp (Prog.attempt_ok_iff.mp mapped)
    obtain rfl := setCtx_ok_iff.mp run
    exact ⟨rfl, rfl⟩

end Probing

/-- The ahb of the context can be handed to a command. -/
structure AhbReady {σ : Type} (drv : HostBridge) (p : Probing drv.Ctx σ) : Prop where
  initialised : drv.ahb p.ctx = ahbInitOps drv
  held : ∀ res ∈ drv.resources, res ∈ p.held
  supported : ∃ rev ∈ p.revs, revIsSupported rev = true

/-- Where `driver->probe` returns an ahb, it can be handed to a command. -/
def ProbeSafe {σ : Type} (env : HostEnv σ) (drv : HostBridge) (ctx : drv.Ctx) (bus : σ) : Prop :=
  ∀ p, (driverProbe env drv).run (.start ctx bus) = .ok true p → AhbReady drv p

/-- The machine keeps the driver off the way that goes wrong: over the iLPC bridge there is always a
SuperIO; the L2A bridge is given up before its ahb is returned. -/
def ProbesWell {σ : Type} (env : HostEnv σ) (bus : σ) : HostBridge → Prop
  | .p2a => True
  | .devmem => True
  | .ilpc => env.malloc = true → env.lpcInitIo = .ok () → ¬ SioAbsent env.io bus
  | .l2a => env.malloc = true → env.lpcInitFw = .ok () → env.lpcInitIo = .ok () →
      ¬ RevFound env.io bus ∧ ¬ HicrRead env.io bus

section
variable {σ : Type} {env : HostEnv σ} {bus : σ}

theorem p2a_probe_safe (ctx : P2abMem) : ProbeSafe env .p2a ctx bus := by
  intro p run
  obtain ⟨_, run⟩ := Probing.allocated_true_iff.mp run
  obtain ⟨p₁, init, run⟩ := Probing.orCleanup_true_iff.mp run
  obtain ⟨ahb, held⟩ := Probing.p2abInit_ok init
  obtain ⟨p₂, probe, last⟩ := Probing.orCleanup_true_iff.mp run
  obtain ⟨rev, bus₁, found, rfl⟩ := Probing.revProbe_ok_iff.mp probe
  cases last
  refine ⟨ahb, fun res mem => ?_, rev, List.mem_cons_self, revProbeThrough_ok found⟩
  rw [HostBridge.resources, List.mem_pair] at mem
  show res ∈ p₁.held
  rw [held]
  rcases mem with rfl | rfl
  · exact List.mem_cons_of_mem _ List.mem_cons_self
  · exact List.mem_cons_self

theorem devmem_probe_safe (ctx : DevmemMem) : ProbeSafe env .devmem ctx bus := by
  intro p run
  obtain ⟨_, run⟩ := Probing.allocated_true_iff.mp run
  obtain ⟨p₁, init, run⟩ := Probing.orCleanup_true_iff.mp run
  obtain ⟨ahb, held⟩ := Probing.devmemInit_ok init
  obtain ⟨p₂, probe, last⟩ := Probing.orCleanup_true_iff.mp run
  rw [Probing.devmemProbe] at probe
  split at probe
  case isFalse => cases probe
  case isTrue =>
    obtain ⟨rev, bus₁, found, rfl⟩ := Probing.revProbe_ok_iff.mp probe
    cases last
    refine ⟨ahb, fun res mem => ?_, rev, List.mem_cons_self, revProbeThrough_ok found⟩
    rw [HostBridge.resources, List.mem_pair] at mem
    show res ∈ p₁.held
    rw [held]
    rcases mem with rfl | rfl
    · exact List.mem_cons_of_mem _ List.mem_cons_self
    · exact List.mem_cons_self

theorem ilpc_probe_safe_iff (ctx : IlpcbMem) : ProbeSafe env .ilpc ctx bus ↔ ProbesWell env bus .ilpc := by
  constructor
  · rintro safe allocated opened ⟨base, bus₁, absent⟩
    have probe : (Probing.ilpcbProbe env).run ⟨⟨ahbInitOps .ilpc, 0x2e⟩, [.lpcIo], [], bus⟩ =
        .ok 0 ⟨⟨ahbInitOps .ilpc, base⟩, [.lpcIo], [], bus₁⟩ :=
      Probing.ilpcbProbe_ok_iff.mpr (Or.inl ⟨base, bus₁, absent, rfl, rfl⟩)
    have run : (Probing.ilpcbDriverProbe env).run (.start ctx bus) =
        .ok true ⟨⟨ahbInitOps .ilpc, base⟩, [.lpcIo], [], bus₁⟩ :=
      Probing.ilpcbDriverProbe_true_iff.mpr ⟨allocated, opened, 0, probe⟩
    obtain ⟨rev, mem, _⟩ := (safe _ run).supported
    cases mem
  · intro well p run
    obtain ⟨allocated, opened, rc, probe⟩ := Probing.ilpcbDriverProbe_true_iff.mp run
    rcases Probing.ilpcbProbe_ok_iff.mp probe with ⟨base, bus₁, absent, _⟩ | ⟨base, _, rev, _, _, found, _, rfl⟩
    · exact absurd ⟨base, bus₁, absent⟩ (well allocated opened)
    · refine ⟨rfl, fun res mem => ?_, rev, List.mem_cons_self, revProbeThrough_ok found⟩
      rw [List.mem_singleton.mp mem]
      exact List.mem_cons_self

/-- Whichever way `l2ab_init` takes, the ahb that it leaves cannot be used. -/
theorem l2abInit_not_ready {ctx : L2abMem} {p : Probing L2abMem σ} {rc : Nat}
    (run : (Probing.l2abInit env).run (.start ctx bus) = .ok rc p) : ¬ AhbReady .l2a p := by
  intro ready
  obtain ⟨_, _, p₁, attach, rfl⟩ := Probing.l2abInit_ok_iff.mp run
  rcases Probing.l2abAttach_ok_iff.mp attach with ⟨_, _, _, _, _, _, _, _, _, rfl, rfl⟩ | ⟨_, _, _, _, _, _, rfl, rfl⟩
  · obtain ⟨rev, mem, _⟩ := ready.supported
    cases mem
  · have mem : HostResource.lpcFw ∈ ([.lpcIo, .lpcFw].filter fun r => r ≠ .lpcIo).filter fun r => r ≠ .lpcFw :=
      ready.held .lpcFw List.mem_cons_self
    exact absurd rfl (of_decide_eq_true (List.mem_filter.mp mem).2)

theorem l2a_probe_safe_iff (ctx : L2abMem) : ProbeSafe env .l2a ctx bus ↔ ProbesWell env bus .l2a := by
  constructor
  · intro safe allocated fw io
    have never {rc : Nat} {p₁ : Probing L2abMem σ} (attach : (Probing.l2abAttach env).run
        ⟨{ ctx with ilpcb := ⟨ahbInitOps .ilpc, 0x2e⟩ }, [.lpcIo, .lpcFw], [], bus⟩ = .ok rc p₁) : False := by
      have init : (Probing.l2abInit env).run (.start ctx bus) = .ok rc (Probing.l2abInitDone rc p₁) :=
        Probing.l2abInit_ok_iff.mpr ⟨fw, io, p₁, attach, rfl⟩
      exact l2abInit_not_ready init (safe _ (Probing.l2abDriverProbe_true_iff.mpr ⟨allocated, rc, init⟩))
    constructor
    · rintro ⟨base, bus₁, rev, bus₂, found, supported⟩
      exact never (Probing.l2abAttach_ok_iff.mpr (Or.inr ⟨base, bus₁, rev, bus₂, found, supported, rfl, rfl⟩))
    · rintro ⟨base, bus₁, hicr7, bus₂, hicr8, bus₃, absent, first, second⟩
      exact never (Probing.l2abAttach_ok_iff.mpr
        (Or.inl ⟨base, bus₁, hicr7, bus₂, hicr8, bus₃, absent, first, second, rfl, rfl⟩))
  · intro well p run
    obtain ⟨allocated, rc, init⟩ := Probing.l2abDriverProbe_true_iff.mp run
    obtain ⟨fw, io, p₁, attach, _⟩ := Probing.l2abInit_ok_iff.mp init
    obtain ⟨noRev, noHicr⟩ := well allocated fw io
    rcases Probing.l2abAttach_ok_iff.mp attach with
      ⟨base, bus₁, hicr7, bus₂, hicr8, bus₃, absent, first, second, _⟩ | ⟨base, bus₁, rev, bus₂, found, supported, _⟩
    · exact absurd ⟨base, bus₁, hicr7, bus₂, hicr8, bus₃, absent, first, second⟩ noHicr
    · exact absurd ⟨base, bus₁, rev, bus₂, found, supported⟩ noRev

end

/-- A driver's probe returns nothing but ready ahbs exactly where the machine keeps it off the ways
that go wrong. -/
theorem driver_probe_safe_iff {σ : Type} (env : HostEnv σ) (drv : HostBridge) (ctx : drv.Ctx) (bus : σ) :
    ProbeSafe env drv ctx bus ↔ ProbesWell env bus drv := by
  cases drv with
  | p2a => exact iff_of_true (p2a_probe_safe ctx) trivial
  | devmem => exact iff_of_true (devmem_probe_safe ctx) trivial
  | ilpc => exact ilpc_probe_safe_iff ctx
  | l2a => exact l2a_probe_safe_iff ctx

/-- A machine on which all works but whose SuperIO is disabled: the ports float. -/
def sioDisabled : HostEnv Unit where
  arm := false
  malloc := true
  lpcInitFw := .ok ()
  lpcInitIo := .ok ()
  pciOpen := .ok ()
  devOpen := .ok ()
  mmap := .ok ()
  munmap := .ok ()
  io := ⟨fun _ => pure 0xff, fun _ _ => pure ()⟩
  barWritel _ _ := pure ()
  p2abReadl _ := pure 0
  devmemReadl _ := pure 0

/-- There the iLPC bridge is offered without a revision, and so is the L2A bridge. -/
theorem driver_probe_not_safe : ¬ ProbeSafe sioDisabled .ilpc ⟨⟨none, none⟩, 0⟩ () ∧
    ¬ ProbeSafe sioDisabled .l2a ⟨⟨none, none⟩, ⟨⟨none, none⟩, 0⟩, 0, 0⟩ () := by
  constructor
  · intro safe
    obtain ⟨rev, mem, _⟩ := (safe _ rfl).supported
    cases mem
  · intro safe
    obtain ⟨rev, mem, _⟩ := (safe _ rfl).supported
    cases mem

end Culvert
