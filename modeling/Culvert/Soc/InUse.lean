import Culvert.Soc.Lifetimes

namespace Culvert

namespace Soc

section
variable {α : Type} {I : Soc → Prop} {K : Soc → Prop} {E : Stop → Faulty Soc → Prop}

theorem update_triple (f : Soc → Soc) (step : ∀ s, I s → K (f s)) :
    Prog.Triple (fun s : Faulty Soc => I s.dev) (update f) (fun _ s => K s.dev) E := by
  intro s start
  refine ⟨fun _ s' run => ?_, fun _ _ run => nomatch run⟩
  cases run
  exact step s.dev start

theorem malloc_triple : Prog.Triple (fun s : Faulty Soc => I s.dev) malloc (fun _ s => I s.dev) (fun _ s => I s.dev) := by
  have asked : Prog.Triple (fun s : Faulty Soc => I s.dev) (Faulty.access fun s => ((), s)) (fun _ s => I s.dev)
      (fun _ s => I s.dev) := Faulty.access_triple (K := fun _ => I) (fun _ here => here) fun _ _ here => here
  refine asked.attempt.bind fun r => ?_
  cases r with
  | ok _ => exact Prog.Triple.pure fun _ here => here
  | error _ => exact Prog.Triple.fail fun _ here => here

/-- It does not notice register accesses, those that lock the SCU apart. -/
structure Blind (I : Soc → Prop) : Prop where
  read : ∀ s reads, I s → I { s with reads := reads }
  wrote : ∀ s phys val, ¬ (SocEvent.wrote phys val).Locks → I s → I { s with log := .wrote phys val :: s.log }

theorem Blind.readl (blind : Blind I) (phys : Word) :
    Prog.Triple (fun s : Faulty Soc => I s.dev) (socReadl bus phys) (fun _ s => I s.dev) (fun _ s => I s.dev) :=
  Faulty.access_triple (K := fun _ => I) (fun s => blind.read s _) fun _ _ here => here

theorem Blind.writel (blind : Blind I) {phys val : Word} (safe : ¬ (SocEvent.wrote phys val).Locks) :
    Prog.Triple (fun s : Faulty Soc => I s.dev) (socWritel bus phys val) (fun _ s => I s.dev) (fun _ s => I s.dev) :=
  Faulty.access_triple (K := fun _ => I) (fun s => blind.wrote s phys val safe) fun _ _ here => here

theorem not_locks_of_ne {phys val : Word} (ne : phys ≠ scuBase + astScuProtKey) : ¬ (SocEvent.wrote phys val).Locks := by
  rintro ⟨_, _, same⟩
  cases same
  exact ne rfl

theorem not_locks_password : ¬ (SocEvent.wrote (scuBase + astScuProtKey) astScuPassword).Locks := by
  rintro ⟨_, ne, same⟩
  cases same
  exact ne rfl

theorem sfcStart_ne (dev : SocDev) {off : Word} (reg : off ∈ [0x00, 0x10, 0x94]) :
    sfcStart dev + off ≠ scuBase + astScuProtKey := by
  simp only [List.mem_cons, List.not_mem_nil, or_false] at reg
  unfold sfcStart
  split_ifs <;> rcases reg with rfl | rfl | rfl <;> decide

theorem sfcType_ne (dev : SocDev) : sfcStart dev + (sfcType dev).typeReg ≠ scuBase + astScuProtKey ∧
    sfcStart dev + (sfcType dev).ctlReg ≠ scuBase + astScuProtKey ∧
    sfcStart dev + (sfcType dev).freadTimingReg ≠ scuBase + astScuProtKey := by
  cases sfcType dev <;> exact ⟨sfcStart_ne dev (by decide), sfcStart_ne dev (by decide), sfcStart_ne dev (by decide)⟩

section
variable (blind : Blind I)
include blind

theorem Blind.jtagRelease (gen : AstGeneration) : Prog.Triple (fun s : Faulty Soc => I s.dev) (jtagRelease gen)
    (fun _ s => I s.dev) (fun _ s => I s.dev) := by
  have older : Prog.Triple (fun s : Faulty Soc => I s.dev) ast2400JtagRelease (fun _ s => I s.dev)
      (fun _ s => I s.dev) := (blind.readl _).bind fun reg => blind.writel (not_locks_of_ne (by decide))
  cases gen with
  | g4 => exact older
  | g5 => exact older
  | g6 => exact blind.writel (not_locks_of_ne (by decide))

theorem Blind.traceStop : Prog.Triple (fun s : Faulty Soc => I s.dev) traceStop (fun _ s => I s.dev)
    (fun _ s => I s.dev) := by
  refine (blind.readl _).bind fun csr => Prog.Triple.ite (Prog.Triple.pure fun _ here => here) ?_
  refine (blind.writel (not_locks_of_ne (by decide))).bind fun _ => ?_
  exact blind.writel (not_locks_of_ne (by decide))

theorem Blind.sfcInitDevice (dev : SocDev) : Prog.Triple (fun s : Faulty Soc => I s.dev) (sfcInitDevice dev)
    (fun _ s => I s.dev) (fun _ s => I s.dev) := by
  refine (blind.readl _).bind fun ctl => Prog.Triple.ite (Prog.Triple.fail fun _ here => here) ?_
  refine (blind.readl _).bind fun ceType => ?_
  refine (blind.writel (not_locks_of_ne (sfcType_ne dev).1)).bind fun _ => ?_
  refine (blind.writel (not_locks_of_ne (sfcType_ne dev).2.1)).bind fun _ => ?_
  exact blind.writel (not_locks_of_ne (sfcType_ne dev).2.2)

end

end

variable {devices before : List SocDev} {rank : Nat} {extra : List Holder} {held : Nat} {dev : SocDev}

theorem InUse.blind : Blind (InUse devices before rank extra held) :=
  ⟨fun _ reads here => here.read reads, fun _ _ _ safe here => here.wrote safe⟩

section
variable {I : Faulty Soc → Prop} {init : Prog (Faulty Soc) Unit}

/-- A device without driver data is initialised, by an `init` that only relies on lower ranks. -/
theorem deviceInitDriver_fresh {extra' : List Holder} (lower : dev.driver.rank < rank)
    (spec : ∀ L, dev ∉ L → Prog.Triple (fun s => I s ∧ InUse devices L dev.driver.rank extra held s.dev) init
      (fun _ s => InUse devices L (dev.driver.rank + 1) extra' held s.dev)
      (fun _ s => InUse devices L (dev.driver.rank + 1) extra' held s.dev)) :
    Prog.Triple (fun s => I s ∧ dev ∉ s.dev.live ∧ InUse devices before rank extra held s.dev)
      (deviceInitDriver dev init)
      (fun b s => InUse devices before rank extra' held s.dev ∧ (b = true → dev ∈ s.dev.live))
      (fun _ s => InUse devices before rank extra' held s.dev) := by
  rintro s ⟨here, new, inUse⟩
  have tried := (spec s.dev.live new).attempt s ⟨here, inUse.here dev.driver.rank⟩
  have back : ∀ s' : Faulty Soc, InUse devices s.dev.live (dev.driver.rank + 1) extra' held s'.dev →
      InUse devices before rank extra' held s'.dev := fun s' later => inUse.back later lower
  rw [deviceInitDriver, Prog.run_bind_ok (show (get : Prog (Faulty Soc) _).run s = .ok s s from rfl), if_neg new]
  constructor
  · intro b s' run
    obtain ⟨r, s₁, first, last⟩ := Prog.bind_ok_iff.mp run
    have later := tried.1 r s₁ first
    cases r with
    | ok _ =>
      cases last
      exact ⟨back _ later, fun yes => of_decide_eq_true yes⟩
    | error _ =>
      cases last
      exact ⟨back _ later, fun yes => absurd yes Bool.false_ne_true⟩
  · intro e s' run
    rcases Prog.bind_error_iff.mp run with first | ⟨r, s₁, first, last⟩
    · exact back _ (tried.2 e s' first)
    · cases r with
      | ok _ => cases last
      | error _ => cases last

theorem deviceInitDriver_live {s : Faulty Soc} (alive : dev ∈ s.dev.live) :
    (deviceInitDriver dev init).run s = .ok true s := by
  rw [deviceInitDriver]
  exact (Prog.run_bind_ok (show (get : Prog (Faulty Soc) _).run s = .ok s s from rfl)).trans
    (congrArg (fun m => EStateM.run m s) (if_pos alive))

theorem deviceInitDriver_inUse (lower : dev.driver.rank < rank)
    (spec : ∀ L, dev ∉ L → Prog.Triple (fun s => InUse devices L dev.driver.rank extra held s.dev) init
      (fun _ s => InUse devices L (dev.driver.rank + 1) extra held s.dev)
      (fun _ s => InUse devices L (dev.driver.rank + 1) extra held s.dev)) :
    Prog.Triple (fun s => InUse devices before rank extra held s.dev) (deviceInitDriver dev init)
      (fun b s => InUse devices before rank extra held s.dev ∧ (b = true → dev ∈ s.dev.live))
      (fun _ s => InUse devices before rank extra held s.dev) := by
  intro s inUse
  by_cases alive : dev ∈ s.dev.live
  · rw [deviceInitDriver_live alive]
    refine ⟨fun b s' run => ?_, fun _ _ run => nomatch run⟩
    cases run
    exact ⟨inUse, fun _ => alive⟩
  · refine deviceInitDriver_fresh (I := fun _ => True) lower (fun L new => ?_) s ⟨trivial, alive, inUse⟩
    exact (spec L new).conseq (fun _ pre => pre.2) (fun _ _ post => post) fun _ _ post => post

end

/-- A SoC has one SCU at most. -/
def OneScu (devices : List SocDev) : Prop := ∀ dev ∈ devices, ∀ other ∈ devices,
  dev.driver = .scu → other.driver = .scu → dev = other

theorem target_known {s : Soc} {lookup : Lookup} (found : lookup.target s = some dev) : dev ∈ s.devices := by
  cases lookup with
  | driver wanted => exact List.mem_of_find?_eq_some found
  | name wanted path => exact List.mem_of_find?_eq_some (Option.filter_eq_some_iff.mp found).1
  | node path => exact List.mem_of_find?_eq_some found

theorem target_driver {s : Soc} {wanted : Driver} (found : (Lookup.driver wanted).target s = some dev) :
    dev.driver = wanted := of_decide_eq_true (List.find?_some found :)

/-- A lookup of a driver of lower rank. -/
theorem getDrvdata_inUse {wanted : Driver} {init : SocDev → Prog (Faulty Soc) Unit} (lower : wanted.rank < rank)
    (spec : ∀ dev ∈ devices, dev.driver = wanted → ∀ L, dev ∉ L →
      Prog.Triple (fun s => InUse devices L dev.driver.rank extra held s.dev) (init dev)
        (fun _ s => InUse devices L (dev.driver.rank + 1) extra held s.dev)
        (fun _ s => InUse devices L (dev.driver.rank + 1) extra held s.dev)) :
    Prog.Triple (fun s => InUse devices before rank extra held s.dev) (getDrvdata (.driver wanted) init)
      (fun b s => InUse devices before rank extra held s.dev ∧ (b = true → ∃ dev ∈ s.dev.live, dev.driver = wanted))
      (fun _ s => InUse devices before rank extra held s.dev) := by
  intro s inUse
  rw [getDrvdata, Prog.run_bind_ok (show (get : Prog (Faulty Soc) _).run s = .ok s s from rfl)]
  cases found : (Lookup.driver wanted).target s.dev with
  | none =>
    refine ⟨fun b s' run => ?_, fun _ _ run => by cases run⟩
    cases run
    exact ⟨inUse, fun never => absurd never Bool.false_ne_true⟩
  | some dev =>
    have known : dev ∈ devices := inUse.bound ▸ target_known found
    have driver := target_driver found
    obtain ⟨good, bad⟩ := deviceInitDriver_inUse (driver ▸ lower) (spec dev known driver) s inUse
    exact ⟨fun b s' run => ⟨(good b s' run).1, fun yes => ⟨dev, (good b s' run).2 yes, driver⟩⟩, bad⟩

theorem InUse.scu_initialised {s : Soc} (inUse : InUse devices before dev.driver.rank extra held s)
    (one : OneScu devices) (known : dev ∈ devices) (driver : dev.driver = .scu) (new : dev ∉ before) (wasLocked : Bool) :
    InUse devices before (dev.driver.rank + 1) extra held
      { s with live := dev :: s.live, scu := some ⟨1, wasLocked⟩, log := .took (.device dev) :: s.log } := by
  have fresh := inUse.fresh new
  have nothing : extra ++ due held s.live = [] := inUse.up.resolve_right fun ⟨other, mem, scu⟩ =>
    fresh (one other (inUse.known other mem) dev known scu driver ▸ mem)
  have holds : dev.driver.holdsScu := by rw [driver]; rfl
  have owes := inUse.owes
  rw [nothing] at owes
  have wired := inUse.wired.cons fresh
  rw [driver] at wired
  refine ⟨inUse.bound, List.nodup_cons.mpr ⟨fresh, inUse.once⟩, ?_, ?_, wired, ?_, ?_⟩
  · intro other mem
    rcases List.mem_cons.mp mem with rfl | mem
    · exact known
    · exact inUse.known other mem
  · obtain ⟨rfl, none⟩ := List.append_eq_nil_iff.mp nothing
    rw [due_cons holds, none]
    exact owes.init (.device dev) wasLocked
  · exact Or.inr ⟨dev, List.mem_cons_self, driver⟩
  · intro other mem
    rcases List.mem_cons.mp mem with rfl | mem
    · exact Or.inr (Nat.lt_succ_self _)
    · exact (inUse.within other mem).imp_right fun lower => by omega

theorem InUse.took {s : Soc} (inUse : InUse devices before rank extra held s) (mem : dev ∈ s.live)
    (driver : dev.driver = .scu) (holder : Holder) : InUse devices before rank (holder :: extra) held
      { s with
        scu := s.scu.map fun ctx => { ctx with refcnt := ctx.refcnt + 1 }
        log := .took holder :: s.log } := by
  have holds : dev.driver.holdsScu := by rw [driver]; rfl
  have some : extra ++ due held s.live ≠ [] := by
    have out : Holder.device dev ∈ due held s.live :=
      (due_erase mem holds).mem_iff.mpr List.mem_cons_self
    exact List.ne_nil_of_mem (List.mem_append_right extra out)
  have owes := inUse.owes
  cases here : s.scu with
  | none => exact absurd (owes.freed.mp here) some
  | some ctx =>
    rw [here] at owes
    exact ⟨inUse.bound, inUse.once, inUse.known, owes.took holder, inUse.wired, Or.inr ⟨dev, mem, driver⟩,
      inUse.within⟩

/-- What an `init` does between the lower ranks and its own. -/
abbrev Enters (devices before : List SocDev) (dev : SocDev) (extra : List Holder) (held : Nat)
    (init : Prog (Faulty Soc) Unit) : Prop :=
  Prog.Triple (fun s => InUse devices before dev.driver.rank extra held s.dev) init
    (fun _ s => InUse devices before (dev.driver.rank + 1) extra held s.dev)
    (fun _ s => InUse devices before (dev.driver.rank + 1) extra held s.dev)

theorem Enters.of {init : Prog (Faulty Soc) Unit}
    (triple : Prog.Triple (fun s => InUse devices before dev.driver.rank extra held s.dev) init
      (fun _ s => InUse devices before (dev.driver.rank + 1) extra held s.dev)
      (fun _ s => InUse devices before dev.driver.rank extra held s.dev)) :
    Enters devices before dev extra held init :=
  triple.conseq (fun _ pre => pre) (fun _ _ post => post) fun _ _ here => here.mono (Nat.le_succ _)

/-- Setting the driver data is the last step of drivers that register no controller. -/
theorem setDrvdata_enters {E : Stop → Faulty Soc → Prop} (known : dev ∈ devices) (new : dev ∉ before)
    (holds : ¬ dev.driver.holdsScu) (none : dev.driver.bridgectls = []) :
    Prog.Triple (fun s => InUse devices before dev.driver.rank extra held s.dev) (setDrvdata dev)
      (fun _ s => InUse devices before (dev.driver.rank + 1) extra held s.dev) E := by
  refine update_triple _ fun s inUse => ?_
  have entered := inUse.initialised new known holds s.ctlReadVal
  rw [none] at entered
  exact entered

theorem scuDriverInit_enters (one : OneScu devices) (known : dev ∈ devices) (scu : dev.driver = .scu)
    (new : dev ∉ before) : Enters devices before dev extra held (scuDriverInit dev) := by
  refine Enters.of (malloc_triple.bind fun _ => ?_)
  refine (InUse.blind.readl _).bind fun value => ?_
  have last : Prog.Triple (fun s => InUse devices before dev.driver.rank extra held s.dev)
      (update fun s => { s with
        live := dev :: s.live, scu := some ⟨1, value = 0⟩, log := .took (.device dev) :: s.log })
      (fun _ s => InUse devices before (dev.driver.rank + 1) extra held s.dev)
      (fun _ s => InUse devices before dev.driver.rank extra held s.dev) :=
    update_triple _ fun s inUse => inUse.scu_initialised one known scu new _
  exact Prog.Triple.ite ((InUse.blind.writel not_locks_password).bind fun _ => last) last

theorem plainDriverInit_enters (known : dev ∈ devices) (new : dev ∉ before) (holds : ¬ dev.driver.holdsScu)
    (none : dev.driver.bridgectls = []) : Enters devices before dev extra held (plainDriverInit dev) :=
  Enters.of (malloc_triple.bind fun _ => setDrvdata_enters known new holds none)

/-- A reference is taken, if there is an SCU to be had. -/
theorem scuGet_inUse (one : OneScu devices) (lower : 0 < rank) (holder : Holder) :
    Prog.Triple (fun s => InUse devices before rank extra held s.dev) (scuGet holder)
      (fun b s => InUse devices before rank (if b then holder :: extra else extra) held s.dev)
      (fun _ s => InUse devices before rank extra held s.dev) := by
  have got : Prog.Triple (fun s => InUse devices before rank extra held s.dev) (getDrvdata (.driver .scu) scuDriverInit)
      (fun b s => InUse devices before rank extra held s.dev ∧ (b = true → ∃ dev ∈ s.dev.live, dev.driver = .scu))
      (fun _ s => InUse devices before rank extra held s.dev) :=
    getDrvdata_inUse lower fun dev known driver L new => scuDriverInit_enters one known driver new
  refine got.bind fun b => ?_
  cases b with
  | false => exact Prog.Triple.pure fun _ here => here.1
  | true =>
    refine (update_triple (I := fun s => InUse devices before rank extra held s ∧
      (true = true → ∃ dev ∈ s.live, dev.driver = .scu)) _ (fun s here => ?_)).bind fun _ => Prog.Triple.pure fun _ here => here
    obtain ⟨inUse, alive⟩ := here
    obtain ⟨dev, mem, driver⟩ := alive rfl
    exact inUse.took mem driver holder

theorem scuUserDriverInit_enters (one : OneScu devices) (known : dev ∈ devices) (new : dev ∉ before)
    (holds : dev.driver.holdsScu) (lower : 0 < dev.driver.rank) :
    Enters devices before dev extra held (scuUserDriverInit dev) := by
  refine Enters.of (malloc_triple.bind fun _ => (scuGet_inUse one lower (.device dev)).bind fun b => ?_)
  cases b with
  | false => exact Prog.Triple.fail fun _ here => here
  | true =>
    have stored : Prog.Triple (fun s => InUse devices before dev.driver.rank (.device dev :: extra) held s.dev)
        (setDrvdata dev) (fun _ s => InUse devices before (dev.driver.rank + 1) extra held s.dev)
        (fun _ s => InUse devices before dev.driver.rank extra held s.dev) :=
      update_triple _ fun s inUse => inUse.initialised_holder new known holds
    exact stored

section
variable (one : OneScu devices) (lower : 1 < rank)
include one lower

theorem clkGet_inUse : Prog.Triple (fun s => InUse devices before rank extra held s.dev) clkGet
    (fun _ s => InUse devices before rank extra held s.dev) (fun _ s => InUse devices before rank extra held s.dev) := by
  have got : Prog.Triple (fun s => InUse devices before rank extra held s.dev) clkGet
      (fun b s => InUse devices before rank extra held s.dev ∧ (b = true → ∃ dev ∈ s.dev.live, dev.driver = .clk))
      (fun _ s => InUse devices before rank extra held s.dev) :=
    getDrvdata_inUse lower fun dev known driver L new =>
      scuUserDriverInit_enters one known new (by rw [driver]; rfl) (by rw [driver]; decide)
  exact got.conseq (fun _ pre => pre) (fun _ _ post => post.1) fun _ _ post => post

theorem strapGet_inUse : Prog.Triple (fun s => InUse devices before rank extra held s.dev) strapGet
    (fun _ s => InUse devices before rank extra held s.dev) (fun _ s => InUse devices before rank extra held s.dev) := by
  have got : Prog.Triple (fun s => InUse devices before rank extra held s.dev) strapGet
      (fun b s => InUse devices before rank extra held s.dev ∧ (b = true → ∃ dev ∈ s.dev.live, dev.driver = .strap))
      (fun _ s => InUse devices before rank extra held s.dev) :=
    getDrvdata_inUse lower fun dev known driver L new =>
      scuUserDriverInit_enters one known new (by rw [driver]; rfl) (by rw [driver]; decide)
  exact got.conseq (fun _ pre => pre) (fun _ _ post => post.1) fun _ _ post => post

end

section
variable (lower : 0 < rank)
include lower

theorem sdmcGet_inUse : Prog.Triple (fun s => InUse devices before rank extra held s.dev) sdmcGet
    (fun _ s => InUse devices before rank extra held s.dev) (fun _ s => InUse devices before rank extra held s.dev) := by
  have got : Prog.Triple (fun s => InUse devices before rank extra held s.dev) sdmcGet
      (fun b s => InUse devices before rank extra held s.dev ∧ (b = true → ∃ dev ∈ s.dev.live, dev.driver = .sdmc))
      (fun _ s => InUse devices before rank extra held s.dev) :=
    getDrvdata_inUse lower fun dev known driver L new =>
      plainDriverInit_enters known new (by rw [driver]; decide) (by rw [driver]; rfl)
  exact got.conseq (fun _ pre => pre) (fun _ _ post => post.1) fun _ _ post => post

theorem bridgesGet_inUse : Prog.Triple (fun s => InUse devices before rank extra held s.dev) bridgesGet
    (fun _ s => InUse devices before rank extra held s.dev) (fun _ s => InUse devices before rank extra held s.dev) := by
  have got : Prog.Triple (fun s => InUse devices before rank extra held s.dev) bridgesGet
      (fun b s => InUse devices before rank extra held s.dev ∧ (b = true → ∃ dev ∈ s.dev.live, dev.driver = .bridges))
      (fun _ s => InUse devices before rank extra held s.dev) :=
    getDrvdata_inUse lower fun dev known driver L new =>
      plainDriverInit_enters known new (by rw [driver]; decide) (by rw [driver]; rfl)
  exact got.conseq (fun _ pre => pre) (fun _ _ post => post.1) fun _ _ post => post

theorem bridgesGetOn_inUse (gen : AstGeneration) :
    Prog.Triple (fun s => InUse devices before rank extra held s.dev) (bridgesGetOn gen)
      (fun _ s => InUse devices before rank extra held s.dev) (fun _ s => InUse devices before rank extra held s.dev) :=
  Prog.Triple.ite (bridgesGet_inUse lower) (Prog.Triple.pure fun _ here => here)

end

theorem sioctlDriverInit_enters (one : OneScu devices) (known : dev ∈ devices) (new : dev ∉ before)
    (driver : dev.driver = .sioctl) : Enters devices before dev extra held (sioctlDriverInit dev) := by
  refine Enters.of (malloc_triple.bind fun _ => (strapGet_inUse one (by rw [driver]; decide)).bind fun b => ?_)
  exact Prog.Triple.ite (setDrvdata_enters known new (by rw [driver]; decide) (by rw [driver]; rfl))
    (Prog.Triple.fail fun _ here => here)

theorem sioctlGet_inUse (one : OneScu devices) (lower : 2 < rank) :
    Prog.Triple (fun s => InUse devices before rank extra held s.dev) sioctlGet
      (fun _ s => InUse devices before rank extra held s.dev) (fun _ s => InUse devices before rank extra held s.dev) := by
  have got : Prog.Triple (fun s => InUse devices before rank extra held s.dev) sioctlGet
      (fun b s => InUse devices before rank extra held s.dev ∧ (b = true → ∃ dev ∈ s.dev.live, dev.driver = .sioctl))
      (fun _ s => InUse devices before rank extra held s.dev) :=
    getDrvdata_inUse lower fun dev known driver L new => sioctlDriverInit_enters one known new driver
  exact got.conseq (fun _ pre => pre) (fun _ _ post => post.1) fun _ _ post => post

theorem wdtDriverInit_enters (one : OneScu devices) (known : dev ∈ devices) (new : dev ∉ before)
    (driver : dev.driver = .wdt) : Enters devices before dev extra held (wdtDriverInit dev) := by
  refine Enters.of (malloc_triple.bind fun _ => (clkGet_inUse one (by rw [driver]; decide)).bind fun b => ?_)
  exact Prog.Triple.ite (setDrvdata_enters known new (by rw [driver]; decide) (by rw [driver]; rfl))
    (Prog.Triple.fail fun _ here => here)

theorem sfcDriverInit_enters (one : OneScu devices) (known : dev ∈ devices) (new : dev ∉ before)
    (driver : dev.driver = .sfc) : Enters devices before dev extra held (sfcDriverInit dev) := by
  refine Enters.of (malloc_triple.bind fun _ => (clkGet_inUse one (by rw [driver]; decide)).bind fun b => ?_)
  refine Prog.Triple.ite ((InUse.blind.sfcInitDevice dev).attempt.bind fun r => ?_) (Prog.Triple.fail fun _ here => here)
  cases r with
  | ok _ =>
    refine update_triple _ fun s inUse => ?_
    have entered := inUse.initialised new known (by rw [driver]; decide) (Function.update s.ctlReadVal dev 0x400)
    have none : dev.driver.bridgectls = [] := by rw [driver]; rfl
    rw [none] at entered
    exact entered
  | error _ => exact Prog.Triple.fail fun _ here => here

theorem uartMuxDriverInit_enters (known : dev ∈ devices) (new : dev ∉ before) (driver : dev.driver = .uartMux) :
    Enters devices before dev extra held (uartMuxDriverInit dev) := by
  refine Enters.of (malloc_triple.bind fun _ => (InUse.blind.readl _).bind fun _ => (InUse.blind.readl _).bind fun _ => ?_)
  exact setDrvdata_enters known new (by rw [driver]; decide) (by rw [driver]; rfl)

theorem traceDriverInit_enters (known : dev ∈ devices) (new : dev ∉ before) (driver : dev.driver = .trace) :
    Enters devices before dev extra held (traceDriverInit dev) := by
  have start : Prog.Triple (fun s => InUse devices before dev.driver.rank extra held s.dev) malloc
      (fun _ s => InUse devices before dev.driver.rank extra held s.dev)
      (fun _ s => InUse devices before (dev.driver.rank + 1) extra held s.dev) :=
    malloc_triple.conseq (fun _ pre => pre) (fun _ _ post => post) fun _ _ here => here.mono (Nat.le_succ _)
  refine start.bind fun _ => ?_
  refine (setDrvdata_enters known new (by rw [driver]; decide) (by rw [driver]; rfl)).bind fun _ => ?_
  refine InUse.blind.traceStop.attempt.bind fun r => ?_
  cases r with
  | ok _ => exact Prog.Triple.pure fun _ here => here
  | error _ => exact Prog.Triple.pure fun _ here => here

theorem still_enters {E : Stop → Faulty Soc → Prop} :
    Prog.Triple (fun s : Faulty Soc => InUse devices before dev.driver.rank extra held s.dev) (pure ())
      (fun _ s => InUse devices before (dev.driver.rank + 1) extra held s.dev) E :=
  Prog.Triple.pure fun _ here => here.mono (Nat.le_succ _)

theorem register_triple {I : Soc → Prop} {E : Stop → Faulty Soc → Prop} (dev : SocDev) (ops : BridgectlOps) :
    Prog.Triple (fun s : Faulty Soc => I { s.dev with bridges := s.dev.bridges.add ⟨dev, ops⟩ }) (register dev ops)
      (fun _ s => I s.dev) E :=
  update_triple (I := fun s : Soc => I { s with bridges := s.bridges.add ⟨dev, ops⟩ }) _ fun _ here => here

section
variable {E : Stop → Faulty Soc → Prop} (known : dev ∈ devices) (new : dev ∉ before)
include known new

/-- The drivers of the bridge controllers set the driver data and register. -/
theorem registered_enters (f : Soc → Soc) (holds : ¬ dev.driver.holdsScu)
    (same : ∀ s : Soc, f { s with live := dev :: s.live } =
      { s with live := dev :: s.live, bridges := wire dev s.bridges dev.driver.bridgectls }) {m : Prog (Faulty Soc) Unit}
    (rest : Prog.Triple (fun s => InUse devices before (dev.driver.rank + 1) extra held (f s.dev)) m
      (fun _ s => InUse devices before (dev.driver.rank + 1) extra held s.dev) E) :
    Prog.Triple (fun s => InUse devices before dev.driver.rank extra held s.dev)
      (do setDrvdata dev; m) (fun _ s => InUse devices before (dev.driver.rank + 1) extra held s.dev) E := by
  refine (update_triple (K := fun s => InUse devices before (dev.driver.rank + 1) extra held (f s)) _
    fun s inUse => ?_).bind fun _ => rest
  rw [same]
  exact inUse.initialised new known holds s.ctlReadVal

theorem registerOne_enters {ops : BridgectlOps} (holds : ¬ dev.driver.holdsScu) (own : dev.driver.bridgectls = [ops]) :
    Prog.Triple (fun s => InUse devices before dev.driver.rank extra held s.dev)
      (do setDrvdata dev; register dev ops)
      (fun _ s => InUse devices before (dev.driver.rank + 1) extra held s.dev) E := by
  refine registered_enters known new (fun s => { s with bridges := s.bridges.add ⟨dev, ops⟩ }) holds (fun s => ?_)
    (register_triple dev ops)
  rw [own]
  rfl

theorem registerTwo_enters {first second : BridgectlOps} (holds : ¬ dev.driver.holdsScu)
    (own : dev.driver.bridgectls = [second, first]) :
    Prog.Triple (fun s => InUse devices before dev.driver.rank extra held s.dev)
      (do setDrvdata dev; register dev first; register dev second)
      (fun _ s => InUse devices before (dev.driver.rank + 1) extra held s.dev) E := by
  refine registered_enters known new
    (fun s => { s with bridges := (s.bridges.add ⟨dev, first⟩).add ⟨dev, second⟩ }) holds (fun s => ?_) ?_
  · rw [own]
    rfl
  · have next := register_triple (I := fun s => InUse devices before (dev.driver.rank + 1) extra held
      { s with bridges := s.bridges.add ⟨dev, second⟩ }) (E := E) dev first
    exact next.bind fun _ => register_triple dev second

end

theorem debugctlDriverInit_enters (known : dev ∈ devices) (new : dev ∉ before) (driver : dev.driver = .debugctl) :
    Enters devices before dev extra held (debugctlDriverInit dev) := by
  refine Enters.of (malloc_triple.bind fun _ => (bridgesGet_inUse (by rw [driver]; decide)).bind fun b => ?_)
  refine Prog.Triple.ite ?_ (Prog.Triple.fail fun _ here => here)
  exact registerOne_enters known new (by rw [driver]; decide) (by rw [driver]; rfl)

theorem ilpcctlDriverInit_enters (one : OneScu devices) (gen : AstGeneration) (known : dev ∈ devices)
    (new : dev ∉ before) (driver : dev.driver = .ilpcctl) :
    Enters devices before dev extra held (ilpcctlDriverInit gen dev) := by
  refine Enters.of (malloc_triple.bind fun _ => (sioctlGet_inUse one (by rw [driver]; decide)).bind fun b => ?_)
  refine Prog.Triple.ite ((bridgesGetOn_inUse (by rw [driver]; decide) gen).bind fun b => ?_) still_enters
  refine Prog.Triple.ite ?_ (Prog.Triple.fail fun _ here => here)
  exact registerOne_enters known new (by rw [driver]; decide) (by rw [driver]; rfl)

theorem pciectlDriverInit_enters (gen : AstGeneration) (known : dev ∈ devices) (new : dev ∉ before)
    (driver : dev.driver = .pciectl) : Enters devices before dev extra held (pciectlDriverInit gen dev) := by
  refine Enters.of (malloc_triple.bind fun _ => (sdmcGet_inUse (by rw [driver]; decide)).bind fun b => ?_)
  refine Prog.Triple.ite ((bridgesGetOn_inUse (by rw [driver]; decide) gen).bind fun b => ?_) still_enters
  refine Prog.Triple.ite ?_ still_enters
  exact registerTwo_enters known new (by rw [driver]; decide) (by rw [driver]; rfl)

/-- Every `init` keeps the accounts, that of the JTAG master apart. -/
theorem driverInit_enters (one : OneScu devices) (gen : AstGeneration) (known : dev ∈ devices) (new : dev ∉ before)
    (other : dev.driver ≠ .jtag) : Enters devices before dev extra held (driverInit gen dev) := by
  rw [driverInit]
  cases driver : dev.driver with
  | jtag => exact absurd driver other
  | scu => exact scuDriverInit_enters one known driver new
  | clk | strap => exact scuUserDriverInit_enters one known new (by rw [driver]; rfl) (by rw [driver]; decide)
  | bridges | otp | sdmc | vuart =>
    exact plainDriverInit_enters known new (by rw [driver]; decide) (by rw [driver]; rfl)
  | uartMux => exact uartMuxDriverInit_enters known new driver
  | trace => exact traceDriverInit_enters known new driver
  | sioctl => exact sioctlDriverInit_enters one known new driver
  | wdt => exact wdtDriverInit_enters one known new driver
  | sfc => exact sfcDriverInit_enters one known new driver
  | debugctl => exact debugctlDriverInit_enters known new driver
  | ilpcctl => exact ilpcctlDriverInit_enters one gen known new driver
  | pciectl => exact pciectlDriverInit_enters gen known new driver

end Soc

end Culvert
