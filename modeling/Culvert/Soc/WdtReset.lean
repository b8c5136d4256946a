import Culvert.Cmd.Session
import Culvert.Lib.Bits
import Culvert.Lib.Passes
import Culvert.Lib.Trace

/-! What `wdt_perform_reset` writes to start the countdown, and what it has written before. -/

namespace Culvert

open Prog Faulty

/-- Registers, and the writes to them, latest first. -/
structure Journal where
  regs : Regs
  writes : List (Word × Word)

/-- A write is entered at the front. -/
def Journal.push (j : Journal) (phys val : Word) : Journal := ⟨Function.update j.regs phys val, (phys, val) :: j.writes⟩

def journalBus : Bus Journal where
  readl phys j := (j.regs phys, j)
  writel phys val j := j.push phys val

/-- A program that may do anything to the registers, a reset among others, but writes none over the bus. -/
def offBus (m : Prog (Faulty Regs) Unit) : Prog (Faulty Journal) Unit :=
  zoom (fun s => ⟨s.dev.regs, s.fails, s.accesses⟩)
    (fun s s' => ⟨{ s.dev with regs := s'.dev }, s'.fails, s'.accesses⟩) m

/-- A host whose bridge is released and comes back. -/
def bridgeHost (release reinit : Prog (Faulty Regs) Unit) : CmdHost Journal :=
  ⟨.ok (), true, .ok (), false, offBus release, offBus reinit⟩

/-- Nothing written yet. -/
def unwritten (regs : Regs) (fails : Nat → Option Errno) : Session Journal :=
  ⟨⟨⟨regs, []⟩, fails, 0⟩, fun _ => true, 0, [], []⟩

/-- The reset mode field. -/
def wdtCtrlResetMode : Word := 0b11 <<< 5

/-- The bits of the control register that a reset decides. -/
def wdtCtrlDecided : Word :=
  wdtCtrlResetMode ||| wdtCtrlAltBoot ||| wdtCtrlClk1mhz ||| wdtCtrlSysReset ||| wdtCtrlEnable

/-- The countdown is started as it should be: by a good control value, with the rest set up before. -/
structure StartsReset (wdt : Wdt) (prior val : Word) (earlier : List (Word × Word)) : Prop where
  mode : val &&& wdtCtrlResetMode = wdtCtrlResetSoc
  clock : val &&& wdtCtrlClk1mhz ≠ 0
  system : val &&& wdtCtrlSysReset ≠ 0
  primary : val &&& wdtCtrlAltBoot = 0
  rest : Within wdtCtrlDecided prior val
  reload : (wdt.start + wdtReload, 5000000) ∈ earlier
  mask : (wdt.start + wdtResetMask, 0x23ffffb) ∈ earlier
  restart : (wdt.start + wdtRestart, wdtRestartMagic) ∈ earlier

/-- Every write that starts the countdown. -/
def StartsOnlyReset (wdt : Wdt) (prior : Word) (writes : List (Word × Word)) : Prop :=
  ∀ later val earlier, writes = later ++ (wdt.start + wdtCtrl, val) :: earlier → val &&& wdtCtrlEnable ≠ 0 →
    StartsReset wdt prior val earlier

/-- Not one of the writes starts the countdown. -/
def Idle (wdt : Wdt) (write : Word × Word) : Prop := write.1 = wdt.start + wdtCtrl → write.2 &&& wdtCtrlEnable = 0

section
variable {wdt : Wdt} {prior phys : Word} {j : Journal} {I : Journal → Prop} {writes : List (Word × Word)}

theorem wdtReg_ne {wdt : Wdt} {reg : Word} (other : reg ≠ wdtCtrl) : wdt.start + reg ≠ wdt.start + wdtCtrl :=
  fun same => other ((BitVec.add_right_inj _).mp same)

theorem journal_read (safe : I j) : Passes I j (socReadl journalBus phys) fun val j' => val = j.regs phys ∧ j' = j :=
  Passes.access safe ⟨rfl, rfl⟩

theorem journal_write {val : Word} (safe : I j) :
    Passes I j (socWritel journalBus phys val) fun _ j' => j' = j.push phys val := Passes.access safe rfl

theorem journal_modify {f : Word → Word} (safe : I j) : Passes I j (do
      let val ← socReadl journalBus phys
      socWritel journalBus phys (f val)) fun _ j' => j' = j.push phys (f (j.regs phys)) := by
  refine (journal_read safe).bind ?_
  rintro _ _ ⟨rfl, rfl⟩
  exact journal_write safe

/-- The control register once it is stopped and once it has its clock. -/
def stopped (prior : Word) : Word := prior &&& ~~~wdtCtrlEnable
def clocked (prior : Word) : Word := stopped prior ||| wdtCtrlClk1mhz

/-- The writes of a reset up to the start of the countdown. -/
def startWrites (wdt : Wdt) (prior : Word) : List (Word × Word) :=
  [(wdt.start + wdtRestart, wdtRestartMagic), (wdt.start + wdtReload, 5000000), (wdt.start + wdtResetMask, 0x23ffffb),
    (wdt.start + wdtCtrl, clocked prior), (wdt.start + wdtCtrl, stopped prior)]

theorem stopped_idle (prior : Word) : Idle wdt (wdt.start + wdtCtrl, stopped prior) :=
  fun _ => BitVec.and_not_and_self prior wdtCtrlEnable

theorem clocked_idle (prior : Word) : Idle wdt (wdt.start + wdtCtrl, clocked prior) :=
  fun _ => BitVec.and_not_or_and prior wdtCtrlEnable (by decide)

theorem other_idle {reg val : Word} (other : reg ≠ wdtCtrl) : Idle wdt (wdt.start + reg, val) :=
  fun same => absurd same (wdtReg_ne other)

theorem clocked_clock (prior : Word) : clocked prior &&& wdtCtrlClk1mhz ≠ 0 := by
  rw [clocked, BitVec.or_and_self_right]
  decide

/-- The control register is what was written to it last. -/
theorem Journal.ctrl_self (j : Journal) (wdt : Wdt) (val : Word) :
    (j.push (wdt.start + wdtCtrl) val).regs (wdt.start + wdtCtrl) = val := Function.update_self _ _ _

theorem Journal.ctrl_other (j : Journal) (wdt : Wdt) {reg : Word} (val : Word) (other : reg ≠ wdtCtrl) :
    (j.push (wdt.start + reg) val).regs (wdt.start + wdtCtrl) = j.regs (wdt.start + wdtCtrl) :=
  Function.update_of_ne (wdtReg_ne other).symm _ _

/-- What is there and what is added is idle. -/
theorem Journal.idle_push {val : Word} (idle : ∀ w ∈ j.writes, Idle wdt w) (next : Idle wdt (phys, val)) :
    ∀ w ∈ (j.push phys val).writes, Idle wdt w := List.forall_mem_cons.mpr ⟨next, idle⟩

/-- No write that starts the countdown so far. -/
def NotStarted (wdt : Wdt) (j : Journal) : Prop := ∀ w ∈ j.writes, Idle wdt w

/-- The watchdog stopped, with its clock and its mask. -/
def configured (wdt : Wdt) (j : Journal) : Journal :=
  let prior := j.regs (wdt.start + wdtCtrl)
  ((j.push (wdt.start + wdtCtrl) (stopped prior)).push (wdt.start + wdtCtrl) (clocked prior)).push
    (wdt.start + wdtResetMask) 0x23ffffb

theorem configured_notStarted (safe : NotStarted wdt j) : NotStarted wdt (configured wdt j) :=
  Journal.idle_push (Journal.idle_push (Journal.idle_push safe (stopped_idle _)) (clocked_idle _)) (other_idle (by decide))

theorem configured_ctrl : (configured wdt j).regs (wdt.start + wdtCtrl) = clocked (j.regs (wdt.start + wdtCtrl)) := by
  rw [configured, Journal.ctrl_other _ _ _ (by decide), Journal.ctrl_self]

theorem wdtConfigure_passes (safe : NotStarted wdt j) : Passes (NotStarted wdt) j (wdtConfigure journalBus wdt)
    fun _ j' => j' = configured wdt j := by
  have off : NotStarted wdt (j.push (wdt.start + wdtCtrl) (stopped (j.regs (wdt.start + wdtCtrl)))) :=
    Journal.idle_push safe (stopped_idle _)
  have on : NotStarted wdt ((j.push (wdt.start + wdtCtrl) (stopped (j.regs (wdt.start + wdtCtrl)))).push
      (wdt.start + wdtCtrl) (clocked (j.regs (wdt.start + wdtCtrl)))) := Journal.idle_push off (clocked_idle _)
  refine Passes.bind (journal_modify (f := (· &&& ~~~wdtCtrlEnable)) safe) ?_
  rintro _ _ rfl
  refine Passes.bind (journal_modify (f := (· ||| wdtCtrlClk1mhz)) off) ?_
  rintro _ j' modified
  rw [Journal.ctrl_self] at modified
  rw [modified]
  exact journal_write on

theorem wdtUsecsToTicks_passes (safe : NotStarted wdt j) {prior : Word}
    (clock : j.regs (wdt.start + wdtCtrl) = clocked prior) :
    Passes (NotStarted wdt) j (wdtUsecsToTicks journalBus wdt 5000000) fun wait j' => wait = 5000000 ∧ j' = j := by
  refine Passes.bind (journal_read safe) ?_
  rintro _ _ ⟨rfl, rfl⟩
  rw [clock, if_neg (clocked_clock prior)]
  exact Passes.pure ⟨rfl, rfl⟩

/-- The watchdog about to be started. -/
def loaded (wdt : Wdt) (j : Journal) : Journal :=
  (j.push (wdt.start + wdtReload) 5000000).push (wdt.start + wdtRestart) wdtRestartMagic

theorem wdtRun_passes (safe : NotStarted wdt j) : Passes (NotStarted wdt) j (wdtRun journalBus wdt 5000000)
    fun _ j' => j' = (loaded wdt j).push (wdt.start + wdtCtrl) (wdtResetMode (j.regs (wdt.start + wdtCtrl))) := by
  have reload : NotStarted wdt (j.push (wdt.start + wdtReload) 5000000) := Journal.idle_push safe (other_idle (by decide))
  have restart : NotStarted wdt (loaded wdt j) := Journal.idle_push reload (other_idle (by decide))
  refine Passes.bind (journal_write safe) ?_
  rintro _ _ rfl
  refine Passes.bind (journal_write reload) ?_
  rintro _ _ rfl
  have modify := @journal_modify (wdt.start + wdtCtrl) (loaded wdt j) (NotStarted wdt) wdtResetMode restart
  rw [loaded, Journal.ctrl_other _ _ _ (by decide), Journal.ctrl_other _ _ _ (by decide)] at modify
  exact modify

/-- The control value that starts the countdown. -/
def startValue (prior : Word) : Word := wdtResetMode (clocked prior)

theorem wdtArm_passes (safe : NotStarted wdt j) : Passes (NotStarted wdt) j (wdtArm journalBus wdt) fun _ j' =>
    j' = (loaded wdt (configured wdt j)).push (wdt.start + wdtCtrl) (startValue (j.regs (wdt.start + wdtCtrl))) := by
  refine Passes.bind (wdtConfigure_passes safe) ?_
  rintro _ _ rfl
  refine Passes.bind (wdtUsecsToTicks_passes (configured_notStarted safe) configured_ctrl) ?_
  rintro _ _ ⟨rfl, rfl⟩
  have run := @wdtRun_passes wdt (configured wdt j) (configured_notStarted safe)
  rw [configured_ctrl] at run
  exact run

/-! ## The value -/

theorem startValue_within {mask : Word} (off : wdtCtrlEnable &&& ~~~mask = 0) (clock : wdtCtrlClk1mhz &&& ~~~mask = 0)
    (set : (wdtCtrlResetSoc ||| wdtCtrlSysReset ||| wdtCtrlEnable) &&& ~~~mask = 0) (alt : wdtCtrlAltBoot &&& ~~~mask = 0)
    (prior : Word) : Within mask prior (startValue prior) :=
  (((Within.clear off prior).trans (Within.set clock _)).trans (Within.set set _)).trans (Within.clear alt _)

/-- The constant for a reset of the SoC sets no bit. -/
theorem startValue_mode (prior : Word) : startValue prior &&& wdtCtrlResetMode = prior &&& wdtCtrlResetMode := by
  have within := @startValue_within (~~~wdtCtrlResetMode) (by decide) (by decide) (by decide) (by decide) prior
  rw [Within, BitVec.not_not] at within
  exact within

theorem and_ne_zero {x bits : Word} (i : Nat) (set : x.getLsbD i = true) (among : bits.getLsbD i = true) : x &&& bits ≠ 0 := by
  intro none
  have bit := congrArg (fun w : Word => w.getLsbD i) none
  simp only [BitVec.getLsbD_and, set, among, Bool.and_self] at bit
  exact absurd bit.symm (by simp)

/-- The bits for the clock, for the system reset and to enable are set. -/
theorem startValue_bits (prior : Word) :
    startValue prior &&& wdtCtrlClk1mhz ≠ 0 ∧ startValue prior &&& wdtCtrlSysReset ≠ 0 ∧ startValue prior &&& wdtCtrlEnable ≠ 0 := by
  refine ⟨and_ne_zero 4 ?_ (by decide), and_ne_zero 1 ?_ (by decide), and_ne_zero 0 ?_ (by decide)⟩
  · simp [startValue, clocked, wdtResetMode, wdtCtrlAltBoot, wdtCtrlResetSoc, wdtCtrlSysReset, wdtCtrlEnable, wdtCtrlClk1mhz]
  · simp [startValue, wdtResetMode, wdtCtrlAltBoot, wdtCtrlResetSoc, wdtCtrlSysReset, wdtCtrlEnable]
  · simp [startValue, wdtResetMode, wdtCtrlAltBoot, wdtCtrlResetSoc, wdtCtrlSysReset, wdtCtrlEnable]

theorem startsReset_iff (wdt : Wdt) (prior : Word) : StartsReset wdt prior (startValue prior) (startWrites wdt prior) ↔
    prior &&& wdtCtrlResetMode = 0 := by
  constructor
  · intro starts
    rw [← startValue_mode]
    exact starts.mode
  · intro soc
    obtain ⟨clock, system, _⟩ := startValue_bits prior
    refine ⟨(startValue_mode prior).trans soc, clock, system, BitVec.and_not_and_self _ wdtCtrlAltBoot,
      startValue_within (by decide) (by decide) (by decide) (by decide) prior, ?_, ?_, ?_⟩
    · simp [startWrites]
    · simp [startWrites]
    · simp [startWrites]

/-- No write to the control register. -/
def Spares (wdt : Wdt) (write : Word × Word) : Prop := write.1 ≠ wdt.start + wdtCtrl

theorem startsOnlyReset_iff {new : List (Word × Word)} (spares : ∀ w ∈ new, Spares wdt w) :
    StartsOnlyReset wdt prior (new ++ (wdt.start + wdtCtrl, startValue prior) :: startWrites wdt prior) ↔
      prior &&& wdtCtrlResetMode = 0 := by
  rw [← startsReset_iff wdt prior]
  have old : ∀ w ∈ startWrites wdt prior, ¬ (w.1 = wdt.start + wdtCtrl ∧ w.2 &&& wdtCtrlEnable ≠ 0) := by
    have idle : ∀ w ∈ startWrites wdt prior, Idle wdt w := by
      simp only [startWrites, List.forall_mem_cons]
      exact ⟨other_idle (by decide), other_idle (by decide), other_idle (by decide), clocked_idle prior, stopped_idle prior,
        fun _ never => nomatch never⟩
    exact fun w mem started => started.2 (idle w mem started.1)
  have enabled : startValue prior &&& wdtCtrlEnable ≠ 0 := (startValue_bits prior).2.2
  constructor
  · intro only
    exact only new (startValue prior) (startWrites wdt prior) rfl enabled
  · intro starts later val earlier same started
    obtain ⟨write, rest⟩ := only_entry (P := fun w : Word × Word => w.1 = wdt.start + wdtCtrl ∧ w.2 &&& wdtCtrlEnable ≠ 0)
      (fun w mem start => spares w mem start.1) old ⟨rfl, started⟩ same
    injection write with _ value
    rw [← value, ← rest]
    exact starts

theorem startsOnlyReset_of_idle (idle : ∀ w ∈ writes, Idle wdt w) : StartsOnlyReset wdt prior writes := by
  rintro later val earlier rfl started
  exact absurd (idle (wdt.start + wdtCtrl, val) (List.mem_append_right later List.mem_cons_self) rfl) started

end

/-! ## The whole call -/

section
variable {wdt : Wdt} {gen : AstGeneration} {release reinit : Prog (Faulty Regs) Unit} {regs : Regs}
variable {fails : Nat → Option Errno}

/-- Only writes to other registers were added. -/
def Added (wdt : Wdt) (s s' : Faulty Journal) : Prop := Grown (Spares wdt) s.dev.writes s'.dev.writes

instance (wdt : Wdt) : IsPreorder (Faulty Journal) (Added wdt) where
  refl _ := Grown.refl _ _
  trans _ _ _ := Grown.trans

/-- The same of a session. -/
def SessionAdded (wdt : Wdt) (s s' : Session Journal) : Prop := Added wdt s.soc s'.soc

instance (wdt : Wdt) : IsPreorder (Session Journal) (SessionAdded wdt) where
  refl _ := Grown.refl _ _
  trans _ _ _ := Grown.trans

theorem offBus_added (m : Prog (Faulty Regs) Unit) : Keeps (Added wdt) (offBus m) :=
  zoom_keeps fun _ _ => Grown.refl _ _

theorem socWritel_added {phys : Word} (val : Word) (other : phys ≠ wdt.start + wdtCtrl) :
    Keeps (Added wdt) (socWritel journalBus phys val) := by
  intro s
  have run : ((socWritel journalBus phys val).run s).state.dev = s.dev ∨
      ((socWritel journalBus phys val).run s).state.dev = s.dev.push phys val :=
    access_dev (fun j : Journal => ((), j.push phys val)) s
  rw [Added]
  rcases run with same | written
  · rw [same]
    exact Grown.refl _ _
  · rw [written]
    exact Grown.cons (Grown.refl _ _) other

theorem onSoc_added {m : Prog (Faulty Journal) Unit} (added : Keeps (Added wdt) m) :
    Keeps (SessionAdded wdt) (Session.onSoc m) := added.zoom fun _ _ part => part

theorem clkEnable_added (gen : AstGeneration) : Keeps (Added wdt) (clkEnable journalBus gen .arm) := by
  have other (reg : Word) (apart : ∀ wdt : Wdt, scuBase + reg ≠ wdt.start + wdtCtrl) :
      Keeps (Added wdt) (scuWritel journalBus reg scuClkStrapArm) := socWritel_added _ (apart wdt)
  cases gen with
  | g4 => exact other scuSiliconRevision fun wdt => by cases wdt <;> decide
  | g5 => exact other scuSiliconRevision fun wdt => by cases wdt <;> decide
  | g6 => exact other ast2600ScuHwStrap1Clear fun wdt => by cases wdt <;> decide

/-- Once the countdown is started, nothing starts it again. -/
theorem wdtPerformReset_rest_added (gen : AstGeneration) : Keeps (SessionAdded wdt) (do
    armEnable journalBus gen
    Session.onSoc (wdtWritel journalBus wdt wdtReload 0)) := by
  have note : Keeps (SessionAdded wdt) (Session.note .ungated : Prog (Session Journal) Unit) := fun _ => Grown.refl _ _
  have arm : Keeps (SessionAdded wdt) (armEnable journalBus gen) :=
    note.bind fun _ => onSoc_added (clkEnable_added gen)
  exact arm.bind fun _ => onSoc_added (socWritel_added 0 (wdtReg_ne (by decide)))

/-- What the whole call writes, latest first. -/
def resetWrites (wdt : Wdt) (gen : AstGeneration) (release reinit : Prog (Faulty Regs) Unit) (regs : Regs)
    (fails : Nat → Option Errno) : List (Word × Word) :=
  ((wdtPerformReset journalBus gen (bridgeHost release reinit) wdt).run (unwritten regs fails)).state.soc.dev.writes

/-- A call that stops before the countdown starts does not start it. -/
theorem resetWrites_stopped {e : Stop} {s' : Faulty Journal}
    (run : (wdtArm journalBus wdt).run ⟨⟨regs, []⟩, fails, 0⟩ = .error e s') :
    ∀ w ∈ resetWrites wdt gen release reinit regs fails, Idle wdt w := by
  have safe : NotStarted wdt ⟨regs, []⟩ := fun _ never => nomatch never
  have idle : NotStarted wdt s'.dev := (@wdtArm_passes wdt ⟨regs, []⟩ safe _ rfl).2 e s' run
  have expire : (wdtExpire journalBus (bridgeHost release reinit) wdt).run ⟨⟨regs, []⟩, fails, 0⟩ = .error e s' :=
    run_bind_error run
  have whole : (wdtPerformReset journalBus gen (bridgeHost release reinit) wdt).run (unwritten regs fails) =
      .error e { unwritten regs fails with soc := s' } := run_bind_error (zoom_error_iff.mpr ⟨s', expire, rfl⟩)
  rw [resetWrites, whole]
  exact idle

theorem resetWrites_started {s' : Faulty Journal} (run : (wdtArm journalBus wdt).run ⟨⟨regs, []⟩, fails, 0⟩ = .ok () s') :
    Grown (Spares wdt) ((wdt.start + wdtCtrl, startValue (regs (wdt.start + wdtCtrl))) ::
      startWrites wdt (regs (wdt.start + wdtCtrl))) (resetWrites wdt gen release reinit regs fails) := by
  have safe : NotStarted wdt ⟨regs, []⟩ := fun _ never => nomatch never
  have armed := (@wdtArm_passes wdt ⟨regs, []⟩ safe _ rfl).1 () s' run
  have expire : Added wdt s' ((wdtExpire journalBus (bridgeHost release reinit) wdt).run ⟨⟨regs, []⟩, fails, 0⟩).state := by
    rw [wdtExpire, run_bind_ok run]
    exact ((offBus_added release).bind fun _ => offBus_added reinit) s'
  have session : SessionAdded wdt { unwritten regs fails with soc := s' }
      ((wdtPerformReset journalBus gen (bridgeHost release reinit) wdt).run (unwritten regs fails)).state := by
    refine state_bind (F := fun s => SessionAdded wdt { unwritten regs fails with soc := s' } s) ?_
      (fun _ => wdtPerformReset_rest_added gen) fun _ _ first second => Grown.trans first second
    rw [Session.onSoc, zoom_state]
    exact expire
  have start : s'.dev.writes = (wdt.start + wdtCtrl, startValue (regs (wdt.start + wdtCtrl))) ::
      startWrites wdt (regs (wdt.start + wdtCtrl)) := by
    rw [armed]
    rfl
  rw [← start]
  exact session

end

theorem wdtClock_journal (wdt : Wdt) (j : Journal) :
    (wdtClock journalBus wdt j).1 = clocked (j.regs (wdt.start + wdtCtrl)) := by
  let stop := j.push (wdt.start + wdtCtrl) (stopped (j.regs (wdt.start + wdtCtrl)))
  show ((stop.push (wdt.start + wdtCtrl) (stop.regs (wdt.start + wdtCtrl) ||| wdtCtrlClk1mhz)).push
    (wdt.start + wdtResetMask) 0x23ffffb).regs (wdt.start + wdtCtrl) = _
  rw [Journal.ctrl_other _ _ _ (by decide), Journal.ctrl_self, Journal.ctrl_self, clocked]

/-- The watchdog is started for a reset of the SoC and nothing else exactly if its mode was clear before, for the new
mode is added to it, or one of the first ten accesses fails. -/
theorem resetWrites_iff (wdt : Wdt) (gen : AstGeneration) (release reinit : Prog (Faulty Regs) Unit) (regs : Regs)
    (fails : Nat → Option Errno) :
    StartsOnlyReset wdt (regs (wdt.start + wdtCtrl)) (resetWrites wdt gen release reinit regs fails) ↔
      regs (wdt.start + wdtCtrl) &&& wdtCtrlResetMode = 0 ∨ ∃ k < 10, fails k ≠ none := by
  have clock : (wdtClock journalBus wdt ⟨regs, []⟩).1 &&& wdtCtrlClk1mhz ≠ 0 := by
    rw [wdtClock_journal]
    exact clocked_clock _
  have takes := wdtArm_takes journalBus wdt ⟨regs, []⟩ clock
  rcases clear_or_firstFails ⟨(⟨regs, []⟩ : Journal), fails, 0⟩ 10 with clear | ⟨k, lt, first⟩
  · obtain ⟨new, writes, spares⟩ := @resetWrites_started wdt gen release reinit regs fails _ (takes.clear _ rfl clear)
    rw [writes, startsOnlyReset_iff spares]
    refine ⟨Or.inl, fun either => either.resolve_right ?_⟩
    rintro ⟨k, lt, failed⟩
    have fine : fails (0 + k) = none := clear k lt
    rw [Nat.zero_add] at fine
    exact failed fine
  · obtain ⟨e, mid, _, run⟩ := takes.failed _ k rfl lt first
    obtain ⟨e', failed⟩ := first.2
    have here : fails (0 + k) = some e' := failed
    rw [Nat.zero_add] at here
    refine iff_of_true (startsOnlyReset_of_idle (resetWrites_stopped run)) (Or.inr ⟨k, lt, ?_⟩)
    rw [here]
    exact Option.some_ne_none e'

/-- A watchdog that was left to reset the CPU only starts to reset the CPU only. -/
theorem resetWrites_cpu : ¬ StartsOnlyReset .wdt1 0x40
    (resetWrites .wdt1 .g5 (pure ()) (pure ()) (fun _ => 0x40) fun _ => none) := by
  intro only
  have clock : (wdtClock journalBus .wdt1 ⟨fun _ => 0x40, []⟩).1 &&& wdtCtrlClk1mhz ≠ 0 := by
    rw [wdtClock_journal]
    exact clocked_clock _
  have run := (wdtArm_takes journalBus .wdt1 ⟨fun _ => 0x40, []⟩ clock).clear ⟨⟨fun _ => 0x40, []⟩, fun _ => none, 0⟩ rfl
    fun _ _ => rfl
  obtain ⟨new, writes, spares⟩ := @resetWrites_started .wdt1 .g5 (pure ()) (pure ()) (fun _ => 0x40) (fun _ => none) _ run
  rw [writes] at only
  exact absurd ((startsOnlyReset_iff spares).mp only) (by decide)

end Culvert
