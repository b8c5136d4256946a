import Culvert.Cmd.Coprocessor
import Culvert.Cmd.ViaCommands

/-! Runs of the command `coprocessor`. -/

namespace Culvert
open Prog

/-- The size is 32 MiB, or none is given: a `via` counts as a word. -/
theorem cmdCoprocessor_memArgs {drivers : List BridgeDriver} {items : List ArgpItem} {args : CmdArgs CmdCoprocessorArgs}
    (parsed : cmdCoprocessor.parse drivers items = .ok args) :
    args.own.memBase.toNat ≤ 2 ^ 32 - 1 ∧ (args.own.memSize = 0 ∨ args.own.memSize = coprocTotalMemSize) := by
  have number {label arg : String} {val : Size} (run : parseMemArg label arg = .ok val) : val.toNat ≤ 2 ^ 32 - 1 := by
    simp only [parseMemArg] at run
    split at run
    · cases run
    · by_cases far : (Text.strtoul 0 arg.toList).1 > uint32Max
      · rw [if_pos far] at run
        cases run
      · rw [if_neg far] at run
        split at run
        · cases run
        · cases run
          rw [BitVec.toNat_ofNat]
          rw [uint32Max] at far
          omega
  refine ViaCommand.parse_own (P := fun own => own.memBase.toNat ≤ 2 ^ 32 - 1 ∧
    (own.memSize = 0 ∨ own.memSize = coprocTotalMemSize)) ⟨by decide, Or.inl rfl⟩ ?_ ?_ ?_ parsed
  · intro key arg own own' _ run
    cases run
  · intro arg argNum own own' here run
    simp only [cmdCoprocessor] at run
    obtain _ | _ | _ | _ := argNum
    · dsimp only at run
      split at run
      · cases run
      · cases run
        exact here
    all_goals
      dsimp only at run
      split at run
      case isTrue =>
        cases run
        exact here
    · obtain ⟨memBase, first, same⟩ := except_bind_ok_iff.mp run
      cases same
      exact ⟨number first, here.2⟩
    · obtain ⟨memSize, first, last⟩ := except_bind_ok_iff.mp run
      split at last
      · cases last
      case isFalse whole =>
        cases last
        exact ⟨here.1, Or.inr (not_not.mp whole)⟩
    · cases run
      exact here
  · intro argNum own own' here run
    simp only [cmdCoprocessor] at run
    split at run
    · cases run
    split at run
    · cases run
    · cases run
      exact here

/-- A command line that was accepted, with what the command meets. -/
structure CoprocCommand where
  disabled : String → Bool
  items : List ArgpItem
  args : CmdArgs CmdCoprocessorArgs
  parsed : cmdCoprocessor.parse (bridgeDrivers disabled) items = .ok args
  host : CoprocHost
  stdin : Fd
  memory : Bool
  fuel : Nat

namespace CoprocCommand

def memArgs (command : CoprocCommand) : MemArgs .w64 where
  memBase := command.args.own.memBase
  memSize := command.args.own.memSize
  base_le := (cmdCoprocessor_memArgs command.parsed).1
  size_le := by
    rcases (cmdCoprocessor_memArgs command.parsed).2 with none | whole
    · rw [none]
      decide
    · rw [whole]
      decide

/-- What a `run` is to load, and where to. -/
def loads (command : CoprocCommand) : CoprocRegion × List Byte :=
  (command.memArgs.region, command.memArgs.firmware command.stdin.bytes)

end CoprocCommand

section
variable {σ : Type} (call : MemOp → Prog σ MemReply)

def doCoprocessor (command : CoprocCommand) : Prog (Siphon σ) Int :=
  match command.args.own.mode with
  | .run => coprocessorRun call command.host command.memArgs command.fuel
  | .stop => coprocessorStop call command.host

/-- A command over a bridge to the memory, with the status it returns unless it does not return. -/
def CoprocStep (I : σ → Prop) (mem : σ → Mem) (m : Mem) (e : CoprocCommand × Option Int) (m' : Mem) : Prop :=
  ∃ ahb, I ahb ∧ mem ahb = m ∧
    match (doCoprocessor call e.1).run ⟨ahb, e.1.stdin, e.1.memory⟩ with
    | .ok status s => e.2 = some status ∧ m' = mem s.ahb
    | .error _ s => e.2 = none ∧ m' = mem s.ahb

end

/-- The firmware that the coprocessor runs, and where. -/
abbrev Coproc := Option (CoprocRegion × List Byte)

/-- What the memory shows of it. -/
def CoprocShows (m : Mem) : Coproc → Prop
  | none => CoprocReg.ctrl.get m &&& scuCoprocCtrlEn = 0
  | some (region, firmware) => CoprocRunning region firmware m

/-- A command that returns 0 has done what it is for. One that returns something else has stopped the coprocessor if it
has changed anything; one that does not return may also have started it. -/
def CoprocPlay (state : Coproc) (e : CoprocCommand × Option Int) (state' : Coproc) : Prop :=
  match e.2, e.1.args.own.mode with
  | some 0, .run => state' = some e.1.loads
  | some 0, .stop => state' = none
  | none, .run => state' = state ∨ state' = none ∨ state' = some e.1.loads
  | _, _ => state' = state ∨ state' = none

theorem CoprocAlone.shows {m m' : Mem} {state : Coproc} (alone : CoprocAlone m m') (shows : CoprocShows m state) :
    CoprocShows m' state := by
  rcases state with _ | ⟨region, firmware⟩
  · rw [CoprocShows, alone.get (by decide)]
    exact shows
  · exact CoprocRunning.alone shows alone

theorem CoprocHeld.shows {region : CoprocRegion} {m m' : Mem} (held : CoprocHeld region m m') : CoprocShows m' none := by
  rw [CoprocShows]
  rcases held.ctrl with zero | reset
  · rw [zero]
    decide
  · rw [reset]
    decide

/-- A command that is stopped on the way. -/
theorem CoprocPaused.shows {region : CoprocRegion} {m m' : Mem} {state : Coproc} (paused : CoprocPaused region m m')
    (shows : CoprocShows m state) : ∃ state', (state' = state ∨ state' = none) ∧ CoprocShows m' state' := by
  rcases paused with alone | held
  · exact ⟨state, Or.inl rfl, alone.shows shows⟩
  · exact ⟨none, Or.inr rfl, held.shows⟩

theorem CoprocPaused.frame {region : CoprocRegion} {m m' : Mem} (paused : CoprocPaused region m m') :
    CoprocFrame (fun _ => True) region m m' := by
  rcases paused with alone | held
  · exact alone.frame region
  · exact held.frame

section
variable {σ : Type} {call : MemOp → Prog σ MemReply} {I : σ → Prop} {mem : σ → Mem} {m m' : Mem} {state : Coproc}
variable {e : CoprocCommand × Option Int}

theorem CoprocStep.plays (serve : CallsServe call I mem MemOp.Plain) (step : CoprocStep call I mem m e m')
    (shows : CoprocShows m state) : (∃ state', CoprocPlay state e state' ∧ CoprocShows m' state') ∧
      CoprocFrame (fun _ => True) e.1.memArgs.region m m' := by
  obtain ⟨command, answer⟩ := e
  obtain ⟨ahb, inv, there, outcome⟩ := step
  have start : CoprocAt I mem (fun fd => fd.bytes = command.stdin.bytes) m ⟨ahb, command.stdin, command.memory⟩ :=
    ⟨⟨inv, there⟩, rfl⟩
  cases mode : command.args.own.mode with
  | run =>
    obtain ⟨good, bad⟩ := @coprocessorRun_at _ call I mem command.host m _ command.memArgs serve command.stdin.bytes
      command.fuel _ start
    have runs : doCoprocessor call command = coprocessorRun call command.host command.memArgs command.fuel := by
      rw [doCoprocessor, mode]
    dsimp only at outcome
    rw [runs] at outcome
    cases result : (coprocessorRun call command.host command.memArgs command.fuel).run
      ⟨ahb, command.stdin, command.memory⟩ with
    | ok status s =>
      rw [result] at outcome
      obtain ⟨rfl, rfl⟩ := outcome
      obtain ⟨_, ⟨rfl, _, ran⟩ | ⟨rfl, paused⟩⟩ := good status s result
      · refine ⟨⟨some command.loads, ?_, ran.1⟩, ran.2⟩
        simp only [CoprocPlay, mode]
      · exact ⟨paused.shows shows, paused.frame⟩
    | error stop s =>
      rw [result] at outcome
      obtain ⟨rfl, rfl⟩ := outcome
      obtain ⟨_, ran | paused⟩ := bad stop s result
      · refine ⟨⟨some command.loads, ?_, ran.1⟩, ran.2⟩
        simp only [CoprocPlay, mode]
        exact Or.inr (Or.inr trivial)
      · obtain ⟨state', plays, shows'⟩ := paused.shows shows
        refine ⟨⟨state', ?_, shows'⟩, paused.frame⟩
        simp only [CoprocPlay, mode]
        rcases plays with same | none
        · exact Or.inl same
        · exact Or.inr (Or.inl none)
  | stop =>
    obtain ⟨good, bad⟩ := @coprocessorStop_at _ call I mem command.host _ m serve _ start
    have stops : doCoprocessor call command = coprocessorStop call command.host := by
      rw [doCoprocessor, mode]
    dsimp only at outcome
    rw [stops] at outcome
    cases result : (coprocessorStop call command.host).run ⟨ahb, command.stdin, command.memory⟩ with
    | ok status s =>
      rw [result] at outcome
      obtain ⟨rfl, rfl⟩ := outcome
      obtain ⟨_, ⟨rfl, held⟩ | ⟨rfl, alone⟩⟩ := good status s result
      · refine ⟨⟨none, ?_, held.shows⟩, held.frame.widen _⟩
        simp only [CoprocPlay, mode]
      · exact ⟨⟨state, Or.inl rfl, alone.shows shows⟩, alone.frame _⟩
    | error stop s =>
      rw [result] at outcome
      obtain ⟨rfl, rfl⟩ := outcome
      obtain ⟨_, paused⟩ := bad stop s result
      obtain ⟨state', plays, shows'⟩ := paused.shows shows
      refine ⟨⟨state', ?_, shows'⟩, paused.frame.widen _⟩
      simp only [CoprocPlay, mode]
      exact plays

end

/-! That it starts where nothing fails. -/

section
variable {σ : Type} {call : MemOp → Prog σ MemReply} {I : σ → Prop} {mem : σ → Mem} {m : Mem} {fuel : Nat}

/-- Nothing will fail. -/
structure CoprocReady (I : σ → Prop) (fuel : Nat) (s : Siphon σ) : Prop where
  inv : I s.ahb
  memory : s.memory = true
  works : s.fd.Works
  enough : s.fd.bytes.length < fuel

def CoprocHost.fine : CoprocHost := ⟨.ok (), true, .ok (), true, true, true, true⟩

variable (serve : CallsServe call I mem MemOp.Plain) (returns : CallsReturn call I MemOp.Plain)

theorem failIf_leads {c : Prop} [Decidable c] (no : ¬ c) (e : Errno) (P : Siphon σ → Prop) :
    Leads P (failIf c e : Prog (Siphon σ) Unit) () P := by
  rw [failIf, if_neg no]
  exact Leads.pure fun _ pre => pre

theorem revProbeThrough_leads {read : Word → Prog (Siphon σ) Word} {P : Siphon σ → Prop} {rev : Word}
    (reads : ∀ phys ∈ [0x1e6e2004, 0x1e6e207c, 0x1e6e2014], Leads P (read phys) (ByteMem.readWord m phys.toNat) P)
    (told : (memRev m).run () = .ok rev ()) : Leads P (revProbeThrough read) rev P := by
  have checked {rev' : Word} (same : ((if revIsSupported rev' then pure rev' else Prog.fail enodev : Prog Unit Word)).run () =
      .ok rev ()) : Leads P (if revIsSupported rev' then pure rev' else Prog.fail enodev) rev P := by
    by_cases supported : revIsSupported rev' = true
    · rw [if_pos supported] at same ⊢
      cases same
      exact Leads.pure fun _ pre => pre
    · rw [if_neg supported] at same
      cases same
  simp only [memRev, revProbeThrough, pure_bind] at told
  refine (reads _ (by decide)).bind ((reads _ (by decide)).bind ?_)
  dsimp only
  split
  case isTrue six =>
    rw [if_pos six] at told
    exact (reads _ (by decide)).bind (checked told)
  case isFalse other =>
    rw [if_neg other] at told
    exact checked told

include serve returns

theorem callReadl_leads {phys : Word} (here : (MemOp.readl phys).Plain) :
    Leads (fun s => CoprocReady I fuel s ∧ mem s.ahb = m) (Siphon.onAhb (callReadl call phys))
      (ByteMem.readWord m phys.toNat) fun s => CoprocReady I fuel s ∧ mem s.ahb = m := by
  rintro s ⟨ready, rfl⟩
  obtain ⟨ahb, run, inv, kept⟩ := serve.readl_returns returns here ready.inv
  exact ⟨_, Siphon.onAhb_ok run, ⟨inv, ready.memory, ready.works, ready.enough⟩, kept⟩

theorem callScuWritel_run (reg : CoprocReg) (val : Word) {s : Siphon σ} (inv : I s.ahb) :
    ∃ ahb, (callScuWritel call reg.offset val).run s = .ok () { s with ahb := ahb } ∧ I ahb := by
  obtain ⟨ahb, run, inv'⟩ := serve.writel_returns returns (reg.plain_writel val) inv
  exact ⟨ahb, Siphon.onAhb_ok run, inv'⟩

theorem callScuWritel_ready (reg : CoprocReg) (val : Word) :
    Leads (CoprocReady I fuel) (callScuWritel call reg.offset val) () (CoprocReady I fuel) := by
  intro s ready
  obtain ⟨ahb, run, inv⟩ := callScuWritel_run serve returns reg val ready.inv
  exact ⟨_, run, inv, ready.memory, ready.works, ready.enough⟩

theorem callScuWritel_leads (reg : CoprocReg) (val : Word) :
    Leads (fun s : Siphon σ => I s.ahb) (callScuWritel call reg.offset val) () fun s => I s.ahb := by
  intro s inv
  obtain ⟨ahb, run, inv'⟩ := callScuWritel_run serve returns reg val inv
  exact ⟨_, run, inv'⟩

theorem coprocessorProbe_leads {gen : AstGeneration} (found : MemGeneration m gen) :
    Leads (fun s => CoprocReady I fuel s ∧ mem s.ahb = m) (coprocessorProbe call .fine) gen
      fun s => CoprocReady I fuel s ∧ mem s.ahb = m := by
  obtain ⟨rev, told, known⟩ := found
  have reads : ∀ phys ∈ [0x1e6e2004, 0x1e6e207c, 0x1e6e2014], Leads (fun s => CoprocReady I fuel s ∧ mem s.ahb = m)
      (Siphon.onAhb (callReadl call phys)) (ByteMem.readWord m phys.toNat)
      fun s => CoprocReady I fuel s ∧ mem s.ahb = m := by
    intro phys here
    refine callReadl_leads serve returns ?_
    rw [MemOp.plain_readl_iff]
    simp only [List.mem_cons, List.not_mem_nil, or_false] at here
    rcases here with rfl | rfl | rfl <;> decide
  refine Leads.bind (Leads.pure fun _ pre => pre) ((failIf_leads (by decide) _ _).bind
    ((revProbeThrough_leads reads told).bind ?_))
  rw [known]
  exact Leads.bind (Leads.pure fun _ pre => pre) (Leads.pure fun _ pre => pre)

theorem coprocessorScuGet_leads : Leads (fun s => CoprocReady I fuel s ∧ mem s.ahb = m) (coprocessorScuGet call .fine)
    (decide (CoprocReg.protKey.get m = 0)) (CoprocReady I fuel) := by
  refine (failIf_leads (by decide) _ _).bind ((callReadl_leads serve returns CoprocReg.protKey.plain_readl).bind ?_)
  by_cases locked : CoprocReg.protKey.get m = 0
  · rw [decide_eq_true locked]
    rw [CoprocReg.get, CoprocReg.phys] at locked
    rw [if_pos locked]
    refine Leads.mono (P := CoprocReady I fuel) ?_ (fun _ pre => pre.1) fun _ post => post
    exact (callScuWritel_ready serve returns .protKey astScuPassword).bind (Leads.pure fun _ pre => pre)
  · rw [decide_eq_false locked]
    rw [CoprocReg.get, CoprocReg.phys] at locked
    rw [if_neg locked]
    exact Leads.pure fun _ pre => pre.1

theorem coprocessorScuPut_leads (wasLocked : Bool) :
    Leads (fun s : Siphon σ => I s.ahb) (coprocessorScuPut call wasLocked) () fun s => I s.ahb := by
  rw [coprocessorScuPut]
  cases wasLocked with
  | false => exact Leads.pure fun _ pre => pre
  | true => exact (callScuWritel_leads serve returns .protKey _).attempt.bind (Leads.pure fun _ pre => pre)

variable {w : UnsignedLong} {arguments : MemArgs w}

theorem coprocessorOpen_leads (accepted : arguments.Accepted m) :
    Leads (fun s => CoprocReady I fuel s ∧ mem s.ahb = m) (coprocessorOpen call .fine arguments)
      (decide (CoprocReg.protKey.get m = 0)) (CoprocReady I fuel) := by
  have dram : Leads (fun s => CoprocReady I fuel s ∧ mem s.ahb = m)
      (sdmcGetDramThrough (fun phys => Siphon.onAhb (callReadl call phys)) .g6) (memDram .g6 m)
      fun s => CoprocReady I fuel s ∧ mem s.ahb = m :=
    (callReadl_leads serve returns (mcrConfig_plain .g6)).bind (Leads.pure fun _ pre => pre)
  have below : ¬ arguments.memBase > w.uint32Max := by
    have le := arguments.base_le
    rw [gt_iff_lt, BitVec.lt_def, UnsignedLong.toNat_uint32Max]
    omega
  have sum : ¬ (arguments.memBase + arguments.memSize) &&& w.uint32Max < arguments.memBase := by
    rw [sum_guard_iff]
    exact Nat.not_le.mpr accepted.sum
  refine (coprocessorProbe_leads serve returns accepted.generation).bind ((failIf_leads (by decide) _ _).bind
    ((failIf_leads (by decide) _ _).bind (dram.bind ((failIf_leads below _ _).bind ((failIf_leads sum _ _).bind
    ((failIf_leads ?_ _ _).bind (coprocessorScuGet_leads serve returns)))))))
  rw [accepted.formed]
  decide

theorem coprocessorSiphon_leads (upper : arguments.Upper) : Leads (CoprocReady I fuel)
    (ahbSiphonIn (callOps call) fuel (arguments.memBase.setWidth 32) arguments.memSize.toInt) () fun s => I s.ahb := by
  intro s ready
  have base := arguments.base_word
  have range := upper.2
  have bound : -1 ≤ arguments.memSize.toInt := by
    rw [upper.size_int]
    omega
  have wanted : siphonWanted arguments.memSize.toInt s.fd.bytes ≤ arguments.memSize.toNat := by
    rw [siphonWanted, upper.size_int, if_neg (by omega), Int.toNat_natCast]
    exact Nat.min_le_left _ _
  have inRange : (arguments.memBase.setWidth 32 : Word).toNat + siphonWanted arguments.memSize.toInt s.fd.bytes ≤ 2 ^ 32 := by
    omega
  obtain ⟨s', loops⟩ := siphonIn_loop_returns serve returns (fun _ _ _ here => ⟨here, trivial⟩) ready.inv ready.works bound
    inRange ready.enough
  have run : (ahbSiphonIn (callOps call) fuel (arguments.memBase.setWidth 32) arguments.memSize.toInt).run s = .ok () s' := by
    rw [ahbSiphonIn, Prog.run_bind_ok (siphonMalloc_ok ready.memory)]
    exact loops
  exact ⟨s', run, ((coprocessorSiphon_at serve upper s.fd.bytes fuel s ⟨⟨ready.inv, rfl⟩, rfl⟩).1 () s' run).1.1⟩

theorem coprocessorBoot_leads (upper : arguments.Upper) :
    Leads (CoprocReady I fuel) (coprocessorBoot call .fine arguments fuel) () fun s => I s.ahb := by
  have write (reg : CoprocReg) (val : Word) := callScuWritel_leads serve returns reg val
  exact (callScuWritel_ready serve returns .ctrl 0).bind ((callScuWritel_ready serve returns .ctrl _).bind
    ((coprocessorSiphon_leads serve returns upper).bind ((write .memBase _).bind ((write .imemLimit _).bind
    ((write .dmemLimit _).bind ((write .cacheRange _).bind ((write .cacheFunc _).bind
    ((failIf_leads (by decide) _ _).bind ((write .ctrl _).bind ((failIf_leads (by decide) _ _).bind
    (write .ctrl _)))))))))))

/-- Where nothing fails, an accepted region is enough for it to start. -/
theorem coprocessorRun_leads (accepted : arguments.Accepted m) :
    Leads (fun s => CoprocReady I fuel s ∧ mem s.ahb = m) (coprocessorRun call .fine arguments fuel) 0 fun s => I s.ahb :=
  (coprocessorOpen_leads serve returns accepted).attempt.bind
    ((coprocessorBoot_leads serve returns accepted.upper).attempt.bind
      ((coprocessorScuPut_leads serve returns _).bind (Leads.pure fun _ pre => pre)))

end

/-- Whatever fails and wherever a command is cut off: a run of `coprocessor` commands is one of starting the firmware
that was last loaded and of stopping it, and the registers and the memory show which. Nothing besides the registers and the
regions that were asked for is changed. -/
theorem coprocessor_runs {σ : Type} {call : MemOp → Prog σ MemReply} {I : σ → Prop} {mem : σ → Mem} {m m' : Mem}
    {es : List (CoprocCommand × Option Int)} {state : Coproc} (serve : CallsServe call I mem MemOp.Plain)
    (run : Run (CoprocStep call I mem) m es m') (shows : CoprocShows m state) :
    (∃ state', Run CoprocPlay state es state' ∧ CoprocShows m' state') ∧
      ∀ a, (∀ reg : CoprocReg, a < reg.phys ∨ reg.phys + 4 ≤ a) →
        (∀ e ∈ es, a < e.1.loads.1.base ∨ e.1.loads.1.base + e.1.loads.1.size ≤ a) → m' a = m a := by
  refine ⟨run.refine CoprocShows (fun m e m' state shows step => (step.plays serve shows).1) shows, ?_⟩
  induction run generalizing state with
  | nil => exact fun _ _ _ => rfl
  | cons step _ ih =>
    intro a apart away
    obtain ⟨⟨_, _, shows'⟩, frame⟩ := step.plays serve shows
    rw [ih shows' a apart fun e here => away e (List.mem_cons_of_mem _ here)]
    exact frame a (fun reg _ => apart reg) (away _ List.mem_cons_self)

/-- An AST2600 with 256 MiB of DRAM. -/
def ast2600Mem : Mem := ByteMem.writeWord (fun _ => 0) 0x1e6e2014 0x05030303

theorem ast2600Mem_generation : MemGeneration ast2600Mem .g6 := ⟨0x05030303, rfl, by decide⟩

/-- Three bytes of firmware at the start of the DRAM. -/
def coprocCommand : CoprocCommand where
  disabled _ := false
  items := [.word "run", .word "0x80000000", .word "0x2000000"]
  args := ⟨⟨0x80000000, 0x2000000, .run⟩, connectionArgs⟩
  parsed := rfl
  host := .fine
  stdin := ⟨[1, 2, 3], fun _ => .ok 2, 0⟩
  memory := true
  fuel := 4

theorem coprocCommand_accepted : coprocCommand.memArgs.Accepted ast2600Mem :=
  ⟨ast2600Mem_generation, by decide, by decide +kernel⟩

/-- Three bytes of firmware on an AST2600. -/
theorem coprocessor_runs_some : ∃ m', Run (CoprocStep flatCall (fun _ => True) id) ast2600Mem [(coprocCommand, some 0)] m' ∧
    CoprocRunning ⟨0x80000000, 0x2000000⟩ [1, 2, 3] m' := by
  have serve := flatCall_serves MemOp.Plain
  have returns : CallsReturn flatCall (fun _ => True) MemOp.Plain := fun op _ m _ => ⟨op.flatReply m, op.flatUpdate m, rfl⟩
  have ready : CoprocReady (fun _ => True) coprocCommand.fuel (⟨ast2600Mem, coprocCommand.stdin, true⟩ : Siphon Mem) :=
    ⟨trivial, rfl, fun _ => ⟨2, rfl⟩, by decide⟩
  obtain ⟨s', ran, _⟩ := coprocessorRun_leads serve returns coprocCommand_accepted _ ⟨ready, rfl⟩
  have step : CoprocStep flatCall (fun _ => True) id ast2600Mem (coprocCommand, some 0) s'.ahb := by
    refine ⟨ast2600Mem, trivial, rfl, ?_⟩
    have outcome : (doCoprocessor flatCall coprocCommand).run ⟨ast2600Mem, coprocCommand.stdin, coprocCommand.memory⟩ =
        .ok 0 s' := ran
    rw [outcome]
    exact ⟨rfl, rfl⟩
  have run : Run (CoprocStep flatCall (fun _ => True) id) ast2600Mem [(coprocCommand, some 0)] s'.ahb :=
    .cons step (.nil _)
  have idle : CoprocShows ast2600Mem none :=
    (by decide +kernel : CoprocReg.ctrl.get ast2600Mem &&& scuCoprocCtrlEn = 0)
  obtain ⟨⟨state', plays, shows⟩, _⟩ := coprocessor_runs serve run idle
  cases plays with
  | cons first rest =>
    cases rest
    have loaded : state' = some coprocCommand.loads := first
    subst loaded
    exact ⟨_, run, shows⟩

/-- Where nothing fails, `coprocessor run` starts the firmware exactly if the SoC is an AST2600 whose DRAM ends below
4 GiB, and the region lies in it. -/
theorem coprocessor_starts_iff {σ : Type} {call : MemOp → Prog σ MemReply} {I : σ → Prop} {mem : σ → Mem}
    (serve : CallsServe call I mem MemOp.Plain) (returns : CallsReturn call I MemOp.Plain) {command : CoprocCommand} {ahb : σ}
    (mode : command.args.own.mode = .run) (fine : command.host = .fine) (memory : command.memory)
    (works : command.stdin.Works) (enough : command.stdin.bytes.length < command.fuel) (inv : I ahb) :
    (∃ s', (doCoprocessor call command).run ⟨ahb, command.stdin, command.memory⟩ = .ok 0 s') ↔
      MemGeneration (mem ahb) .g6 ∧
        (memDram .g6 (mem ahb)).start.toNat + (memDram .g6 (mem ahb)).length.toNat < 2 ^ 32 ∧
        command.memArgs.Inside (memDram .g6 (mem ahb)) := by
  have runs : doCoprocessor call command = coprocessorRun call .fine command.memArgs command.fuel := by
    rw [doCoprocessor, mode, fine]
  rw [runs, ← MemArgs.accepted_iff]
  constructor
  · rintro ⟨s', run⟩
    have start : CoprocAt I mem (fun fd => fd.bytes = command.stdin.bytes) (mem ahb)
        ⟨ahb, command.stdin, command.memory⟩ := ⟨⟨inv, rfl⟩, rfl⟩
    obtain ⟨_, ⟨_, accepted, _⟩ | ⟨failed, _⟩⟩ :=
      (coprocessorRun_at serve command.stdin.bytes command.fuel _ start).1 0 s' run
    · exact accepted
    · cases failed
  · intro accepted
    have ready : CoprocReady I command.fuel (⟨ahb, command.stdin, command.memory⟩ : Siphon σ) :=
      ⟨inv, memory, works, enough⟩
    obtain ⟨s', run, _⟩ := coprocessorRun_leads serve returns accepted _ ⟨ready, rfl⟩
    exact ⟨s', run⟩

theorem coprocessor_starts_iff_some :
    ∃ s', (doCoprocessor flatCall coprocCommand).run ⟨ast2600Mem, coprocCommand.stdin, coprocCommand.memory⟩ = .ok 0 s' :=
  (@coprocessor_starts_iff _ flatCall (fun _ => True) id (flatCall_serves MemOp.Plain)
    (fun op _ m _ => ⟨op.flatReply m, op.flatUpdate m, rfl⟩) coprocCommand ast2600Mem rfl rfl rfl (fun _ => ⟨2, rfl⟩)
    (by decide) trivial).mpr (MemArgs.accepted_iff.mp coprocCommand_accepted)

end Culvert
