import Culvert.Bridge.SiphonBridges
import Culvert.Cmd.Access

/-! Runs of the commands `ilpc`, `p2a` and `devmem` on one board. -/

namespace Culvert
open Prog

/-- The bridge of a command, with what its system calls and ports answer. -/
inductive AccessVia where
  | ilpc (lpcInit lpcDestroy : Except Errno Unit) (fails : Nat → Option Errno)
  | p2a (host : P2abHost) (ctx : P2ab) (buf : Nat)
  | devmem (pgsize : Size) (opened : Except Errno Unit) (ndebug : Bool) (ctx : Devmem) (buf : Nat)

/-- A command line, with its bridge, its standard streams, and whether `malloc` works for it. -/
structure AccessCommand where
  via : AccessVia
  words : List String
  stdin : Fd
  stdout : Fd
  memory : Bool

/-- The status that a command ends with, and what it has printed. -/
structure AccessAnswer where
  status : Int
  printed : List Char

/-- What lasts from one command to the next. -/
structure AccessBoard where
  mem : Mem
  sio : SuperIo
  bar : P2aBar

namespace AccessCommand

def arguments (command : AccessCommand) : Except String AstAhbArgs :=
  match command.via with
  | .ilpc _ _ _ => ArgpKey.parse cmdIlpcParseOpt command.words astAhbArgs
  | .p2a _ _ _ => (ArgpKey.parse cmdP2aParseOpt command.words ⟨astAhbArgs, 0⟩).map CmdP2aArgs.ahbArgs
  | .devmem _ _ _ _ _ => ArgpKey.parse cmdDevmemParseOpt command.words astAhbArgs

/-- The word at the address lies below 4 GiB. -/
def InRange (command : AccessCommand) : Prop := ∀ args, command.arguments = .ok args → args.address.toNat + 4 ≤ 2 ^ 32

def start {σ : Type} (command : AccessCommand) (ahb : σ) : Access σ :=
  ⟨ahb, command.stdin, command.stdout, command.memory, []⟩

end AccessCommand

/-- A command that returns or exits, with its answer and the board that it leaves. -/
def AccessStep (fuel : Nat) (b : AccessBoard) (e : AccessCommand × AccessAnswer) (b' : AccessBoard) : Prop :=
  match e.1.via with
  | .ilpc lpcInit lpcDestroy fails => ∃ s', (doIlpc lpcInit lpcDestroy fuel e.1.words).run
      (e.1.start ⟨{ b.sio with ahb := b.mem }, fails, 0⟩) = .ok e.2.status s' ∧ e.2.printed = s'.printed ∧
      b' = { b with mem := s'.ahb.dev.ahb, sio := s'.ahb.dev }
  | .p2a host ctx buf => ∃ s', (doP2a host buf fuel e.1.words).run
      (e.1.start { ctx with bar := { b.bar with ahb := b.mem } }) = .ok e.2.status s' ∧ e.2.printed = s'.printed ∧
      b' = { b with mem := s'.ahb.bar.ahb, bar := s'.ahb.bar }
  | .devmem pgsize opened ndebug ctx buf => ∃ s', (doDevmem pgsize opened ndebug buf fuel e.1.words).run
      (e.1.start { ctx with mem := b.mem, unmapped := [] }) = .ok e.2.status s' ∧ e.2.printed = s'.printed ∧
      b' = { b with mem := s'.ahb.mem }

/-- A read prints the word, a write stores it. -/
def Accessed (m : Mem) (args : AstAhbArgs) (printed : List Char) (m' : Mem) : Prop :=
  if args.read then printed = accessLine args.address (ByteMem.readWord m args.address.toNat) ∧ m' = m
  else printed = [] ∧ ∃ val, args.writeValue = some val ∧ m' = ByteMem.writeWord m args.address.toNat val

/-- What a memory makes of it: nothing where the command line is refused, and the access or nothing otherwise. -/
def FlatAnswer (parsed : Except String AstAhbArgs) (m : Mem) (answer : AccessAnswer) (m' : Mem) : Prop :=
  match parsed with
  | .error _ => answer = ⟨exUsage, []⟩ ∧ m' = m
  | .ok args => Accessed m args answer.printed m' ∨ answer.status ≠ 0 ∧ answer.printed = [] ∧ m' = m

/-- A command as a memory sees it. -/
def FlatAccess (m : Mem) (e : AccessCommand × AccessAnswer) (m' : Mem) : Prop := FlatAnswer e.1.arguments m e.2 m'

/-- A `p2a` command that returns 0 leaves the bridge locked, and one whose access fails leaves it unlocked. -/
def AccessLocks (pkr : Word) (e : AccessCommand × AccessAnswer) (pkr' : Word) : Prop :=
  match e.1.via with
  | .p2a _ _ _ => (e.2.status = 0 → pkr' = 0) ∧ (e.2.status = exitFailure → pkr' = 1)
  | _ => pkr' = pkr

/-- The command has the access of a word in its arguments. -/
def AstAhbArgs.OfWord (args : AstAhbArgs) : Prop := args.readLength = none ∧ (args.read = false → args.writeValue.isSome)

def AstAhbArgs.Reading (argNum : Nat) (args : AstAhbArgs) : Prop :=
  args.readLength = none ∧ (3 ≤ argNum → args.read = false → args.writeValue.isSome)

section
variable {invalid : String → String} {few arg : String} {argNum : Nat} {args args' : AstAhbArgs}

theorem accessWord_reading (reading : args.Reading argNum) (run : accessWord invalid argNum arg args = .ok args') :
    args'.Reading (argNum + 1) := by
  rcases argNum with _ | _ | _ | argNum
  · simp only [accessWord] at run
    split at run
    · cases run
    · cases run
      refine ⟨?_, fun never => absurd never (by decide)⟩
      split
      · exact reading.1
      · exact reading.1
  · cases run
    exact ⟨reading.1, fun never => absurd never (by decide)⟩
  · cases run
    by_cases read : args.read = true
    · rw [if_pos read]
      exact ⟨reading.1, fun _ write => absurd (read.symm.trans write) (by decide)⟩
    · rw [if_neg read]
      exact ⟨reading.1, fun _ _ => rfl⟩
  · cases run
    exact ⟨reading.1, fun _ => reading.2 (Nat.le_add_left 3 argNum)⟩

theorem accessEnd_ofWord (reading : args.Reading argNum) (run : accessEnd few argNum args = .ok args') : args'.OfWord := by
  rw [accessEnd] at run
  split at run
  · cases run
  · split at run
    · cases run
    case isFalse enough =>
      cases run
      refine ⟨reading.1, fun write => reading.2 ?_ write⟩
      by_contra few
      exact enough ⟨by rw [write]; decide, by omega⟩

/-- `ilpc` and `devmem` have a parser of this form. -/
theorem accessParse_ofWord {parser : ArgpKey → AstAhbArgs → Except String AstAhbArgs} {words : List String}
    (word : ∀ arg argNum rest args, parser (.arg arg argNum rest) args = accessWord invalid argNum arg args)
    (ends : ∀ argNum args, parser (.finish argNum) args = accessEnd few argNum args)
    (run : ArgpKey.parse parser words astAhbArgs = .ok args) : args.OfWord := by
  obtain ⟨last, reading, finish⟩ := ArgpKey.parseFrom_invariant (fun argNum args => AstAhbArgs.Reading argNum args)
    (fun arg argNum rest args args' reading run => accessWord_reading reading ((word arg argNum rest args).symm.trans run))
    ⟨rfl, fun never => absurd never (by decide)⟩ run
  rw [ends] at finish
  exact accessEnd_ofWord reading finish

theorem cmdIlpcParseOpt_ofWord {words : List String} (run : ArgpKey.parse cmdIlpcParseOpt words astAhbArgs = .ok args) :
    args.OfWord :=
  accessParse_ofWord (fun _ _ _ _ => rfl) (fun _ _ => rfl) run

theorem cmdDevmemParseOpt_ofWord {words : List String} (run : ArgpKey.parse cmdDevmemParseOpt words astAhbArgs = .ok args) :
    args.OfWord :=
  accessParse_ofWord (fun _ _ _ _ => rfl) (fun _ _ => rfl) run

theorem cmdP2aParseOpt_ofWord {words : List String} {args : CmdP2aArgs}
    (run : ArgpKey.parse cmdP2aParseOpt words ⟨astAhbArgs, 0⟩ = .ok args) : args.ahbArgs.OfWord := by
  have word (arg : String) (argNum : Nat) (rest : List String) (args args' : CmdP2aArgs)
      (reading : args.ahbArgs.Reading (argNum - 1)) (run : cmdP2aParseOpt (.arg arg argNum rest) args = .ok args') :
      args'.ahbArgs.Reading (argNum + 1 - 1) := by
    cases argNum with
    | zero =>
      have kept : args'.ahbArgs = args.ahbArgs := by
        simp only [cmdP2aParseOpt] at run
        split at run
        · cases run
          rfl
        · cases run
          rfl
        · cases run
      rw [kept]
      exact reading
    | succ argNum =>
      rw [cmdP2aParseOpt] at run
      obtain ⟨ahbArgs, word, same⟩ := except_bind_ok_iff.mp run
      cases same
      exact accessWord_reading reading word
  obtain ⟨last, reading, finish⟩ := ArgpKey.parseFrom_invariant
    (fun argNum (args : CmdP2aArgs) => args.ahbArgs.Reading (argNum - 1)) word
    ⟨rfl, fun never => absurd never (by decide)⟩ run
  rw [cmdP2aParseOpt] at finish
  obtain ⟨ahbArgs, ends, same⟩ := except_bind_ok_iff.mp finish
  cases same
  exact accessEnd_ofWord reading ends

end

/-- The call that the access of a word makes. -/
def AstAhbArgs.op (args : AstAhbArgs) : MemOp :=
  if args.read then .readl args.address else .writel args.address (args.writeValue.getD 0)

section
variable {σ : Type} {call : MemOp → Prog σ MemReply} {I : σ → Prop} {mem : σ → Mem} {m : Mem} {fuel : Nat}
variable {args : AstAhbArgs} {s s' : Access σ} {init destroy : Prog σ Unit} {closed : Errno → Int} {status : Int}

/-- From the states of `I` the call, where it returns, is one of the memory, or is refused without effect on it. -/
def CallObeys (call : MemOp → Prog σ MemReply) (I : σ → Prop) (mem : σ → Mem) (op : MemOp) : Prop :=
  ∀ m, Triple (fun s => I s ∧ mem s = m) (call op) (fun r s => I s ∧ FlatStep m (op, r) (mem s))
    fun e s => ∀ rc, e = .rc rc → I s ∧ mem s = m

theorem CallsServe.obeys {may : MemOp → Prop} (serve : CallsServe call I mem may) {op : MemOp} (here : may op) :
    CallObeys call I mem op :=
  fun m => (serve op here m).conseq (fun _ pre => pre) (fun _ _ post => post) fun _ _ stopped _ _ => stopped

theorem astAhbAccess_read (word : args.OfWord) (read : args.read = true) : astAhbAccess call fuel args =
    Access.onAhb (callReadl call args.address) >>= fun data => Access.printf (accessLine args.address data) := by
  rw [astAhbAccess, if_pos read, word.1]
  rfl

theorem astAhbAccess_write (word : args.OfWord) (write : args.read = false) :
    astAhbAccess call fuel args = Access.onAhb (callWritel call args.address (args.writeValue.getD 0)) := by
  obtain ⟨val, some⟩ := Option.isSome_iff_exists.mp (word.2 write)
  rw [astAhbAccess, if_neg (by rw [write]; decide), some]
  rfl

theorem Access.onAhb_triple {α : Type} {p : Prog σ α} {P E : σ → Prop} {Q : α → σ → Prop}
    (op : Triple P p Q fun e s => ∀ rc, e = .rc rc → E s) : Triple (fun s : Access σ => P s.ahb ∧ s.printed = [])
      (Access.onAhb p) (fun a s => Q a s.ahb ∧ s.printed = []) fun e s => ∀ rc, e = .rc rc → E s.ahb ∧ s.printed = [] := by
  intro s pre
  obtain ⟨good, bad⟩ := op s.ahb pre.1
  refine ⟨fun a s' run => ?_, fun e s' run rc same => ?_⟩
  · obtain ⟨ahb, part, rfl⟩ := zoom_ok_iff.mp run
    exact ⟨good a ahb part, pre.2⟩
  · obtain ⟨ahb, part, rfl⟩ := zoom_error_iff.mp run
    exact ⟨bad e ahb part rc same, pre.2⟩

/-- The access prints and stores what it should, or is refused and does neither. -/
theorem astAhbAccess_accesses (word : args.OfWord) (obeys : CallObeys call I mem args.op) :
    Triple (fun s : Access σ => (I s.ahb ∧ mem s.ahb = m) ∧ s.printed = []) (astAhbAccess call fuel args)
      (fun _ s => I s.ahb ∧ Accessed m args s.printed (mem s.ahb))
      fun e s => ∀ rc, e = .rc rc → (I s.ahb ∧ mem s.ahb = m) ∧ s.printed = [] := by
  cases read : args.read with
  | true =>
    have op : args.op = .readl args.address := by rw [AstAhbArgs.op, if_pos read]
    rw [op] at obeys
    have calls : Triple (fun s => I s ∧ mem s = m) (callReadl call args.address)
        (fun data s => (I s ∧ mem s = m) ∧ data = ByteMem.readWord m args.address.toNat)
        fun e s => ∀ rc, e = .rc rc → I s ∧ mem s = m := by
      refine (obeys m).bind fun r => ?_
      cases r with
      | word data => exact Triple.pure fun _ step => ⟨⟨step.1, step.2.2⟩, MemReply.word.inj step.2.1⟩
      | bytes _ =>
        refine Triple.fail fun _ step => ?_
        cases step.2.1
      | done =>
        refine Triple.fail fun _ step => ?_
        cases step.2.1
    rw [astAhbAccess_read word read]
    refine (Access.onAhb_triple calls).bind fun data => ?_
    rintro t ⟨⟨⟨inv, here⟩, rfl⟩, silent⟩
    refine ⟨fun _ t' run => ?_, fun _ _ run => ?_⟩
    · cases run
      refine ⟨inv, ?_⟩
      rw [Accessed, if_pos read]
      refine ⟨?_, here⟩
      show t.printed ++ _ = _
      rw [silent, List.nil_append]
    · cases run
  | false =>
    have op : args.op = .writel args.address (args.writeValue.getD 0) := by
      rw [AstAhbArgs.op, if_neg (by rw [read]; decide)]
    rw [op] at obeys
    have calls : Triple (fun s => I s ∧ mem s = m) (callWritel call args.address (args.writeValue.getD 0))
        (fun _ s => I s ∧ mem s = ByteMem.writeWord m args.address.toNat (args.writeValue.getD 0))
        fun e s => ∀ rc, e = .rc rc → I s ∧ mem s = m :=
      (obeys m).bind fun _ => Triple.pure fun _ step => ⟨step.1, step.2.2⟩
    rw [astAhbAccess_write word read]
    refine (Access.onAhb_triple calls).conseq (fun _ pre => pre) (fun _ t post => ?_) fun _ _ stopped => stopped
    obtain ⟨⟨inv, stored⟩, silent⟩ := post
    obtain ⟨val, some⟩ := Option.isSome_iff_exists.mp (word.2 read)
    refine ⟨inv, ?_⟩
    rw [Accessed, if_neg (by rw [read]; decide)]
    refine ⟨silent, val, some, ?_⟩
    rw [some, Option.getD_some] at stored
    exact stored

/-- How a command ends: the bridge does not open, the access fails, or the bridge is closed again. -/
theorem doAccess_ok (run : (doAccess call init destroy closed fuel args).run s = .ok status s') :
    (∃ e ahb, init.run s.ahb = .error (.rc e) ahb ∧ status = e.code ∧ s' = { s with ahb }) ∨
    ∃ ahb, init.run s.ahb = .ok () ahb ∧
      ((∃ e, (astAhbAccess call fuel args).run { s with ahb } = .error (.rc e) s' ∧ status = exitFailure) ∨
      ∃ s₁ ahb', (astAhbAccess call fuel args).run { s with ahb } = .ok () s₁ ∧ s' = { s₁ with ahb := ahb' } ∧
        ((∃ e, destroy.run s₁.ahb = .error (.rc e) ahb' ∧ status = closed e) ∨
          destroy.run s₁.ahb = .ok () ahb' ∧ status = 0)) := by
  obtain ⟨opened, s₁, first, run⟩ := bind_ok_iff.mp run
  cases opened with
  | error e =>
    obtain ⟨ahb, failed, rfl⟩ := zoom_error_iff.mp (attempt_error_iff.mp first)
    cases run
    exact Or.inl ⟨e, ahb, failed, rfl, rfl⟩
  | ok _ =>
    obtain ⟨ahb, ok, rfl⟩ := zoom_ok_iff.mp (attempt_ok_iff.mp first)
    refine Or.inr ⟨ahb, ok, ?_⟩
    obtain ⟨accessed, s₂, second, run⟩ := bind_ok_iff.mp run
    cases accessed with
    | error e =>
      cases run
      exact Or.inl ⟨e, attempt_error_iff.mp second, rfl⟩
    | ok _ =>
      obtain ⟨destroyed, s₃, third, run⟩ := bind_ok_iff.mp run
      cases destroyed with
      | error e =>
        obtain ⟨ahb', failed, rfl⟩ := zoom_error_iff.mp (attempt_error_iff.mp third)
        cases run
        exact Or.inr ⟨s₂, ahb', attempt_ok_iff.mp second, rfl, Or.inl ⟨e, failed, rfl⟩⟩
      | ok _ =>
        obtain ⟨ahb', ok', rfl⟩ := zoom_ok_iff.mp (attempt_ok_iff.mp third)
        cases run
        exact Or.inr ⟨s₂, ahb', attempt_ok_iff.mp second, rfl, Or.inr ⟨ok', rfl⟩⟩

/-- Opening and closing the bridge leave the memory alone. -/
theorem doAccess_flat (word : args.OfWord) (obeys : CallObeys call I mem args.op)
    (opens : ∀ t, init.run s.ahb = .ok () t → I t ∧ mem t = mem s.ahb)
    (fails : ∀ e t, init.run s.ahb = .error (.rc e) t → mem t = mem s.ahb)
    (closes : ∀ t, I t → mem (destroy.run t).state = mem t) (silent : s.printed = [])
    (run : (doAccess call init destroy closed fuel args).run s = .ok status s') :
    Accessed (mem s.ahb) args s'.printed (mem s'.ahb) ∨ status ≠ 0 ∧ s'.printed = [] ∧ mem s'.ahb = mem s.ahb := by
  rcases doAccess_ok run with ⟨e, ahb, failed, rfl, rfl⟩ | ⟨ahb, opened, access⟩
  · exact Or.inr ⟨Int.ne_of_lt e.code_neg, silent, fails _ _ failed⟩
  · obtain ⟨inv, kept⟩ := opens _ opened
    obtain ⟨good, bad⟩ :=
      @astAhbAccess_accesses σ call I mem _ fuel args word obeys { s with ahb } ⟨⟨inv, kept⟩, silent⟩
    rcases access with ⟨e, refused, rfl⟩ | ⟨s₁, ahb', accessed, rfl, ends⟩
    · obtain ⟨⟨_, same⟩, quiet⟩ := bad _ _ refused e rfl
      exact Or.inr ⟨by decide, quiet, same⟩
    · obtain ⟨inv₁, done⟩ := good _ _ accessed
      have final : mem ahb' = mem s₁.ahb := by
        rw [← closes _ inv₁]
        rcases ends with ⟨e, failed, _⟩ | ⟨ok, _⟩
        · rw [failed, EStateM.Result.state_error]
        · rw [ok, EStateM.Result.state_ok]
      refine Or.inl ?_
      show Accessed _ args s₁.printed (mem ahb')
      rw [final]
      exact done

end

/-- The access of an aligned word, or of one that lies in its window. -/
def AstAhbArgs.Fits (args : AstAhbArgs) : Prop :=
  if args.read then args.address.toNat % 4 = 0 else args.address.toNat % 0x10000 ≤ 0xfffc

section
variable {args : AstAhbArgs} {op : MemOp}

theorem AstAhbArgs.op_cases (args : AstAhbArgs) :
    args.op = .readl args.address ∨ ∃ val, args.op = .writel args.address val := by
  rw [op]
  split
  · exact Or.inl rfl
  · exact Or.inr ⟨_, rfl⟩

theorem AstAhbArgs.op_inRange (range : args.address.toNat + 4 ≤ 2 ^ 32) : args.op.InRange := by
  rcases args.op_cases with op | ⟨val, op⟩
  · rw [op]
    exact range
  · rw [op]
    exact range

theorem ilpcb_obeys (base : Nat) (range : args.address.toNat + 4 ≤ 2 ^ 32) :
    CallObeys (ilpcbCall (superIo base)) (fun _ => True) ahbOf args.op := by
  rintro m s ⟨_, here⟩
  have inRange := AstAhbArgs.op_inRange range
  rcases args.op_cases with op | ⟨val, op⟩
  · rw [op] at inRange ⊢
    refine ⟨fun r s' run => ?_, fun e s' run _ _ => ⟨trivial, ?_⟩⟩
    · obtain ⟨reply, kept⟩ := IlpcStep.effect (⟨inRange, run⟩ : IlpcStep base s (.readl args.address, r) s')
      rw [← here]
      exact ⟨trivial, reply, kept⟩
    · have keeps : Keeps (Same ahbOf) (ilpcbCall (superIo base) (.readl args.address)) :=
        (ilpcbReadl_keeps args.address).bind fun _ => keeps_pure _
      exact (keeps.error run).trans here
  · rw [op] at inRange ⊢
    refine ⟨fun r s' run => ?_, fun e s' run _ _ => ⟨trivial, ?_⟩⟩
    · obtain ⟨reply, kept⟩ := IlpcStep.effect (⟨inRange, run⟩ : IlpcStep base s (.writel args.address val, r) s')
      rw [← here]
      exact ⟨trivial, reply, kept⟩
    · rcases bind_error_iff.mp run with failed | ⟨_, _, _, last⟩
      · exact (ilpcbWritel_error failed).trans here
      · cases last

/-- Where the word crosses its window the call does not return. -/
theorem p2ab_obeys (buf : Nat) (range : args.address.toNat + 4 ≤ 2 ^ 32) :
    CallObeys (p2abCall buf) P2ab.Synced (fun s => s.bar.ahb) args.op := by
  rintro m s ⟨synced, here⟩
  subst here
  have inRange := AstAhbArgs.op_inRange range
  by_cases served : P2aServed args.op
  · rcases p2abCall_served synced inRange buf served with ⟨r, s', run, flat, synced', _⟩ | run
    · refine ⟨fun r' t ok => ?_, fun e t error => ?_⟩
      · rw [run] at ok
        cases ok
        exact ⟨synced', flat⟩
      · rw [run] at error
        cases error
    · refine ⟨fun r' t ok => ?_, fun e t error _ _ => ?_⟩
      · rw [run] at ok
        cases ok
      · rw [run] at error
        cases error
        exact ⟨synced, rfl⟩
  · obtain ⟨s', fault, _⟩ := p2abCall_astray synced inRange buf served
    refine ⟨fun r' t ok => ?_, fun e t error rc same => ?_⟩
    · rw [fault] at ok
      cases ok
    · rw [fault] at error
      cases error
      cases same

theorem ofExcept_state {σ α : Type} (r : Except Errno α) (s : σ) : ((ofExcept r : Prog σ α).run s).state = s := by
  cases r <;> rfl

/-- Setting the bridge up leaves the memory alone. -/
theorem p2abInit_ahb (pciOpen : Except Errno Unit) (mmap : Except Errno Nat) (t : P2ab) :
    ((p2abInit pciOpen mmap).run t).state.bar.ahb = t.bar.ahb := by
  cases pciOpen with
  | error _ => rfl
  | ok _ =>
    cases mmap with
    | error _ => rfl
    | ok addr =>
      have first := @run_p2abRegWritel { t with mmio := addr, rbar := 0 } p2abRbar 0 (Or.inr rfl)
      have run : (p2abRegWritel p2abRbar 0 >>= fun _ => p2abUnlock).run { t with mmio := addr, rbar := 0 } = _ :=
        (run_bind_ok first).trans (run_p2abRegWritel 1 (Or.inl rfl))
      show (((p2abRegWritel p2abRbar 0 >>= fun _ => p2abUnlock).run { t with mmio := addr, rbar := 0 }).state).bar.ahb = _
      rw [run, EStateM.Result.state_ok]
      exact (P2aBar.store_pkr _ 1).2.2.trans (P2aBar.store_rbar _ 0).2.2

/-- The bridge is locked, whatever the system calls return. -/
theorem p2abDestroy_locks (munmap pciClose : Except Errno Unit) (s : P2ab) :
    ((p2abDestroy munmap pciClose).run s).state.bar.pkr = 0 ∧
      ((p2abDestroy munmap pciClose).run s).state.bar.ahb = s.bar.ahb := by
  have locked : p2abLock.run s = _ := @run_p2abRegWritel s p2abPkr 0 (Or.inl rfl)
  have final : ((p2abDestroy munmap pciClose).run s).state = (p2abLock.run s).state := by
    rw [p2abDestroy, run_bind_ok locked, locked, EStateM.Result.state_ok]
    cases munmap with
    | error _ => rfl
    | ok _ => exact ofExcept_state pciClose _
  rw [final, locked, EStateM.Result.state_ok]
  exact ⟨(P2aBar.store_pkr s.bar 0).1, (P2aBar.store_pkr s.bar 0).2.2⟩

end

section
variable {args : AstAhbArgs}

theorem ilpcb_word_returns (base : Nat) : Succeeds Faulty.Sound (ilpcbCall (superIo base) args.op) := by
  rcases args.op_cases with op | ⟨val, op⟩
  · rw [op]
    exact (ilpcbReadl_succeeds args.address).bind fun _ => .pure _
  · rw [op]
    exact (ilpcbWritel_succeeds args.address val).bind fun _ => .pure _

theorem p2ab_word_returns {s : P2ab} (synced : s.Synced) (fits : args.Fits) (buf : Nat) :
    ∃ r t, (p2abCall buf args.op).run s = .ok r t := by
  rw [AstAhbArgs.Fits] at fits
  rw [AstAhbArgs.op]
  split at fits
  case isTrue read =>
    obtain ⟨t, run, _⟩ := p2abReadl_ok synced fits
    rw [if_pos read]
    exact ⟨_, t, run_bind_ok run⟩
  case isFalse write =>
    obtain ⟨t, run, _⟩ := p2abWritel_ok synced (show args.address.toNat % 0x10000 + 4 ≤ 0x10000 by omega)
      (args.writeValue.getD 0)
    rw [if_neg write]
    exact ⟨_, t, run_bind_ok run⟩

theorem devmemTouch_steady {α : Type} (w : Mapping) (addr n : Nat) (f : Mem → Nat → α × Mem) :
    Devmem.Steady (Devmem.touch w addr n f) := by
  intro s calm
  have kept := devmemTouch_keeps w addr n f
  refine ⟨fun a s' run => ?_, fun e s' run => ?_⟩
  · obtain ⟨mmaps, munmaps⟩ := Prod.mk.inj (kept.ok run)
    show s'.Calm
    rw [Devmem.Calm, mmaps, munmaps]
    exact calm
  · simp only [Devmem.touch, EStateM.run] at run
    split at run
    · cases run
    · cases run
      rfl

theorem devmemWin_steady : Devmem.Steady devmemWin := by
  refine get_steady.bind fun t => ?_
  cases t.win with
  | none => exact Triple.throw fun _ _ => rfl
  | some win => exact pure_steady win

theorem devmem_word_steady (aligned : args.address.toNat % 4 = 0) (buf : Nat) : Devmem.Steady (devmemCall buf args.op) := by
  have check : ¬ args.address &&& 3 ≠ 0 := not_not.mpr ((and_three_eq_zero_iff args.address).mpr aligned)
  rcases args.op_cases with op | ⟨val, op⟩
  · rw [op]
    refine Triple.bind ?_ fun w => pure_steady _
    rw [devmemReadl, if_neg check]
    refine Triple.ite (get_steady.bind fun ctx => (devmemTouch_steady _ _ _ _).bind fun _ => pure_steady _) ?_
    exact (devmemSetupWin_steady _ _).bind fun _ => devmemWin_steady.bind fun _ => (devmemTouch_steady _ _ _ _).bind
      fun _ => pure_steady _
  · rw [op]
    refine Triple.bind ?_ fun w => pure_steady _
    rw [devmemWritel, if_neg check]
    refine Triple.ite (get_steady.bind fun ctx => devmemTouch_steady _ _ _ _) ?_
    exact (devmemSetupWin_steady _ _).bind fun _ => devmemWin_steady.bind fun _ => devmemTouch_steady _ _ _ _

theorem devmem_word_returns {s : Devmem} (inv : s.Inv) (calm : s.Calm) (range : args.address.toNat + 4 ≤ 2 ^ 32)
    (aligned : args.address.toNat % 4 = 0) (buf : Nat) : ∃ r t, (devmemCall buf args.op).run s = .ok r t := by
  rcases devmemCall_correct inv buf (AstAhbArgs.op_inRange range) with ⟨r, t, run, _⟩ | ⟨e, t, run, _⟩
  · exact ⟨r, t, run⟩
  · cases (devmem_word_steady aligned buf s calm).2 _ t run

end

section
variable {σ : Type} {call : MemOp → Prog σ MemReply} {I : σ → Prop} {mem : σ → Mem} {fuel : Nat}
variable {args : AstAhbArgs} {init destroy : Prog σ Unit} {closed : Errno → Int} {ahb t : σ} {r : MemReply}

theorem astAhbAccess_returns (word : args.OfWord) (obeys : CallObeys call I mem args.op) {s : Access σ} (inv : I s.ahb)
    (run : (call args.op).run s.ahb = .ok r t) :
    ∃ s', (astAhbAccess call fuel args).run s = .ok () s' ∧ s'.ahb = t := by
  have reply := ((obeys (mem s.ahb) s.ahb ⟨inv, rfl⟩).1 r t run).2.1
  cases read : args.read with
  | true =>
    have op : args.op = .readl args.address := by rw [AstAhbArgs.op, if_pos read]
    rw [op] at run reply
    have data : r = .word (ByteMem.readWord (mem s.ahb) args.address.toNat) := reply
    subst data
    have reads : (callReadl call args.address).run s.ahb = .ok (ByteMem.readWord (mem s.ahb) args.address.toNat) t :=
      run_bind_ok run
    have here : (Access.onAhb (callReadl call args.address)).run s = .ok _ { s with ahb := t } := run_zoom_ok reads
    rw [astAhbAccess_read word read, run_bind_ok here]
    exact ⟨_, rfl, rfl⟩
  | false =>
    have op : args.op = .writel args.address (args.writeValue.getD 0) := by
      rw [AstAhbArgs.op, if_neg (by rw [read]; decide)]
    rw [op] at run
    have writes : (callWritel call args.address (args.writeValue.getD 0)).run s.ahb = .ok () t := run_bind_ok run
    rw [astAhbAccess_write word read]
    exact ⟨_, run_zoom_ok writes, rfl⟩

/-- A command that opens its bridge, makes its access and closes it returns 0. -/
theorem doAccess_returns (word : args.OfWord) (obeys : CallObeys call I mem args.op) {s : Access σ}
    (opened : init.run s.ahb = .ok () ahb) (inv : I ahb) (run : (call args.op).run ahb = .ok r t)
    (closes : (∃ t', destroy.run t = .ok () t') ∨ ∃ e t', destroy.run t = .error (.rc e) t' ∧ closed e = 0) :
    ∃ s', (doAccess call init destroy closed fuel args).run s = .ok 0 s' := by
  obtain ⟨s₁, accessed, rfl⟩ := @astAhbAccess_returns σ call I mem fuel args t r word obeys { s with ahb } inv run
  have first : (attempt (Access.onAhb init)).run s = .ok (.ok ()) { s with ahb } := attempt_ok (run_zoom_ok opened)
  rw [doAccess, run_bind_ok first, run_bind_ok (attempt_ok accessed)]
  rcases closes with ⟨t', ok⟩ | ⟨e, t', failed, forgiven⟩
  · have last : (attempt (Access.onAhb destroy)).run s₁ = .ok (.ok ()) { s₁ with ahb := t' } := attempt_ok (run_zoom_ok ok)
    rw [run_bind_ok last]
    exact ⟨_, rfl⟩
  · have last : (attempt (Access.onAhb destroy)).run s₁ = .ok (.error e) { s₁ with ahb := t' } :=
      attempt_rc (zoom_error_iff.mpr ⟨t', failed, rfl⟩)
    rw [run_bind_ok last, ← forgiven]
    exact ⟨_, rfl⟩

end

theorem devmemInit_kept (pgsize : Size) (opened : Except Errno Unit) (t : Devmem) :
    let t' := ((devmemInit pgsize opened).run t).state
    t'.mem = t.mem ∧ t'.mmaps = t.mmaps ∧ t'.munmaps = t.munmaps := by
  cases opened with
  | error _ => exact ⟨rfl, rfl, rfl⟩
  | ok _ =>
    have run : (devmemInit pgsize (.ok ())).run t = (do
        let io ← Devmem.mmap astSocIoLen.toNat astSocIo
        modify fun ctx => { ctx with io := io, win := none } : Prog Devmem Unit).run { t with pgsize := pgsize } := rfl
    rw [run, EStateM.run_bind]
    simp only [Devmem.mmap, EStateM.run]
    cases t.mmaps t.calls with
    | error _ => exact ⟨rfl, rfl, rfl⟩
    | ok _ => exact ⟨rfl, rfl, rfl⟩

theorem devmemDestroy_kept (ndebug : Bool) (s : Devmem) : ((devmemDestroy ndebug).run s).state.mem = s.mem := by
  have unmaps : Keeps (Same fun s : Devmem => s.mem) (Devmem.munmap s.io astSocIoLen.toNat) := by
    intro t
    simp only [Devmem.munmap, EStateM.run]
    split
    · rfl
    · split <;> rfl
  have whole : Keeps (Same fun s : Devmem => s.mem) (do
      if s.win.isSome ∧ ¬ ndebug then throw .fault
      let _ ← attempt (Devmem.munmap s.io astSocIoLen.toNat) : Prog Devmem Unit) :=
    Keeps.ite (keeps_throw _) (unmaps.attempt.bind fun _ => keeps_pure _)
  exact whole s

section
variable {fuel : Nat} {words : List String} {status : Int}

theorem doIlpc_flat {lpcInit lpcDestroy : Except Errno Unit} {s s' : Access (Faulty SuperIo)} (silent : s.printed = [])
    (range : ∀ args, ArgpKey.parse cmdIlpcParseOpt words astAhbArgs = .ok args → args.address.toNat + 4 ≤ 2 ^ 32)
    (run : (doIlpc lpcInit lpcDestroy fuel words).run s = .ok status s') :
    FlatAnswer (ArgpKey.parse cmdIlpcParseOpt words astAhbArgs) (ahbOf s.ahb) ⟨status, s'.printed⟩ (ahbOf s'.ahb) := by
  rw [doIlpc] at run
  cases parsed : ArgpKey.parse cmdIlpcParseOpt words astAhbArgs with
  | error message =>
    rw [parsed] at run
    cases run
    rw [silent]
    exact ⟨rfl, rfl⟩
  | ok args =>
    rw [parsed] at run
    refine doAccess_flat (cmdIlpcParseOpt_ofWord parsed) (ilpcb_obeys 0x2e (range args parsed)) (fun t ok => ?_)
      (fun e t error => ?_) (fun t _ => by rw [ofExcept_state]) silent run
    · have same := ofExcept_state lpcInit s.ahb
      rw [ok, EStateM.Result.state_ok] at same
      exact ⟨trivial, by rw [same]⟩
    · have same := ofExcept_state lpcInit s.ahb
      rw [error, EStateM.Result.state_error] at same
      rw [same]

/-- The lock of the bridge, besides. -/
theorem doP2a_flat {host : P2abHost} {buf : Nat} {s s' : Access P2ab} (silent : s.printed = [])
    (range : ∀ args, ArgpKey.parse cmdP2aParseOpt words ⟨astAhbArgs, 0⟩ = .ok args → args.ahbArgs.address.toNat + 4 ≤ 2 ^ 32)
    (run : (doP2a host buf fuel words).run s = .ok status s') :
    FlatAnswer ((ArgpKey.parse cmdP2aParseOpt words ⟨astAhbArgs, 0⟩).map CmdP2aArgs.ahbArgs) s.ahb.bar.ahb
      ⟨status, s'.printed⟩ s'.ahb.bar.ahb ∧
    (status = 0 → s'.ahb.bar.pkr = 0) ∧ (status = exitFailure → s'.ahb.bar.pkr = 1) := by
  rw [doP2a] at run
  cases parsed : ArgpKey.parse cmdP2aParseOpt words ⟨astAhbArgs, 0⟩ with
  | error message =>
    rw [parsed] at run
    cases run
    rw [silent]
    exact ⟨⟨rfl, rfl⟩, fun never => absurd never (by decide), fun never => absurd never (by decide)⟩
  | ok args =>
    rw [parsed] at run
    have word := cmdP2aParseOpt_ofWord parsed
    have obeys := p2ab_obeys buf (range args parsed)
    have sets := p2abInit_ahb (host.pciOpen args.deviceId) host.mmap s.ahb
    have opens (t : P2ab) (ok : (p2abInit (host.pciOpen args.deviceId) host.mmap).run s.ahb = .ok () t) :
        t.Synced ∧ t.bar.ahb = s.ahb.bar.ahb := by
      rw [ok, EStateM.Result.state_ok] at sets
      exact ⟨p2abInit_synced ok, sets⟩
    refine ⟨?_, ?_⟩
    · refine @doAccess_flat P2ab _ P2ab.Synced (fun s => s.bar.ahb) fuel args.ahbArgs s s' _ _ _ status word obeys opens
        (fun e t error => ?_) (fun t _ => (p2abDestroy_locks host.munmap host.pciClose t).2) silent run
      rw [error, EStateM.Result.state_error] at sets
      exact sets
    · have codes (e : Errno) : (e.code = 0 → s'.ahb.bar.pkr = 0) ∧ (e.code = exitFailure → s'.ahb.bar.pkr = 1) := by
        have neg := e.code_neg
        simp only [exitFailure]
        exact ⟨fun zero => by omega, fun one => by omega⟩
      rcases doAccess_ok run with ⟨e, _, _, rfl, _⟩ | ⟨ahb, opened, ⟨e, refused, rfl⟩ | ⟨s₁, ahb', _, rfl, ends⟩⟩
      · exact codes e
      · obtain ⟨_, bad⟩ := @astAhbAccess_accesses P2ab (p2abCall buf) P2ab.Synced (fun s => s.bar.ahb) s.ahb.bar.ahb fuel
          args.ahbArgs word obeys { s with ahb } ⟨opens _ opened, silent⟩
        exact ⟨fun never => absurd never (by decide), fun _ => (bad _ _ refused e rfl).1.1.pkr⟩
      · rcases ends with ⟨e, _, rfl⟩ | ⟨ok, rfl⟩
        · exact codes e
        · have locked := (p2abDestroy_locks host.munmap host.pciClose s₁.ahb).1
          rw [ok, EStateM.Result.state_ok] at locked
          exact ⟨fun _ => locked, fun never => absurd never (by decide)⟩

theorem devmemInit_inv {pgsize : Size} {opened : Except Errno Unit} {t t' : Devmem} (fresh : t.unmapped = [])
    (run : (devmemInit pgsize opened).run t = .ok () t') : t'.Inv := DevmemStart.inv ⟨pgsize, opened, t, fresh, run⟩

theorem doDevmem_flat {pgsize : Size} {opened : Except Errno Unit} {ndebug : Bool} {buf : Nat} {s s' : Access Devmem}
    (fresh : s.ahb.unmapped = []) (silent : s.printed = [])
    (range : ∀ args, ArgpKey.parse cmdDevmemParseOpt words astAhbArgs = .ok args → args.address.toNat + 4 ≤ 2 ^ 32)
    (run : (doDevmem pgsize opened ndebug buf fuel words).run s = .ok status s') :
    FlatAnswer (ArgpKey.parse cmdDevmemParseOpt words astAhbArgs) s.ahb.mem ⟨status, s'.printed⟩ s'.ahb.mem := by
  rw [doDevmem] at run
  cases parsed : ArgpKey.parse cmdDevmemParseOpt words astAhbArgs with
  | error message =>
    rw [parsed] at run
    cases run
    rw [silent]
    exact ⟨rfl, rfl⟩
  | ok args =>
    rw [parsed] at run
    have obeys : CallObeys (devmemCall buf) Devmem.Inv (fun s => s.mem) args.op :=
      (devmem_serves buf).obeys (AstAhbArgs.op_inRange (range args parsed))
    obtain ⟨kept, _⟩ := devmemInit_kept pgsize opened s.ahb
    refine @doAccess_flat Devmem _ Devmem.Inv (fun s => s.mem) fuel args s s' _ _ _ status (cmdDevmemParseOpt_ofWord parsed)
      obeys (fun t ok => ?_) (fun e t error => ?_) (fun t _ => devmemDestroy_kept ndebug t) silent run
    · rw [ok, EStateM.Result.state_ok] at kept
      exact ⟨devmemInit_inv fresh ok, kept⟩
    · rw [error, EStateM.Result.state_error] at kept
      exact kept

end

/-- What a command does to the memory and to the lock of the P2A bridge. -/
theorem AccessStep.flat {fuel : Nat} {b b' : AccessBoard} {e : AccessCommand × AccessAnswer} (range : e.1.InRange)
    (step : AccessStep fuel b e b') : FlatAccess b.mem e b'.mem ∧ AccessLocks b.bar.pkr e b'.bar.pkr := by
  obtain ⟨⟨via, words, stdin, stdout, memory⟩, status, printed⟩ := e
  cases via with
  | ilpc lpcInit lpcDestroy fails =>
    obtain ⟨s', run, same, rfl⟩ := step
    refine ⟨?_, rfl⟩
    have flat := doIlpc_flat rfl range run
    rw [← same] at flat
    exact flat
  | p2a host ctx buf =>
    obtain ⟨s', run, same, rfl⟩ := step
    obtain ⟨flat, locks⟩ := doP2a_flat rfl (fun args parsed => range args.ahbArgs (by
      simp only [AccessCommand.arguments, parsed]
      rfl)) run
    rw [← same] at flat
    exact ⟨flat, locks⟩
  | devmem pgsize opened ndebug ctx buf =>
    obtain ⟨s', run, same, rfl⟩ := step
    refine ⟨?_, rfl⟩
    have flat := doDevmem_flat rfl rfl range run
    rw [← same] at flat
    exact flat

/-- Its system calls and ports work, and its bridge can make the access. -/
def AccessCommand.Works (command : AccessCommand) : Prop :=
  ∃ args, command.arguments = .ok args ∧ args.address.toNat + 4 ≤ 2 ^ 32 ∧ match command.via with
    | .ilpc lpcInit _ fails => lpcInit = .ok () ∧ ∀ n, fails n = none
    | .p2a host _ _ => args.Fits ∧ (∀ parsed, ArgpKey.parse cmdP2aParseOpt command.words ⟨astAhbArgs, 0⟩ = .ok parsed →
      host.pciOpen parsed.deviceId = .ok ()) ∧ (∃ addr, host.mmap = .ok addr) ∧ host.munmap = .ok () ∧ host.pciClose = .ok ()
    | .devmem _ opened ndebug ctx _ => args.address.toNat % 4 = 0 ∧ opened = .ok () ∧ ndebug = true ∧ ctx.Calm

section
variable {fuel : Nat} {words : List String} {args : AstAhbArgs} (range : args.address.toNat + 4 ≤ 2 ^ 32)
include range

theorem doIlpc_returns (parsed : ArgpKey.parse cmdIlpcParseOpt words astAhbArgs = .ok args) (lpcDestroy : Except Errno Unit)
    {s : Access (Faulty SuperIo)} (sound : s.ahb.Sound) : ∃ s', (doIlpc (.ok ()) lpcDestroy fuel words).run s = .ok 0 s' := by
  obtain ⟨r, t, run, _⟩ := @ilpcb_word_returns args 0x2e s.ahb sound
  rw [doIlpc, parsed]
  refine doAccess_returns (cmdIlpcParseOpt_ofWord parsed) (ilpcb_obeys 0x2e range) rfl trivial run ?_
  cases lpcDestroy with
  | ok _ => exact Or.inl ⟨t, rfl⟩
  | error e => exact Or.inr ⟨e, t, rfl, rfl⟩

theorem doP2a_returns {deviceId : BitVec 16}
    (parsed : ArgpKey.parse cmdP2aParseOpt words ⟨astAhbArgs, 0⟩ = .ok ⟨args, deviceId⟩)
    (fits : args.Fits) {host : P2abHost} (found : host.pciOpen deviceId = .ok ()) {addr : Nat} (mapped : host.mmap = .ok addr)
    (munmap : host.munmap = .ok ()) (pciClose : host.pciClose = .ok ()) (buf : Nat) (s : Access P2ab) :
    ∃ s', (doP2a host buf fuel words).run s = .ok 0 s' := by
  obtain ⟨t, opened, synced, _⟩ := p2abInit_ok s.ahb addr
  obtain ⟨r, t', run⟩ := p2ab_word_returns synced fits buf
  have locked : p2abLock.run t' = _ := @run_p2abRegWritel t' p2abPkr 0 (Or.inl rfl)
  rw [doP2a, parsed]
  show ∃ s', (doAccess (p2abCall buf) (p2abInit (host.pciOpen deviceId) host.mmap) (p2abDestroy host.munmap host.pciClose)
    Errno.code fuel args).run s = .ok 0 s'
  rw [found, mapped, munmap, pciClose]
  exact doAccess_returns (cmdP2aParseOpt_ofWord parsed) (p2ab_obeys buf range) opened synced run
    (Or.inl ⟨_, (run_bind_ok locked).trans rfl⟩)

theorem doDevmem_returns (parsed : ArgpKey.parse cmdDevmemParseOpt words astAhbArgs = .ok args)
    (aligned : args.address.toNat % 4 = 0) (pgsize : Size) (buf : Nat) {s : Access Devmem} (fresh : s.ahb.unmapped = [])
    (calm : s.ahb.Calm) : ∃ s', (doDevmem pgsize (.ok ()) true buf fuel words).run s = .ok 0 s' := by
  have obeys : CallObeys (devmemCall buf) Devmem.Inv (fun s => s.mem) args.op :=
    (devmem_serves buf).obeys (AstAhbArgs.op_inRange range)
  obtain ⟨addr, maps⟩ := calm.1 s.ahb.calls
  have view : ∃ io t, (Devmem.mmap astSocIoLen.toNat astSocIo).run { s.ahb with pgsize := pgsize } = .ok io t := by
    simp only [Devmem.mmap, EStateM.run, maps]
    exact ⟨_, _, rfl⟩
  obtain ⟨io, t₁, view⟩ := view
  obtain ⟨t, opened⟩ : ∃ t, (devmemInit pgsize (.ok ())).run s.ahb = .ok () t :=
    ⟨_, (run_bind_ok rfl).trans (run_bind_ok view)⟩
  have inv := devmemInit_inv fresh opened
  have calm' : t.Calm := by
    obtain ⟨_, mmaps, munmaps⟩ := devmemInit_kept pgsize (.ok ()) s.ahb
    rw [opened, EStateM.Result.state_ok] at mmaps munmaps
    rw [Devmem.Calm, mmaps, munmaps]
    exact calm
  obtain ⟨r, t', run⟩ := devmem_word_returns inv calm' range aligned buf
  have last : t'.Inv ∧ t'.Calm :=
    ⟨((obeys t.mem t ⟨inv, rfl⟩).1 r t' run).1, (devmem_word_steady aligned buf t calm').1 r t' run⟩
  have unmaps : ∃ t'', (Devmem.munmap t'.io astSocIoLen.toNat).run t' = .ok () t'' := by
    simp only [Devmem.munmap, EStateM.run, if_neg (not_not.mpr last.1.io.2), last.2.2]
    exact ⟨_, rfl⟩
  obtain ⟨t'', unmaps⟩ := unmaps
  rw [doDevmem, parsed]
  exact doAccess_returns (cmdDevmemParseOpt_ofWord parsed) obeys opened inv run
    (Or.inl ⟨t'', by
      have check : ¬ (t'.win.isSome ∧ ¬ true = true) := fun both => both.2 rfl
      show (do
        if t'.win.isSome ∧ ¬ true = true then throw .fault
        let _ ← attempt (Devmem.munmap t'.io astSocIoLen.toNat) : Prog Devmem Unit).run t' = _
      rw [if_neg check]
      exact (run_bind_ok rfl).trans (run_bind_ok (attempt_ok unmaps))⟩)

end

/-- Where everything works the command returns 0. -/
theorem AccessCommand.Works.returns {command : AccessCommand} (works : command.Works) (fuel : Nat) (b : AccessBoard) :
    ∃ printed b', AccessStep fuel b (command, ⟨0, printed⟩) b' := by
  obtain ⟨args, parsed, range, works⟩ := works
  obtain ⟨via, words, stdin, stdout, memory⟩ := command
  cases via with
  | ilpc lpcInit lpcDestroy fails =>
    obtain ⟨rfl, sound⟩ := works
    obtain ⟨s', run⟩ := @doIlpc_returns fuel words args range parsed lpcDestroy
      ⟨⟨{ b.sio with ahb := b.mem }, fails, 0⟩, stdin, stdout, memory, []⟩ sound
    exact ⟨s'.printed, _, s', run, rfl, rfl⟩
  | p2a host ctx buf =>
    obtain ⟨fits, found, ⟨addr, mapped⟩, munmap, pciClose⟩ := works
    obtain ⟨⟨args', deviceId⟩, whole, rfl⟩ : ∃ parsed, ArgpKey.parse cmdP2aParseOpt words ⟨astAhbArgs, 0⟩ = .ok parsed ∧
        parsed.ahbArgs = args := by
      simp only [AccessCommand.arguments] at parsed
      cases whole : ArgpKey.parse cmdP2aParseOpt words ⟨astAhbArgs, 0⟩ with
      | error e =>
        rw [whole] at parsed
        cases parsed
      | ok parsed' =>
        rw [whole] at parsed
        cases parsed
        exact ⟨parsed', rfl, rfl⟩
    obtain ⟨s', run⟩ := @doP2a_returns fuel words args' range deviceId whole fits host (found _ whole) addr mapped munmap
      pciClose buf ⟨{ ctx with bar := { b.bar with ahb := b.mem } }, stdin, stdout, memory, []⟩
    exact ⟨s'.printed, _, s', run, rfl, rfl⟩
  | devmem pgsize opened ndebug ctx buf =>
    obtain ⟨aligned, rfl, rfl, calm⟩ := works
    obtain ⟨s', run⟩ := @doDevmem_returns fuel words args range parsed aligned pgsize buf
      ⟨{ ctx with mem := b.mem, unmapped := [] }, stdin, stdout, memory, []⟩ rfl calm
    exact ⟨s'.printed, _, s', run, rfl, rfl⟩

/-- Whatever bridges the commands of a run go through, they access one memory: a read prints the word that was stored
last, a write stores one, and only a command with another status than 0 may have done nothing instead. The lock of the
P2A bridge is as its last command left it, and a command that works returns 0 from wherever the run has come to. -/
theorem access_runs {fuel : Nat} {b b' : AccessBoard} {es : List (AccessCommand × AccessAnswer)}
    (run : Run (AccessStep fuel) b es b') (range : ∀ e ∈ es, e.1.InRange) :
    Run (fun s e s' => FlatAccess s.1 e s'.1 ∧ AccessLocks s.2 e s'.2) (b.mem, b.bar.pkr) es (b'.mem, b'.bar.pkr) ∧
      ∀ command : AccessCommand, command.Works → ∃ printed b'', AccessStep fuel b' (command, ⟨0, printed⟩) b'' := by
  refine ⟨?_, fun command works => works.returns fuel b'⟩
  have flat : Run (fun b e b' => FlatAccess b.mem e b'.mem ∧ AccessLocks b.bar.pkr e b'.bar.pkr) b es b' :=
    run.mono_mem range fun _ _ _ range step => AccessStep.flat range step
  exact flat.simulate (fun _ => True) (fun b : AccessBoard => (b.mem, b.bar.pkr)) (fun _ _ _ _ both => ⟨trivial, both⟩)
    trivial

/-- A command of whose system calls none fails. -/
def accessCommand (via : AccessVia) (words : List String) : AccessCommand :=
  ⟨via, words, ⟨[], fun _ => .ok 0, 0⟩, ⟨[], fun _ => .ok 0, 0⟩, true⟩

def accessPoke : AccessCommand :=
  accessCommand (.p2a ⟨fun _ => .ok (), .ok 0x7f0000000000, .ok (), .ok ()⟩ p2abClosed 0)
    ["bmc", "write", "0x1e6e2000", "0x1688a8a8"]

def accessPeek : AccessCommand := accessCommand (.ilpc (.ok ()) (.ok ()) fun _ => none) ["read", "0x1e6e2000"]

def accessBoard : AccessBoard := ⟨fun _ => 0, superIoCleared.dev, p2abClosed.bar⟩

/-- What is stored through P2A is read back through iLPC2AHB. -/
theorem access_runs_back : ∃ a₁ a₂ b', Run (AccessStep 0) accessBoard [(accessPoke, a₁), (accessPeek, a₂)] b' ∧
    a₂.printed = "0x1e6e2000: 0x1688a8a8\n".toList ∧ b'.bar.pkr = 0 := by
  have pokes : accessPoke.arguments = .ok ⟨none, some 0x1688a8a8, 0x1e6e2000, false⟩ := rfl
  have peeks : accessPeek.arguments = .ok ⟨none, none, 0x1e6e2000, true⟩ := rfl
  have fits : AstAhbArgs.Fits ⟨none, some 0x1688a8a8, 0x1e6e2000, false⟩ :=
    show (0x1e6e2000 : Word).toNat % 0x10000 ≤ 0xfffc by decide
  have poke : accessPoke.Works := ⟨_, pokes, by decide, fits, fun _ _ => rfl, ⟨_, rfl⟩, rfl, rfl⟩
  have peek : accessPeek.Works := ⟨_, peeks, by decide, rfl, fun _ => rfl⟩
  obtain ⟨p₁, b₁, step₁⟩ := poke.returns 0 accessBoard
  obtain ⟨p₂, b₂, step₂⟩ := peek.returns 0 b₁
  have range : ∀ e ∈ [(accessPoke, (⟨0, p₁⟩ : AccessAnswer)), (accessPeek, ⟨0, p₂⟩)], e.1.InRange := by
    simp only [List.forall_mem_cons, List.not_mem_nil, false_imp_iff, implies_true, and_true]
    refine ⟨fun args parsed => ?_, fun args parsed => ?_⟩
    · rw [pokes] at parsed
      cases parsed
      decide
    · rw [peeks] at parsed
      cases parsed
      decide
  have run : Run (AccessStep 0) accessBoard [(accessPoke, ⟨0, p₁⟩), (accessPeek, ⟨0, p₂⟩)] b₂ :=
    .cons step₁ (.cons step₂ (.nil b₂))
  refine ⟨⟨0, p₁⟩, ⟨0, p₂⟩, b₂, run, ?_⟩
  cases (access_runs run range).1 with
  | cons first rest =>
    cases rest with
    | cons second last =>
      cases last
      obtain ⟨stored, locked⟩ := first
      obtain ⟨printed, kept⟩ := second
      rw [FlatAccess, pokes] at stored
      rw [FlatAccess, peeks] at printed
      rcases stored with ⟨_, val, some, stored⟩ | ⟨failed, _⟩
      · rcases printed with ⟨line, same⟩ | ⟨failed, _⟩
        · cases some
          refine ⟨?_, kept.trans (locked.1 rfl)⟩
          show p₂ = _
          rw [show p₂ = _ from line, stored]
          exact (congrArg (accessLine 0x1e6e2000) (ByteMem.readWord_write accessBoard.mem 0x1e6e2000 0x1688a8a8)).trans rfl
        · exact absurd rfl failed
      · exact absurd rfl failed

end Culvert
