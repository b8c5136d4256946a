import Culvert.Flash.Chip
import Culvert.Lib.Hoare
import Culvert.Lib.Pending

namespace Culvert

/-- What a flash controller is asked to do, with the answer where there is one. -/
inductive SfcEvent where
  | call
  | wr (op : Byte) (addr : Option Word) (buf : List Byte)
  | rd (op : Byte) (addr : Option Word) (answer : Option (List Byte))
  | directRead (addr : Word) (len : Nat)

namespace SfcEvent

/-- A page program, a sector or block erase, or a chip erase. -/
def Modifies : SfcEvent → Prop
  | wr op _ _ => op ∈ [cmdPp, cmdSe, cmdBe32k, cmdBe, cmdCe, cmdMicBulkErase]
  | _ => False

def ReadsArray : SfcEvent → Prop
  | rd op _ _ => op = cmdRead
  | directRead _ _ => True
  | _ => False

/-- A status read that answered with WIP clear. -/
def Idle : SfcEvent → Prop
  | rd op _ (some (stat :: _)) => op = cmdRdsr ∧ stat &&& statWip = 0
  | _ => False

/-- A status read that answered with WIP clear and WEN set. -/
def Ready : SfcEvent → Prop
  | rd op _ (some (stat :: _)) => op = cmdRdsr ∧ stat &&& statWip = 0 ∧ stat &&& statWen ≠ 0
  | _ => False

end SfcEvent

/-- A controller that records its commands. Which of them fail and what the others answer, byte by
byte, is arbitrary. -/
structure Commands where
  fails : Nat → Option Errno
  answer : Nat → Nat → Byte
  issued : Nat
  trace : List SfcEvent

namespace Commands

def push (s : Commands) (e : SfcEvent) : Commands := { s with issued := s.issued + 1, trace := e :: s.trace }

def command (event : Option (List Byte) → SfcEvent) (n : Nat) : Prog Commands (List Byte) := fun s =>
  match s.fails s.issued with
  | some e => .error (.rc e) (s.push (event none))
  | none =>
    let bs := (List.range n).map (s.answer s.issued)
    .ok bs (s.push (event (some bs)))

def rd (op : Byte) (addr : Option Word) (size : Nat) : Prog Commands (List Byte) := command (.rd op addr) size

def wr (op : Byte) (addr : Option Word) (buf : List Byte) : Prog Commands Unit := do
  let _ ← command (fun _ => .wr op addr buf) 0

def directRead (addr : Word) (len : Nat) : Prog Commands (List Byte) := command (fun _ => .directRead addr len) len

/-- With or without a high level read, and with or without a switch of the address mode. -/
def sfc (direct switches : Bool) (finfo : Option FlashInfo) : Sfc Commands where
  setup := none
  set4b := if switches then some fun _ _ => pure () else none
  chipId := none
  directRead := if direct then some directRead else none
  write := none
  erase := none
  rd := some rd
  wr := some wr
  finfo := finfo

def start (fails : Nat → Option Errno) (answer : Nat → Nat → Byte) : Commands := ⟨fails, answer, 0, []⟩

end Commands

/-- A call of the flash layer that modifies the chip. -/
inductive FlashCall where
  | erase (dst size : Size)
  | write (dst : Word) (src : List Byte) (verify : Bool)
  | smartWrite (dst : Size) (src : List Byte)
  | eraseChip

def flashCall {σ : Type} (c : FlashChip σ) (fuel : Nat) : FlashCall → Prog σ Unit
  | .erase dst size => flashErase c fuel dst size
  | .write dst src verify => flashWrite c fuel dst src verify
  | .smartWrite dst src => flashSmartWrite c fuel dst src
  | .eraseChip => flashEraseChip c fuel

/-- The calls one after the other, whatever they return. -/
def flashCalls (c : FlashChip Commands) (fuel : Nat) : List FlashCall → Prog Commands Unit
  | [] => pure ()
  | call :: rest => do
    modify fun s => { s with trace := .call :: s.trace }
    let _ ← Prog.attempt (flashCall c fuel call)
    flashCalls c fuel rest

namespace SfcEvent

/-- A program or an erase is pending. -/
abbrev Busy : List SfcEvent → Prop := Pending.Open (· = call) Modifies Idle

/-- Each program or erase comes right after a status read that allows it, and while one is pending
neither another one nor an array read is issued. -/
def Ordered (t : List SfcEvent) : Prop :=
  Pending.Preceded Modifies Ready t ∧ Pending.Guarded (· = call) Modifies Idle (fun e => e.Modifies ∨ e.ReadsArray) t

/-- Everything is in order, and the chip is known to be done. -/
def Settled (t : List SfcEvent) : Prop := Ordered t ∧ ¬ Busy t

variable {t : List SfcEvent} {e : SfcEvent}

theorem Ordered.quiet (ordered : Ordered t) (noWrite : ¬ e.Modifies) (noRead : ¬ e.ReadsArray) : Ordered (e :: t) :=
  ⟨⟨fun write => absurd write noWrite, ordered.1⟩, ⟨fun guard => absurd guard (not_or.mpr ⟨noWrite, noRead⟩), ordered.2⟩⟩

theorem Settled.ordered (settled : Settled t) : Ordered t := settled.1

/-- Once nothing is pending, only a program or an erase changes that. -/
theorem Settled.cons (settled : Settled t) (noWrite : ¬ e.Modifies) : Settled (e :: t) := by
  refine ⟨⟨⟨fun write => absurd write noWrite, settled.1.1⟩, ⟨fun _ => settled.2, settled.1.2⟩⟩, ?_⟩
  rintro ⟨_, write | ⟨_, busy⟩⟩
  · exact noWrite write
  · exact settled.2 busy

theorem Ordered.call (ordered : Ordered t) : Settled (call :: t) := by
  refine ⟨ordered.quiet (fun never => never) (fun never => never), ?_⟩
  rintro ⟨marked, _⟩
  exact marked rfl

theorem Ordered.idle (ordered : Ordered t) (idle : e.Idle) (noWrite : ¬ e.Modifies) (noRead : ¬ e.ReadsArray) :
    Settled (e :: t) := by
  refine ⟨ordered.quiet noWrite noRead, ?_⟩
  rintro ⟨_, write | ⟨notIdle, _⟩⟩
  · exact noWrite write
  · exact notIdle idle

theorem Ready.idle (ready : e.Ready) : e.Idle := by
  match e, ready with
  | rd _ _ (some (_ :: _)), ⟨op, wip, _⟩ => exact ⟨op, wip⟩

/-- A status read that allows a program or an erase settles what came before it. -/
theorem Ordered.modify (ordered : Ordered t) (ready : ∃ status ∈ t.head?, status.Ready) : Ordered (e :: t) := by
  refine ⟨⟨fun _ => ready, ordered.1⟩, ⟨fun _ busy => ?_, ordered.2⟩⟩
  obtain ⟨status, head, ready⟩ := ready
  obtain ⟨older, rfl⟩ : ∃ older, t = status :: older := List.head?_eq_some_iff.mp head
  match status, ready with
  | rd _ _ (some (_ :: _)), ⟨op, wip, wen⟩ =>
    rcases busy with ⟨_, write | ⟨notIdle, _⟩⟩
    · exact write
    · exact notIdle ⟨op, wip⟩

end SfcEvent

open SfcEvent

theorem Commands.command_triple {P E : List SfcEvent → Prop} {Q : List Byte → List SfcEvent → Prop}
    {event : Option (List Byte) → SfcEvent} {n : Nat}
    (good : ∀ t bs, P t → bs.length = n → Q bs (event (some bs) :: t)) (bad : ∀ t, P t → E (event none :: t)) :
    Prog.Triple (fun s => P s.trace) (command event n) (fun bs s => Q bs s.trace) fun _ s => E s.trace := by
  intro s here
  refine ⟨fun bs s' run => ?_, fun e s' run => ?_⟩
  · simp only [command, EStateM.run] at run
    split at run
    · cases run
    · cases run
      exact good _ _ here (by simp)
  · simp only [command, EStateM.run] at run
    split at run
    · cases run
      exact bad _ here
    · cases run

/-- From a trace in `P` the program ends with one in `Q`, and with an ordered one when it fails. -/
def Issues {α : Type} (P : List SfcEvent → Prop) (m : Prog Commands α) (Q : α → List SfcEvent → Prop) : Prop :=
  Prog.Triple (fun s => P s.trace) m (fun a s => Q a s.trace) (fun _ s => Ordered s.trace)

namespace Issues
variable {α β : Type} {P P' : List SfcEvent → Prop} {Q Q' : α → List SfcEvent → Prop} {R : β → List SfcEvent → Prop}
variable {m : Prog Commands α} {f : α → Prog Commands β}

theorem pure {a : α} (post : ∀ t, P t → Q a t) : Issues P (pure a) Q := Prog.Triple.pure fun _ => post _

theorem fail {e : Errno} (post : ∀ t, P t → Ordered t) : Issues P (Prog.fail e : Prog Commands α) Q :=
  Prog.Triple.fail fun _ => post _

theorem throw {e : Stop} (post : ∀ t, P t → Ordered t) : Issues P (throw e : Prog Commands α) Q :=
  Prog.Triple.throw fun _ => post _

theorem bind (first : Issues P m Q) (next : ∀ a, Issues (Q a) (f a) R) : Issues P (m >>= f) R :=
  Prog.Triple.bind first next

theorem ite {c : Prop} [Decidable c] {m' : Prog Commands α} (yes : Issues P m Q) (no : Issues P m' Q) :
    Issues P (if c then m else m') Q := Prog.Triple.ite yes no

theorem pre (issues : Issues P m Q) (imp : ∀ t, P' t → P t) : Issues P' m Q :=
  Prog.Triple.conseq issues (fun _ => imp _) (fun _ _ post => post) fun _ _ post => post

theorem post (issues : Issues P m Q) (imp : ∀ a t, Q a t → Q' a t) : Issues P m Q' :=
  Prog.Triple.conseq issues (fun _ here => here) (fun a _ => imp a _) fun _ _ post => post

theorem loop {body : α → Prog Commands (α ⊕ β)} (keeps : ∀ t, P t → Ordered t)
    (turn : ∀ a, Issues P (body a) fun r t => r.elim (fun _ => P t) (R · t)) (fuel : Nat) (a : α) :
    Issues P (Prog.loop body fuel a) R :=
  Prog.Triple.loop (fun _ (s : Commands) => P s.trace) turn (fun _ _ here => keeps _ here) fuel a

theorem attempt (issues : Issues P m fun _ => Ordered) : Issues P (Prog.attempt m) fun _ => Ordered :=
  Prog.Triple.conseq (Prog.Triple.attempt issues) (fun _ here => here) (fun r s post => by
    cases r with
    | ok a => exact post
    | error e => exact post) fun _ _ post => post

theorem command {event : Option (List Byte) → SfcEvent} {n : Nat} {Q : List Byte → List SfcEvent → Prop}
    (good : ∀ t bs, P t → bs.length = n → Q bs (event (some bs) :: t)) (bad : ∀ t, P t → Ordered (event none :: t)) :
    Issues P (Commands.command event n) Q :=
  Commands.command_triple (fun t bs here length => good t bs here length) bad

end Issues

section
variable {direct switches : Bool} {finfo : Option FlashInfo} {ct : Sfc Commands}

theorem rd_quiet {op : Byte} {addr : Option Word} {answer : Option (List Byte)} : ¬ (SfcEvent.rd op addr answer).Modifies :=
  fun never => never

theorem rdsr_quiet {answer : Option (List Byte)} : ¬ (SfcEvent.rd cmdRdsr none answer).ReadsArray := by
  have differ : cmdRdsr ≠ cmdRead := by decide
  exact differ

/-- A write command which is neither a program nor an erase. -/
theorem wr_quiet {op : Byte} {addr : Option Word} {buf : List Byte}
    (quiet : op ∉ [cmdPp, cmdSe, cmdBe32k, cmdBe, cmdCe, cmdMicBulkErase]) :
    Issues Ordered (Commands.wr op addr buf) fun _ => Ordered := by
  refine (Issues.command (Q := fun _ => Ordered) ?_ ?_).bind fun _ => .pure fun _ post => post
  · intro t _ ordered _
    exact ordered.quiet quiet fun never => never
  · intro t ordered
    exact ordered.quiet quiet fun never => never

theorem wr_modifies {op : Byte} {addr : Option Word} {buf : List Byte} :
    Issues (fun t => Ordered t ∧ ∃ status ∈ t.head?, status.Ready) (Commands.wr op addr buf) fun _ => Ordered := by
  refine (Issues.command (Q := fun _ => Ordered) ?_ ?_).bind fun _ => .pure fun _ post => post
  · rintro t _ ⟨ordered, ready⟩ _
    exact ordered.modify ready
  · rintro t ⟨ordered, ready⟩
    exact ordered.modify ready

/-- What a status tells about the trace that ends with it. -/
def Status (stat : Byte) (t : List SfcEvent) : Prop :=
  Ordered t ∧ (stat &&& statWip = 0 → Settled t) ∧
    (stat &&& statWip = 0 → stat &&& statWen ≠ 0 → ∃ status ∈ t.head?, status.Ready)

theorem flReadStat_issues : Issues Ordered (flReadStat (Commands.sfc direct switches finfo)) Status := by
  refine (Issues.command (Q := fun bs => Status (bs.headD 0)) ?_ ?_).bind fun bs => .pure fun _ post => post
  · intro t bs ordered one
    obtain ⟨stat, rfl⟩ := List.length_eq_one_iff.mp one
    have quiet : Ordered (SfcEvent.rd cmdRdsr none (some [stat]) :: t) := ordered.quiet rd_quiet rdsr_quiet
    refine ⟨quiet, fun wip => ?_, fun wip wen => ⟨_, rfl, rfl, wip, wen⟩⟩
    exact ordered.idle ⟨rfl, wip⟩ rd_quiet rdsr_quiet
  · intro t ordered
    exact ordered.quiet rd_quiet rdsr_quiet

theorem flIdle_issues : Issues Settled (flIdle (Commands.sfc direct switches finfo)) fun _ => Settled := by
  cases finfo with
  | none => exact Issues.throw fun _ settled => settled.ordered
  | some finfo =>
    refine Issues.ite ?_ (Issues.pure fun _ settled => settled)
    have flag : Prog.Triple (fun s : Commands => Settled s.trace) (Commands.rd cmdMicRdflst none 1)
        (fun _ s => Settled s.trace) fun _ s => Settled s.trace := by
      refine Commands.command_triple (Q := fun _ => Settled) (E := Settled) ?_ ?_
      · intro t _ settled _
        exact settled.cons rd_quiet
      · intro t settled
        exact settled.cons rd_quiet
    refine Issues.bind (Q := fun _ => Settled) ?_ fun _ => Issues.pure fun _ settled => settled
    refine flag.attempt.conseq (fun _ here => here) (fun r s post => ?_) fun _ _ settled => settled.ordered
    cases r with
    | ok _ => exact post
    | error _ => exact post

theorem flSyncWaitIdle_issues (fuel : Nat) :
    Issues Ordered (flSyncWaitIdle (Commands.sfc direct switches finfo) fuel) fun _ => Settled := by
  refine Issues.loop (fun _ ordered => ordered) (fun _ => ?_) fuel ()
  refine flReadStat_issues.bind fun stat => ?_
  by_cases wip : stat &&& statWip = 0
  · rw [if_pos wip]
    refine Issues.bind (Q := fun _ => Settled) (flIdle_issues.pre fun _ status => status.2.1 wip) fun _ => ?_
    exact Issues.pure fun _ settled => settled
  · rw [if_neg wip]
    exact Issues.pure fun _ status => status.1

/-- `fl_wren` only returns on a status that allows a program or an erase. -/
theorem flWrenLoop_issues (fuel tries : Nat) :
    Issues Ordered (flWrenLoop (Commands.sfc direct switches finfo) fuel tries)
      fun _ t => Ordered t ∧ ∃ status ∈ t.head?, status.Ready := by
  induction tries with
  | zero => exact Issues.fail fun _ ordered => ordered
  | succ tries ih =>
    refine Issues.bind (Q := fun _ => Ordered) (wr_quiet (by decide)) fun _ => ?_
    refine flReadStat_issues.bind fun stat => ?_
    by_cases wip : stat &&& statWip = 0
    · rw [if_neg (not_not.mpr wip)]
      by_cases wen : stat &&& statWen = 0
      · rw [if_neg (not_not.mpr wen)]
        exact ih.pre fun _ status => status.1
      · rw [if_pos wen]
        exact Issues.pure fun _ status => ⟨status.1, status.2.2 wip wen⟩
    · rw [if_pos wip]
      refine Issues.bind (Q := fun _ => Settled) ((flSyncWaitIdle_issues fuel).pre fun _ status => status.1) fun _ => ?_
      exact ih.pre fun _ settled => settled.ordered

/-- The write enable, a program or an erase, and the wait: the steps that they all share. -/
theorem modify_issues {fuel : Nat} {op : Byte} {addr : Option Word} {buf : List Byte} {next : Prog Commands α}
    {Q : α → List SfcEvent → Prop} (ends : Issues Settled next Q) :
    Issues Settled (do
      flWren (Commands.sfc direct switches finfo) fuel
      (Commands.sfc direct switches finfo).cmdWr op addr buf
      flSyncWaitIdle (Commands.sfc direct switches finfo) fuel
      next) Q := by
  refine Issues.bind ((flWrenLoop_issues fuel 1000).pre fun _ settled => settled.ordered) fun _ => ?_
  refine Issues.bind (Q := fun _ => Ordered) wr_modifies fun _ => ?_
  exact (flSyncWaitIdle_issues fuel).bind fun _ => ends

end

section
variable {direct switches : Bool} {finfo : Option FlashInfo} {c : FlashChip Commands}
variable (ctrl : c.ctrl = Commands.sfc direct switches finfo)
include ctrl

theorem flashRead_issues (pos : Size) (len : Nat) : Issues Settled (flashRead c pos len) fun _ => Settled := by
  have array {e : Option (List Byte) → SfcEvent} {n : Nat} (noWrite : ∀ answer, ¬ (e answer).Modifies) :
      Issues Settled (Commands.command e n) fun _ => Settled :=
    Issues.command (fun _ _ settled _ => settled.cons (noWrite _)) fun _ settled => (settled.cons (noWrite _)).ordered
  have manual : Issues Settled (flashReadManual c pos len) fun _ => Settled := by
    rw [flashReadManual, ctrl]
    exact array fun _ never => never
  rw [flashRead, ctrl]
  cases direct with
  | false => exact manual
  | true => exact Issues.ite (array fun _ never => never) manual

theorem flashErase_issues (fuel : Nat) (dst size : Size) :
    Issues Settled (flashErase c fuel dst size) fun _ => Settled := by
  rw [flashErase]
  refine Issues.ite (Issues.fail fun _ settled => settled.ordered) ?_
  refine Issues.ite (Issues.fail fun _ settled => settled.ordered) ?_
  rw [ctrl]
  refine Issues.loop (fun _ settled => settled.ordered) (fun ⟨dst, size⟩ => ?_) fuel _
  refine Issues.ite (Issues.pure fun _ settled => settled) ?_
  rw [ctrl]
  refine modify_issues ?_
  exact Issues.pure fun _ settled => settled

/-- The same without a step after them. -/
theorem modify_last {fuel : Nat} {op : Byte} {addr : Option Word} {buf : List Byte} : Issues Settled (do
      flWren c.ctrl fuel
      c.ctrl.cmdWr op addr buf
      flSyncWaitIdle c.ctrl fuel) fun _ => Settled := by
  rw [ctrl, ← bind_pure_unit (x := flSyncWaitIdle _ fuel)]
  exact modify_issues (Issues.pure fun _ settled => settled)

theorem flashEraseChip_issues (fuel : Nat) : Issues Settled (flashEraseChip c fuel) fun _ => Settled := by
  rw [flashEraseChip]
  refine Issues.ite (Issues.fail fun _ settled => settled.ordered) ?_
  have last : Issues Settled (do
      flWren c.ctrl fuel
      c.ctrl.cmdWr (if c.info.flags &&& flEraseChip ≠ 0 then cmdCe else cmdMicBulkErase) none []
      flSyncWaitIdle c.ctrl fuel) fun _ => Settled := modify_last ctrl
  rw [ctrl] at last ⊢
  exact last

theorem flWpage_issues (fuel : Nat) (dst : Word) (src : List Byte) :
    Issues Settled (flWpage c fuel dst src) fun _ => Settled := by
  rw [flWpage]
  exact Issues.ite (Issues.fail fun _ settled => settled.ordered) (modify_last ctrl)

theorem flashWritePages_issues (fuel : Nat) (d : Word) (s : List Byte) :
    Issues Settled (flashWritePages c fuel d s) fun _ => Settled := by
  induction d, s using flashWritePages.induct with
  | case1 d =>
    rw [flashWritePages, dif_pos rfl]
    exact Issues.pure fun _ settled => settled
  | case2 d s more chunk ih =>
    rw [flashWritePages, dif_neg more]
    exact (flWpage_issues ctrl fuel d _).bind fun _ => ih

theorem flashVerify_issues (dst : Word) (src : List Byte) :
    Issues Settled (flashVerify c dst src) fun _ => Settled := by
  induction dst, src using flashVerify.induct with
  | case1 dst =>
    rw [flashVerify, dif_pos rfl]
    exact Issues.pure fun _ settled => settled
  | case2 dst src more chunk ih =>
    rw [flashVerify, dif_neg more]
    refine (flashRead_issues ctrl _ _).bind fun vbuf => ?_
    exact Issues.ite (Issues.fail fun _ settled => settled.ordered) ih

theorem flashWrite_issues (fuel : Nat) (dst : Word) (src : List Byte) (verify : Bool) :
    Issues Settled (flashWrite c fuel dst src verify) fun _ => Settled := by
  have manual : Issues Settled (flashWriteManual c fuel dst src) fun _ => Settled := by
    rw [flashWriteManual]
    exact Issues.ite (Issues.fail fun _ settled => settled.ordered) (flashWritePages_issues ctrl fuel dst src)
  have data : Issues Settled (flashWriteData c fuel dst src) fun _ => Settled := by
    rw [flashWriteData, ctrl]
    exact manual
  rw [flashWrite]
  refine Issues.ite (Issues.fail fun _ settled => settled.ordered) (data.bind fun _ => ?_)
  exact Issues.ite (flashVerify_issues ctrl dst src) (Issues.pure fun _ settled => settled)

theorem flashSmartBlock_issues (fuel : Nat) (dst : Size) (page off : Word) (src buf : List Byte) :
    Issues Settled (flashSmartBlock c fuel dst page off src buf) fun _ => Settled := by
  rw [flashSmartBlock]
  cases flashSmartComp src (buf.drop off.toNat) true with
  | noChange => exact Issues.pure fun _ settled => settled
  | needWrite => exact flashWrite_issues ctrl fuel _ src true
  | needErase => exact (flashErase_issues ctrl fuel _ _).bind fun _ => flashWrite_issues ctrl fuel _ _ true

theorem flashSmartWriteLoop_issues (fuel : Nat) (stop : Word) (dst : Size) (src : List Byte) :
    Issues Settled (flashSmartWriteLoop c fuel stop dst src) fun _ => Settled := by
  induction dst, src using flashSmartWriteLoop.induct c stop with
  | case1 dst src more ih =>
    rw [flashSmartWriteLoop, if_pos more]
    refine (flashRead_issues ctrl _ _).bind fun buf => (flashSmartBlock_issues ctrl fuel dst _ _ _ buf).bind fun _ => ?_
    by_cases stuck : smartChunk c dst src.length = 0
    · rw [dif_pos stuck]
      exact Issues.throw fun _ settled => settled.ordered
    · rw [dif_neg stuck]
      exact ih stuck
  | case2 dst src done =>
    rw [flashSmartWriteLoop, if_neg done]
    exact Issues.pure fun _ settled => settled

theorem flashSmartWrite_issues (fuel : Nat) (dst : Size) (src : List Byte) :
    Issues Settled (flashSmartWrite c fuel dst src) fun _ => Settled := by
  rw [flashSmartWrite]
  exact Issues.ite (Issues.fail fun _ settled => settled.ordered) (flashSmartWriteLoop_issues ctrl fuel _ dst src)

/-- What one call keeps, whether it succeeds or not. -/
theorem flashCall_issues (fuel : Nat) (call : FlashCall) :
    Issues Settled (flashCall c fuel call) fun _ => Settled := by
  cases call with
  | erase dst size => exact flashErase_issues ctrl fuel dst size
  | write dst src verify => exact flashWrite_issues ctrl fuel dst src verify
  | smartWrite dst src => exact flashSmartWrite_issues ctrl fuel dst src
  | eraseChip => exact flashEraseChip_issues ctrl fuel

/-- What any sequence of calls keeps. -/
theorem flashCalls_issues (fuel : Nat) (calls : List FlashCall) :
    Issues Ordered (flashCalls c fuel calls) fun _ => Ordered := by
  induction calls with
  | nil => exact Issues.pure fun _ ordered => ordered
  | cons call rest ih =>
    have marked : Issues Ordered (modify fun s => { s with trace := .call :: s.trace }) fun _ => Settled := by
      intro s ordered
      refine ⟨fun _ s' run => ?_, fun _ _ never => ?_⟩
      · cases run
        exact ordered.call
      · cases never
    refine marked.bind fun _ => Issues.bind (Q := fun _ => Ordered) ?_ fun _ => ih
    exact ((flashCall_issues ctrl fuel call).post fun _ _ settled => settled.ordered).attempt

end

/-- Each program or erase comes right after a status read with WEN set and WIP clear, and within one
call no array read, program or erase follows it before a status read has answered with WIP clear. -/
structure Handshaken (trace : List SfcEvent) : Prop where
  enabled : ∀ before e after, trace = before ++ e :: after → e.Modifies → ∃ status ∈ before.getLast?, status.Ready
  waited : ∀ before e between e' after, trace = before ++ e :: between ++ e' :: after → e.Modifies →
    (e'.Modifies ∨ e'.ReadsArray) → SfcEvent.call ∉ between → ∃ status ∈ between, status.Idle

theorem Handshaken.of_ordered {trace : List SfcEvent} (ordered : Ordered trace.reverse) : Handshaken trace := by
  refine ⟨fun before e after split write => Pending.preceded_last ordered.1 split write, ?_⟩
  intro before e between e' after split write guard same
  refine Pending.closed_between ordered.2 split write ?_ guard fun x mem marked => same (marked ▸ mem)
  rintro rfl
  exact write

/-- What the chip is told in a sequence of calls. -/
def flashTrace (c : FlashChip Commands) (fuel : Nat) (calls : List FlashCall) (fails : Nat → Option Errno)
    (answer : Nat → Nat → Byte) : List SfcEvent :=
  ((flashCalls c fuel calls).run (.start fails answer)).state.trace.reverse

/-- The handshake is kept by any sequence of calls, whatever the chip answers and whichever commands
fail. -/
theorem flash_handshake (direct switches mode4b : Bool) (finfo : Option FlashInfo) (info : FlashInfo)
    (tsize minEraseMask : Word) (fuel : Nat) (calls : List FlashCall) (fails : Nat → Option Errno)
    (answer : Nat → Nat → Byte) :
    Handshaken (flashTrace ⟨Commands.sfc direct switches finfo, info, tsize, minEraseMask, mode4b⟩ fuel calls fails
      answer) := by
  refine .of_ordered ?_
  rw [flashTrace, List.reverse_reverse]
  let c : FlashChip Commands := ⟨Commands.sfc direct switches finfo, info, tsize, minEraseMask, mode4b⟩
  have ctrl : c.ctrl = Commands.sfc direct switches finfo := rfl
  have kept : Prog.Triple (fun s => Ordered s.trace) (flashCalls c fuel calls) (fun _ s => Ordered s.trace)
      fun _ s => Ordered s.trace := flashCalls_issues ctrl fuel calls
  exact kept.state ⟨trivial, trivial⟩

end Culvert
