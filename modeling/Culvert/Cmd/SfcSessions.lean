import Culvert.Cmd.SfcWrite
import Culvert.Flash.EraseTiles
import Culvert.Lib.Run

/-! Sessions of the command `sfc`: what a chip holds after any number of them. -/

namespace Culvert
open Prog NorChip

/-- A command with what it meets. -/
structure SfcCommand where
  arguments : CmdSfcArgs
  found : Bool
  malloc : Nat → Option (List Byte)
  stdin : Fd
  stdout : Fd

/-- The error of a command that fails, and what it has printed. -/
@[ext]
structure SfcAnswer where
  failure : Option Errno
  printed : List Byte

def SfcAnswer.result {σ : Type} (answer : SfcAnswer) (s : σ) : EStateM.Result Stop σ Unit :=
  match answer.failure with
  | none => .ok () s
  | some e => .error (.rc e) s

theorem SfcAnswer.result_inj {σ : Type} {answer answer' : SfcAnswer} {s s' : σ} (same : answer.result s = answer'.result s') :
    answer.failure = answer'.failure ∧ s = s' := by
  rw [result, result] at same
  cases failure : answer.failure with
  | none =>
    cases failure' : answer'.failure with
    | none =>
      rw [failure, failure'] at same
      cases same
      exact ⟨rfl, rfl⟩
    | some _ =>
      rw [failure, failure'] at same
      cases same
  | some _ =>
    cases failure' : answer'.failure with
    | none =>
      rw [failure, failure'] at same
      cases same
    | some _ =>
      rw [failure, failure'] at same
      cases same
      exact ⟨rfl, rfl⟩

namespace SfcCommand

def start (command : SfcCommand) : Nat := command.arguments.address.toNat

def stop (command : SfcCommand) : Nat := command.arguments.address.toNat + command.arguments.len.toNat

/-- There is a controller, and memory for the buffer. -/
def Equipped (command : SfcCommand) : Prop :=
  command.found = true ∧ match command.arguments.operation with
    | .read => (command.malloc command.arguments.len.toNat).isSome
    | .write => (command.malloc sfcCmdFlashWin.toNat).isSome
    | .erase => True

/-- The checks of `flash_erase` pass. -/
def Admits (command : SfcCommand) (f : NorFlash) : Prop :=
  EraseAdmits f.chip (command.arguments.address.setWidth 64) (command.arguments.len.setWidth 64)

/-- An erase that takes nothing but its range. -/
def Tiled (command : SfcCommand) (f : NorFlash) : Prop :=
  command.arguments.operation = .erase → command.Admits f → EraseFits f.info.flags command.start command.stop

end SfcCommand

/-- A command on a chip, with its answer and the chip that it leaves. -/
def SfcStep (f : NorFlash) (d : NorChip) (e : SfcCommand × SfcAnswer) (d' : NorChip) : Prop :=
  ∃ stdin stdout, Settles (doSfc f.chip e.1.found e.1.malloc e.1.arguments) ⟨d, e.1.stdin, e.1.stdout⟩
    (e.2.result ⟨d', stdin, stdout⟩) ∧ stdout.bytes = e.1.stdout.bytes ++ e.2.printed

/-- The array with the bytes from `a` up to `stop` erased. -/
def erased (mem : Mem) (a stop : Nat) : Mem := fun x => if a ≤ x ∧ x < stop then 0xff else mem x

/-- The array can take the stream without an erase. -/
def StreamFits (tsize : Nat) (mem : Mem) (a : Nat) (stream : List Byte) : Prop :=
  stream = [] ∨ a + stream.length ≤ tsize ∧ CoveredBy mem a stream

/-- A `read` prints from the front of its range, and something of it where it returns 0. -/
structure SfcReads (mem : Mem) (command : SfcCommand) (answer : SfcAnswer) (mem' : Mem) : Prop where
  kept : mem' = mem
  front : answer.printed <+: ByteMem.read mem command.start command.arguments.len.toNat
  some : answer.failure = none → command.arguments.len ≠ 0 → answer.printed ≠ []
  works : command.stdout.Works → answer.failure = none

/-- A `write` that returns 0 has stored the whole stream; one that fails has anded what it got to. -/
structure SfcStores (tsize : Nat) (mem : Mem) (command : SfcCommand) (answer : SfcAnswer) (mem' : Mem) : Prop where
  quiet : answer.printed = []
  programmed : ∃ n, mem' = anded mem command.start (command.stdin.bytes.take n)
  stored : answer.failure = none → StreamFits tsize mem command.start command.stdin.bytes ∧
    mem' = ByteMem.write mem command.start command.stdin.bytes
  works : command.stdin.Works → StreamFits tsize mem command.start command.stdin.bytes → answer.failure = none

/-- An `erase` is refused, or takes its range; where the range does not fit the blocks it may take others. -/
structure SfcErases (f : NorFlash) (mem : Mem) (command : SfcCommand) (answer : SfcAnswer) (mem' : Mem) : Prop where
  quiet : answer.printed = []
  refused : ¬ command.Admits f → answer.failure ≠ none ∧ mem' = mem
  taken : command.Admits f → EraseFits f.info.flags command.start command.stop →
    answer.failure = none ∧ mem' = erased mem command.start command.stop
  only : ∀ x, mem' x = mem x ∨ mem' x = 0xff

/-- What a flash makes of a command. One without a controller or a buffer does nothing, and returns 0. -/
def SfcPlay (f : NorFlash) (mem : Mem) (e : SfcCommand × SfcAnswer) (mem' : Mem) : Prop :=
  (¬ e.1.Equipped → e.2 = ⟨none, []⟩ ∧ mem' = mem) ∧ (e.1.Equipped → match e.1.arguments.operation with
    | .read => SfcReads mem e.1 e.2 mem'
    | .write => SfcStores f.tsize.toNat mem e.1 e.2 mem'
    | .erase => SfcErases f mem e.1 e.2 mem')

section
variable {f : NorFlash} {mem mem' : Mem} {e : SfcCommand × SfcAnswer}

theorem sfcPlay_read_iff (equipped : e.1.Equipped) (read : e.1.arguments.operation = .read) :
    SfcPlay f mem e mem' ↔ SfcReads mem e.1 e.2 mem' := by
  simp only [SfcPlay, equipped, read, not_true, false_imp_iff, true_and, forall_true_left]

theorem sfcPlay_write_iff (equipped : e.1.Equipped) (write : e.1.arguments.operation = .write) :
    SfcPlay f mem e mem' ↔ SfcStores f.tsize.toNat mem e.1 e.2 mem' := by
  simp only [SfcPlay, equipped, write, not_true, false_imp_iff, true_and, forall_true_left]

theorem sfcPlay_erase_iff (equipped : e.1.Equipped) (erase : e.1.arguments.operation = .erase) :
    SfcPlay f mem e mem' ↔ SfcErases f mem e.1 e.2 mem' := by
  simp only [SfcPlay, equipped, erase, not_true, false_imp_iff, true_and, forall_true_left]

theorem sfcPlay_unequipped (unequipped : ¬ e.1.Equipped) : SfcPlay f mem e mem' ↔ e.2 = ⟨none, []⟩ ∧ mem' = mem := by
  simp only [SfcPlay, unequipped, not_false_iff, forall_true_left, false_imp_iff, and_true]

end

/-- What a plain memory makes of it. -/
def FlatSfc (mem : Mem) (e : SfcCommand × SfcAnswer) (mem' : Mem) : Prop :=
  match e.1.arguments.operation with
  | .read => mem' = mem ∧ e.2.printed <+: ByteMem.read mem e.1.start e.1.arguments.len.toNat
  | .write => mem' = ByteMem.write mem e.1.start e.1.stdin.bytes
  | .erase => mem' = erased mem e.1.start e.1.stop

/-- It has what it needs, returns 0 and takes nothing but its range. -/
def SfcSucceeds (f : NorFlash) (e : SfcCommand × SfcAnswer) : Prop :=
  e.1.Equipped ∧ e.2.failure = none ∧ e.1.Tiled f

section
variable {tsize a : Nat} {mem mem' : Mem} {bs cs : List Byte}

theorem CoveredBy.append_iff : CoveredBy mem a (bs ++ cs) ↔ CoveredBy mem a bs ∧ CoveredBy mem (a + bs.length) cs := by
  constructor
  · intro all
    refine ⟨fun i inside => ?_, fun i inside => ?_⟩
    · have byte := all i (by rw [List.length_append]; omega)
      rw [List.getElem_append_left inside] at byte
      exact byte
    · have byte := all (bs.length + i) (by rw [List.length_append]; omega)
      rw [List.getElem_append_right (by omega)] at byte
      simpa [Nat.add_assoc] using byte
  · rintro ⟨first, next⟩ i inside
    rw [List.length_append] at inside
    by_cases here : i < bs.length
    · rw [List.getElem_append_left here]
      exact first i here
    · have byte := next (i - bs.length) (by omega)
      rw [List.getElem_append_right (by omega)]
      rw [show a + bs.length + (i - bs.length) = a + i by omega] at byte
      exact byte

theorem streamFits_append_iff (more : bs ≠ []) : StreamFits tsize mem a (bs ++ cs) ↔
    a + bs.length ≤ tsize ∧ CoveredBy mem a bs ∧ StreamFits tsize mem (a + bs.length) cs := by
  have some : bs ++ cs ≠ [] := List.append_ne_nil_of_left_ne_nil more cs
  have length : (bs ++ cs).length = bs.length + cs.length := List.length_append
  rw [StreamFits, StreamFits, or_iff_right some, CoveredBy.append_iff, length]
  constructor
  · rintro ⟨fits, first, next⟩
    exact ⟨by omega, first, Or.inr ⟨by omega, next⟩⟩
  · rintro ⟨fits, first, rfl | ⟨fits', next⟩⟩
    · exact ⟨fits, first, fun i inside => absurd inside (Nat.not_lt_zero i)⟩
    · exact ⟨by omega, first, next⟩

theorem StreamFits.congr (same : ∀ x, a ≤ x → mem' x = mem x) :
    StreamFits tsize mem' a bs ↔ StreamFits tsize mem a bs := by
  rw [StreamFits, StreamFits, CoveredBy.congr same]

end

/-- The chip between two commands. -/
structure SfcIdle (f : NorFlash) (d : NorChip) : Prop where
  idle : d.busy = 0
  flags : d.flags = f.info.flags

/-- What the loop of a `write` comes to. -/
structure SfcLoops (f : NorFlash) (s : SfcRun NorChip) (a : Nat) (answer : SfcAnswer) (s' : SfcRun NorChip) : Prop where
  idle : SfcIdle f s'.flash
  output : s'.stdout = s.stdout
  quiet : answer.printed = []
  programmed : ∃ n, s'.flash.mem = anded s.flash.mem a (s.stdin.bytes.take n)
  stored : answer.failure = none → StreamFits f.tsize.toNat s.flash.mem a s.stdin.bytes ∧
    s'.flash.mem = ByteMem.write s.flash.mem a s.stdin.bytes
  works : s.stdin.Works → StreamFits f.tsize.toNat s.flash.mem a s.stdin.bytes → answer.failure = none

section
variable {f : NorFlash} {s : SfcRun NorChip} {d d' : NorChip} {address : Word} {n : Nat}

theorem anded_nil (mem : Mem) (a : Nat) : anded mem a [] = mem := by simp [anded]

/-- A turn that stops the loop with the chip as it is. -/
theorem SfcLoops.kept {answer : SfcAnswer} {fd : Fd} (ready : SfcIdle f s.flash) (quiet : answer.printed = [])
    (ended : answer.failure = none → s.stdin.bytes = [])
    (works : s.stdin.Works → StreamFits f.tsize.toNat s.flash.mem address.toNat s.stdin.bytes → answer.failure = none) :
    SfcLoops f s address.toNat answer { s with stdin := fd } where
  idle := ready
  output := rfl
  quiet := quiet
  programmed := ⟨0, (anded_nil s.flash.mem address.toNat).symm⟩
  stored returned := by
    have none := ended returned
    refine ⟨Or.inl none, ?_⟩
    rw [none, ByteMem.write_nil]
  works := works

/-- The loop is over where no chunk comes. -/
theorem sfcWrite_over (ready : SfcIdle f s.flash)
    (ended : (∃ e fd, (Fd.read sfcCmdFlashWin.toNat).run s.stdin = .error (.rc e) fd) ∨
    ∃ fd, (Fd.read sfcCmdFlashWin.toNat).run s.stdin = .ok [] fd ∧ s.stdin.bytes = []) (n : Nat) :
    ∃ answer s', LoopSettles (sfcWriteTurn f.chip sfcCmdFlashWin) (n + 1) address s (SfcAnswer.result answer s') ∧
      SfcLoops f s address.toNat answer s' := by
  rcases ended with ⟨e, fd, run⟩ | ⟨fd, run, empty⟩
  · have turn (fuel : Nat) : (sfcWriteTurn f.chip sfcCmdFlashWin fuel address).run s = .error (.rc e) { s with stdin := fd } :=
      run_bind_error (zoom_error_iff.mpr ⟨fd, run, rfl⟩)
    refine ⟨⟨some e, []⟩, { s with stdin := fd }, (LoopSettles.stop ⟨0, fun fuel _ => turn fuel⟩).mono (by omega), ?_⟩
    exact .kept ready rfl (fun never => absurd never (Option.some_ne_none e)) fun works _ => absurd run works.read_not_error
  · have turn (fuel : Nat) : (sfcWriteTurn f.chip sfcCmdFlashWin fuel address).run s = .ok (.inr ()) { s with stdin := fd } :=
      run_bind_ok (zoom_ok_iff.mpr ⟨fd, run, rfl⟩)
    refine ⟨⟨none, []⟩, { s with stdin := fd }, (LoopSettles.last ⟨0, fun fuel _ => turn fuel⟩).mono (by omega), ?_⟩
    exact .kept ready rfl (fun _ => empty) fun _ _ => rfl

/-- A chunk has been stored, and the rest of the stream is still to come. -/
theorem SfcLoops.next {answer : SfcAnswer} {s' : SfcRun NorChip} {bs : List Byte} {fd : Fd}
    (whole : s.stdin.bytes = bs ++ fd.bytes)
    (more : bs ≠ []) (fits : address.toNat + bs.length ≤ f.tsize.toNat) (covered : CoveredBy s.flash.mem address.toNat bs)
    (array : d.mem = anded s.flash.mem address.toNat bs) (works : s.stdin.Works → fd.Works)
    (rest : SfcLoops f { s with stdin := fd, flash := d } (address.toNat + bs.length) answer s') :
    SfcLoops f s address.toNat answer s' := by
  have same (x : Nat) (le : address.toNat + bs.length ≤ x) : d.mem x = s.flash.mem x := by
    rw [array]
    exact anded_outside (Or.inr le)
  have fits_iff : StreamFits f.tsize.toNat s.flash.mem address.toNat s.stdin.bytes ↔
      StreamFits f.tsize.toNat d.mem (address.toNat + bs.length) fd.bytes := by
    rw [whole, streamFits_append_iff more, StreamFits.congr same]
    exact ⟨fun all => all.2.2, fun last => ⟨fits, covered, last⟩⟩
  refine ⟨rest.idle, rest.output, rest.quiet, ?_, fun returned => ?_, fun works' ok => ?_⟩
  · obtain ⟨n, programmed⟩ := rest.programmed
    refine ⟨bs.length + n, ?_⟩
    rw [programmed, array, whole, List.take_length_add_append, anded_append]
  · obtain ⟨ok, stored⟩ := rest.stored returned
    refine ⟨fits_iff.mpr ok, ?_⟩
    rw [stored, whole, ByteMem.write_append, array, anded_eq_write covered]
  · exact rest.works (works works') (fits_iff.mp ok)

theorem sfcWrite_loops (ready : SfcIdle f s.flash) (few : s.stdin.bytes.length ≤ n) :
    ∃ answer s', LoopSettles (sfcWriteTurn f.chip sfcCmdFlashWin) (n + 1) address s (SfcAnswer.result answer s') ∧
      SfcLoops f s address.toNat answer s' := by
  have bound := f.tsize.isLt
  have pos : 0 < sfcCmdFlashWin.toNat := by decide
  induction n generalizing s address with
  | zero =>
    rcases stdin_cases s pos with failed | ended | ⟨bs, fd, run, some', most, whole⟩
    · exact sfcWrite_over ready (Or.inl failed) 0
    · exact sfcWrite_over ready (Or.inr ended) 0
    · rw [whole, List.length_append] at few
      omega
  | succ n ih =>
    rcases stdin_cases s pos with failed | ended | ⟨bs, fd, run, some', most, whole⟩
    · exact sfcWrite_over ready (Or.inl failed) (n + 1)
    · exact sfcWrite_over ready (Or.inr ended) (n + 1)
    · have more : bs ≠ [] := List.length_pos_iff.mp some'
      have unfit : ¬ (address.toNat + bs.length ≤ f.tsize.toNat ∧ CoveredBy s.flash.mem address.toNat bs) →
          ¬ StreamFits f.tsize.toNat s.flash.mem address.toNat s.stdin.bytes := by
        intro apart all
        rw [whole, streamFits_append_iff more] at all
        exact apart ⟨all.1, all.2.1⟩
      by_cases fits : address.toNat + bs.length ≤ f.tsize.toNat
      · have ctrl : f.chip.ctrl = NorChip.sfc f.direct f.switches f.info := rfl
        obtain ⟨d', idle', flags, array, _, turn⟩ := sfcWriteTurn_programs ctrl ready.idle run some' fits
        have ready' : SfcIdle f d' := ⟨idle', flags.trans ready.flags⟩
        by_cases covered : CoveredBy s.flash.mem address.toNat bs
        · rw [if_pos covered] at turn
          have next : (address + BitVec.ofNat 32 bs.length).toNat = address.toNat + bs.length :=
            Word.toNat_add_ofNat (by omega)
          have fewer : fd.bytes.length ≤ n := by
            rw [whole, List.length_append] at few
            omega
          obtain ⟨answer, s', rest, loops⟩ :=
            @ih { s with stdin := fd, flash := d' } (address + BitVec.ofNat 32 bs.length) ready' fewer
          rw [next] at loops
          exact ⟨answer, s', .next turn rest, loops.next whole more fits covered array fun works => works.of_read run⟩
        · rw [if_neg covered] at turn
          refine ⟨⟨some eremoteio, []⟩, { s with stdin := fd, flash := d' }, (LoopSettles.stop turn).mono (by omega), ?_⟩
          refine ⟨ready', rfl, rfl, ⟨bs.length, ?_⟩, fun never => absurd never (Option.some_ne_none _), fun _ all => ?_⟩
          · rw [whole, List.take_left]
            exact array
          · exact absurd all (unfit fun both => covered both.2)
      · refine ⟨⟨some einval, []⟩, { s with stdin := fd },
          (LoopSettles.stop (sfcWriteTurn_refused run some' most fits)).mono (by omega), ?_⟩
        refine .kept ready rfl (fun never => absurd never (Option.some_ne_none _)) fun _ all => ?_
        exact absurd all (unfit fun both => fits both.1)

theorem apply_erase_only {flags addr : Word} {op : Byte} {mem : Mem} {x : Nat} :
    apply flags (.erase op addr) mem x = mem x ∨ apply flags (.erase op addr) mem x = 0xff := by
  cases known : blockSize flags op with
  | none =>
    rw [apply, known]
    exact Or.inl rfl
  | some size =>
    rw [apply, known]
    by_cases inside : x / size = addr.toNat / size
    · exact Or.inr (if_pos inside)
    · exact Or.inl (if_neg inside)

/-- Whatever a loop of erases leaves is as it was or erased. -/
theorem flashEraseLoop_only {fuel turns : Nat} {here : Size × Size} (idle : d.busy = 0)
    (run : (Prog.loop (flashEraseTurn f.chip fuel) turns here).run d = .ok () d') :
    d'.busy = 0 ∧ d'.flags = d.flags ∧ ∀ x, d'.mem x = d.mem x ∨ d'.mem x = 0xff := by
  have ctrl : f.chip.ctrl = NorChip.sfc f.direct f.switches f.chip.info := rfl
  induction turns generalizing here d with
  | zero => cases run
  | succ turns ih =>
    rw [Prog.loop] at run
    obtain ⟨r, d₁, turn, rest⟩ := Prog.bind_ok_iff.mp run
    by_cases done : here.2 = 0
    · rw [flashEraseTurn, if_pos done] at turn
      cases turn
      cases rest
      exact ⟨idle, rfl, fun _ => Or.inl rfl⟩
    · obtain ⟨rfl, rfl⟩ := flashEraseTurn_ok ctrl idle done turn
      obtain ⟨idle', flags, only⟩ := ih rfl rest
      refine ⟨idle', flags, fun x => ?_⟩
      have first : (d.done (eraseOp f.chip.info.flags here)).mem x = d.mem x ∨
          (d.done (eraseOp f.chip.info.flags here)).mem x = 0xff := apply_erase_only
      rcases only x with same | set
      · rw [same]
        exact first
      · exact Or.inr set


/-- An erase only fails by not coming to an end. -/
theorem flSyncWaitIdle_error {direct switches : Bool} {finfo : FlashInfo} {fuel : Nat} {e : Stop}
    (run : (flSyncWaitIdle (NorChip.sfc direct switches finfo) fuel).run d = .error e d') : e = .hang := by
  rw [flSyncWaitIdle] at run
  induction fuel generalizing d with
  | zero =>
    cases run
    rfl
  | succ fuel ih =>
    rw [Prog.loop] at run
    have turn : ∃ r d₁, (flSyncWaitIdleTurn (NorChip.sfc direct switches finfo) ()).run d = .ok r d₁ := by
      by_cases idle : d.status &&& statWip = 0
      · refine ⟨.inr (), { d with busy := d.busy - 1 }, ?_⟩
        rw [flSyncWaitIdleTurn, run_bind_ok flReadStat_nor, if_pos idle, run_bind_ok flIdle_nor]
        rfl
      · refine ⟨.inl (), { d with busy := d.busy - 1 }, ?_⟩
        rw [flSyncWaitIdleTurn, run_bind_ok flReadStat_nor, if_neg idle]
        rfl
    obtain ⟨r, d₁, ok⟩ := turn
    rw [run_bind_ok ok] at run
    cases r with
    | inl _ => exact ih run
    | inr _ => cases run

theorem flashEraseTurn_error {here : Size × Size} {fuel : Nat} {e : Stop} (idle : d.busy = 0)
    (run : (flashEraseTurn f.chip fuel here).run d = .error e d') : e = .hang := by
  by_cases done : here.2 = 0
  · rw [flashEraseTurn, if_pos done] at run
    cases run
  · have wren : (flWren (NorChip.sfc f.direct f.switches f.info) fuel).run d = .ok () { d with wel := true } :=
      flWrenLoop_nor idle fuel 999
    have ctrl : f.chip.ctrl = NorChip.sfc f.direct f.switches f.info := rfl
    rw [flashEraseTurn, if_neg done, ctrl, run_bind_ok wren] at run
    rcases bind_error_iff.mp run with never | ⟨_, d₁, _, run⟩
    · cases never
    · rcases bind_error_iff.mp run with wait | ⟨_, _, _, never⟩
      · exact flSyncWaitIdle_error wait
      · cases never

theorem flashEraseLoop_error {fuel turns : Nat} {here : Size × Size} {e : Stop} (idle : d.busy = 0)
    (run : (Prog.loop (flashEraseTurn f.chip fuel) turns here).run d = .error e d') : e = .hang := by
  have ctrl : f.chip.ctrl = NorChip.sfc f.direct f.switches f.chip.info := rfl
  induction turns generalizing here d with
  | zero =>
    cases run
    rfl
  | succ turns ih =>
    rw [Prog.loop] at run
    rcases bind_error_iff.mp run with first | ⟨r, d₁, turn, rest⟩
    · exact flashEraseTurn_error idle first
    · by_cases done : here.2 = 0
      · rw [flashEraseTurn, if_pos done] at turn
        cases turn
        cases rest
      · obtain ⟨rfl, rfl⟩ := flashEraseTurn_ok ctrl idle done turn
        exact ih rfl rest

end

section
variable {f : NorFlash} {d d' : NorChip} {command : SfcCommand}

/-- Without a controller, and where `malloc` gives no buffer, nothing is done. -/
theorem doSfc_unequipped (unequipped : ¬ command.Equipped) :
    SfcStep f d (command, ⟨none, []⟩) d := by
  refine ⟨command.stdin, command.stdout, ⟨0, fun fuel _ => ?_⟩, (List.append_nil _).symm⟩
  show (doSfc f.chip command.found command.malloc command.arguments fuel).run _ = .ok () _
  rw [doSfc]
  by_cases found : command.found = true
  · rw [SfcCommand.Equipped] at unequipped
    cases operation : command.arguments.operation with
    | read =>
      have none : command.malloc command.arguments.len.toNat = none := by
        simpa [found, operation] using unequipped
      simp only [found, none, not_true, if_false]
      rfl
    | write =>
      have none : command.malloc sfcCmdFlashWin.toNat = none := by
        simpa [found, operation] using unequipped
      simp only [found, none, not_true, if_false]
      rfl
    | erase => simp [found, operation] at unequipped
  · simp only [found]
    rfl

theorem doSfc_read (ready : SfcIdle f d) (equipped : command.Equipped) (read : command.arguments.operation = .read) :
    ∃ answer, SfcStep f d (command, answer) d ∧ SfcReads d.mem command answer d.mem := by
  obtain ⟨found, memory⟩ := equipped
  simp only [read] at memory
  obtain ⟨buf, memory⟩ := Option.isSome_iff_exists.mp memory
  have wide : (command.arguments.address.setWidth 64 : Size).toNat = command.start :=
    BitVec.toNat_setWidth_of_le (by decide)
  have small : (command.arguments.address.setWidth 64 : Size).toNat < 2 ^ 32 := by
    rw [wide]
    exact command.arguments.address.isLt
  have ctrl : f.chip.ctrl = NorChip.sfc f.direct f.switches f.chip.info := rfl
  have shown := flashRead_nor ctrl ready.idle small command.arguments.len.toNat
  rw [wide] at shown
  have seen : (attempt (SfcRun.onFlash (flashRead f.chip (command.arguments.address.setWidth 64)
      command.arguments.len.toNat))).run (⟨d, command.stdin, command.stdout⟩ : SfcRun NorChip) =
        .ok (.ok (ByteMem.read d.mem command.start command.arguments.len.toNat)) ⟨d, command.stdin, command.stdout⟩ :=
    attempt_ok (zoom_ok_iff.mpr ⟨d, shown, rfl⟩)
  have body (fuel : Nat) : (doSfc f.chip command.found command.malloc command.arguments fuel).run
      ⟨d, command.stdin, command.stdout⟩ = (do
        let _ ← SfcRun.onStdout (Fd.write (ByteMem.read d.mem command.start command.arguments.len.toNat))
        return : Prog (SfcRun NorChip) Unit).run ⟨d, command.stdin, command.stdout⟩ := by
    simp only [doSfc, found, read, memory, not_true, if_false]
    rw [run_bind_ok seen]
    rfl
  obtain ⟨fd, _, ⟨n, written, bytes, some'⟩ | ⟨fails, bytes, e, failed⟩⟩ :=
    Fd.write_front command.stdout (ByteMem.read d.mem command.start command.arguments.len.toNat)
  · refine ⟨⟨none, (ByteMem.read d.mem command.start command.arguments.len.toNat).take n⟩,
      ⟨command.stdin, fd, ⟨0, fun fuel _ => ?_⟩, bytes⟩, rfl, List.take_prefix _ _, fun _ more => some' ?_, fun _ => rfl⟩
    · exact (body fuel).trans (run_bind_ok (zoom_ok_iff.mpr ⟨fd, written, rfl⟩))
    · intro empty
      have length := ByteMem.read_length d.mem command.start command.arguments.len.toNat
      rw [empty] at length
      exact more (BitVec.eq_of_toNat_eq length.symm)
  · refine ⟨⟨some e, []⟩, ⟨command.stdin, fd, ⟨0, fun fuel _ => ?_⟩, ?_⟩, rfl, List.nil_prefix,
      fun never => absurd never (Option.some_ne_none e), fun works => absurd works fails⟩
    · exact (body fuel).trans (run_bind_error (zoom_error_iff.mpr ⟨fd, failed, rfl⟩))
    · rw [bytes, List.append_nil]

theorem doSfc_write (ready : SfcIdle f d) (equipped : command.Equipped) (write : command.arguments.operation = .write) :
    ∃ answer d', SfcStep f d (command, answer) d' ∧ SfcIdle f d' ∧
      SfcStores f.tsize.toNat d.mem command answer d'.mem := by
  obtain ⟨found, memory⟩ := equipped
  simp only [write] at memory
  obtain ⟨buf, memory⟩ := Option.isSome_iff_exists.mp memory
  have body (fuel : Nat) : doSfc f.chip command.found command.malloc command.arguments fuel =
      loop (sfcWriteTurn f.chip sfcCmdFlashWin fuel) fuel command.arguments.address := by
    simp only [doSfc, found, write, memory, not_true, if_false]
  obtain ⟨answer, s', runs, loops⟩ := @sfcWrite_loops f ⟨d, command.stdin, command.stdout⟩ command.arguments.address
    command.stdin.bytes.length ready (Nat.le_refl _)
  have settles := runs.settles
  simp only [← body] at settles
  have output : s'.stdout.bytes = command.stdout.bytes ++ answer.printed := by
    rw [loops.output, loops.quiet, List.append_nil]
  exact ⟨answer, s'.flash, ⟨s'.stdin, s'.stdout, settles, output⟩, loops.idle, loops.quiet, loops.programmed, loops.stored,
    loops.works⟩

theorem doSfc_erase_body (equipped : command.Equipped) (erase : command.arguments.operation = .erase) (fuel : Nat) :
    doSfc f.chip command.found command.malloc command.arguments fuel = SfcRun.onFlash (flashErase f.chip fuel
      (command.arguments.address.setWidth 64) (command.arguments.len.setWidth 64)) := by
  simp only [doSfc, equipped.1, erase, not_true, if_false]

/-- An erase that is refused, or that fits the blocks. -/
theorem doSfc_erase (ready : SfcIdle f d) (equipped : command.Equipped) (erase : command.arguments.operation = .erase)
    (tiled : command.Tiled f) : ∃ answer d', SfcStep f d (command, answer) d' ∧ SfcIdle f d' ∧
      SfcErases f d.mem command answer d'.mem := by
  by_cases admits : command.Admits f
  · obtain ⟨bits, granule, at'⟩ := eraseAdmits_granule admits
    have ctrl : f.chip.ctrl = NorChip.sfc f.direct f.switches f.chip.info := rfl
    have start : (command.arguments.address.setWidth 64 : Size).toNat = command.start :=
      BitVec.toNat_setWidth_of_le (by decide)
    have len : (command.arguments.len.setWidth 64 : Size).toNat = command.arguments.len.toNat :=
      BitVec.toNat_setWidth_of_le (by decide)
    have fits := tiled erase admits
    rw [start, len] at at'
    obtain ⟨turns, d', ops, ends, _, _, array⟩ := flashEraseLoop_tiles ctrl granule ready.flags ready.idle at'
      (by rw [start]; exact fits)
    obtain ⟨enough, run⟩ := ends.ends
    obtain ⟨idle, flags, only⟩ := flashEraseLoop_only ready.idle (run enough (Nat.le_refl _))
    refine ⟨⟨none, []⟩, d', ⟨command.stdin, command.stdout, ⟨enough, fun fuel le => ?_⟩, (List.append_nil _).symm⟩,
      ⟨idle, flags.trans ready.flags⟩, rfl, fun refused => absurd admits refused, fun _ _ => ⟨rfl, ?_⟩, only⟩
    · rw [doSfc_erase_body equipped erase, flashErase_admitted admits rfl]
      exact zoom_ok_iff.mpr ⟨d', run fuel le, rfl⟩
    · funext x
      rw [array, start]
      rfl
  · refine ⟨⟨some einval, []⟩, d, ⟨command.stdin, command.stdout, ⟨0, fun fuel _ => ?_⟩, (List.append_nil _).symm⟩, ready,
      rfl, fun _ => ⟨Option.some_ne_none _, rfl⟩, fun never => absurd never admits, fun _ => Or.inl rfl⟩
    have fails : flashErase f.chip fuel (command.arguments.address.setWidth 64) (command.arguments.len.setWidth 64) =
        Prog.fail einval := by
      rw [flashErase]
      split
      · rfl
      · split
        · rfl
        case isFalse range boundaries => exact absurd ⟨range, not_not.mp boundaries⟩ admits
    rw [doSfc_erase_body equipped erase, fails]
    exact zoom_error_iff.mpr ⟨d, rfl, rfl⟩

/-- Every command whose erase fits returns. -/
theorem doSfc_returns (ready : SfcIdle f d) (tiled : command.Tiled f) : ∃ answer d', SfcStep f d (command, answer) d' ∧
    SfcIdle f d' ∧ SfcPlay f d.mem (command, answer) d'.mem := by
  by_cases equipped : command.Equipped
  · cases operation : command.arguments.operation with
    | read =>
      obtain ⟨answer, step, reads⟩ := doSfc_read ready equipped operation
      exact ⟨answer, d, step, ready, (sfcPlay_read_iff equipped operation).mpr reads⟩
    | write =>
      obtain ⟨answer, d', step, ready', stores⟩ := doSfc_write ready equipped operation
      exact ⟨answer, d', step, ready', (sfcPlay_write_iff equipped operation).mpr stores⟩
    | erase =>
      obtain ⟨answer, d', step, ready', erases⟩ := doSfc_erase ready equipped operation tiled
      exact ⟨answer, d', step, ready', (sfcPlay_erase_iff equipped operation).mpr erases⟩
  · exact ⟨⟨none, []⟩, d, doSfc_unequipped equipped, ready, (sfcPlay_unequipped equipped).mpr ⟨rfl, rfl⟩⟩

/-- The command has one answer and leaves one chip. -/
theorem SfcStep.unique {answer answer' : SfcAnswer} {d₁ d₂ : NorChip} (first : SfcStep f d (command, answer) d₁)
    (second : SfcStep f d (command, answer') d₂) : answer = answer' ∧ d₁ = d₂ := by
  obtain ⟨stdin, stdout, settles, output⟩ := first
  obtain ⟨stdin', stdout', settles', output'⟩ := second
  obtain ⟨failure, same⟩ := SfcAnswer.result_inj (settles.unique settles')
  cases same
  have printed : answer.printed = answer'.printed := List.append_cancel_left (output.symm.trans output')
  exact ⟨SfcAnswer.ext failure printed, rfl⟩

/-- An erase whose range does not fit the blocks, where it returns. -/
theorem SfcStep.untiled {e : SfcCommand × SfcAnswer} (ready : SfcIdle f d) (step : SfcStep f d e d')
    (untiled : ¬ e.1.Tiled f) :
    SfcIdle f d' ∧ SfcPlay f d.mem e d'.mem := by
  obtain ⟨erase, admits, unfit⟩ :
      e.1.arguments.operation = .erase ∧ e.1.Admits f ∧ ¬ EraseFits f.info.flags e.1.start e.1.stop := by
    simpa only [SfcCommand.Tiled, Classical.not_imp] using untiled
  by_cases equipped : e.1.Equipped
  · obtain ⟨stdin, stdout, ⟨enough, run⟩, output⟩ := step
    have run := run enough (Nat.le_refl _)
    rw [doSfc_erase_body equipped erase, flashErase_admitted admits rfl, SfcAnswer.result] at run
    cases failure : e.2.failure with
    | none =>
      rw [failure] at run
      obtain ⟨d₁, ok, same⟩ := zoom_ok_iff.mp run
      cases same
      obtain ⟨idle, flags, only⟩ := flashEraseLoop_only ready.idle ok
      refine ⟨⟨idle, flags.trans ready.flags⟩, (sfcPlay_erase_iff equipped erase).mpr ⟨?_, fun refused => absurd admits refused,
        fun _ fits => absurd fits unfit, only⟩⟩
      exact List.append_cancel_left (output.symm.trans (List.append_nil _).symm)
    | some _ =>
      rw [failure] at run
      obtain ⟨d₁, failed, _⟩ := zoom_error_iff.mp run
      cases flashEraseLoop_error ready.idle failed
  · obtain ⟨command, answer⟩ := e
    obtain ⟨rfl, rfl⟩ := step.unique (doSfc_unequipped equipped)
    exact ⟨ready, (sfcPlay_unequipped equipped).mpr ⟨rfl, rfl⟩⟩

theorem SfcStep.plays {e : SfcCommand × SfcAnswer} (ready : SfcIdle f d) (step : SfcStep f d e d') :
    SfcIdle f d' ∧ SfcPlay f d.mem e d'.mem := by
  by_cases tiled : e.1.Tiled f
  · obtain ⟨answer, d₁, step₁, ready₁, play⟩ := doSfc_returns ready tiled
    obtain ⟨command, answer'⟩ := e
    obtain ⟨rfl, rfl⟩ := step.unique step₁
    exact ⟨ready₁, play⟩
  · exact step.untiled ready tiled

/-- A command that succeeds does to the array what it would do to a plain memory. -/
theorem SfcPlay.flat {mem mem' : Mem} {e : SfcCommand × SfcAnswer} (play : SfcPlay f mem e mem') (succeeds : SfcSucceeds f e) :
    FlatSfc mem e mem' := by
  obtain ⟨equipped, returned, tiled⟩ := succeeds
  cases operation : e.1.arguments.operation with
  | read =>
    have reads := (sfcPlay_read_iff equipped operation).mp play
    simp only [FlatSfc, operation]
    exact ⟨reads.kept, reads.front⟩
  | write =>
    have stores := (sfcPlay_write_iff equipped operation).mp play
    simp only [FlatSfc, operation]
    exact (stores.stored returned).2
  | erase =>
    have erases := (sfcPlay_erase_iff equipped operation).mp play
    simp only [FlatSfc, operation]
    by_cases admits : e.1.Admits f
    · exact (erases.taken admits (tiled operation admits)).2
    · exact absurd returned (erases.refused admits).1

end

end Culvert
