import Culvert.Cmd.ViaCommands
import Culvert.Flash.Programmed
import Culvert.Lib.Fd

namespace Culvert
open Prog

/-- What `do_sfc` works on. -/
structure SfcRun (σ : Type) where
  flash : σ
  stdin : Fd
  stdout : Fd

namespace SfcRun
variable {σ α : Type}

def onFlash (m : Prog σ α) : Prog (SfcRun σ) α := zoom (fun s => s.flash) (fun s flash => { s with flash := flash }) m

def onStdin (m : Prog Fd α) : Prog (SfcRun σ) α := zoom (fun s => s.stdin) (fun s fd => { s with stdin := fd }) m

def onStdout (m : Prog Fd α) : Prog (SfcRun σ) α := zoom (fun s => s.stdout) (fun s fd => { s with stdout := fd }) m

end SfcRun

/-- `SFC_FLASH_WIN`, as `do_sfc` has it. -/
def sfcCmdFlashWin : Word := 64 <<< 10

section
variable {σ : Type} (c : FlashChip σ)

/-- What one `read` gives is written, wherever it ends. -/
def sfcWriteTurn (len : Word) (fuel : Nat) (address : Word) : Prog (SfcRun σ) (Word ⊕ Unit) := do
  let buf ← SfcRun.onStdin (Fd.read len.toNat)
  if buf = [] then return .inr ()
  SfcRun.onFlash (flashWrite c fuel address buf true)
  return .inl (address + BitVec.ofNat 32 buf.length)

/-- `do_sfc` once the SoC is probed, with the chip that `flash_init` sets up. Where there is no controller, and where
`malloc` gives no buffer, `rc` is still 0. -/
def doSfc (sfc : Bool) (malloc : Nat → Option (List Byte)) (arguments : CmdSfcArgs) (fuel : Nat) : Prog (SfcRun σ) Unit := do
  if ¬ sfc then return
  match arguments.operation with
  | .read =>
    match malloc arguments.len.toNat with
    | none => return
    | some buf => do
      let rc ← attempt (SfcRun.onFlash (flashRead c (arguments.address.setWidth 64) arguments.len.toNat))
      let _ ← SfcRun.onStdout (Fd.write (rc.toOption.getD buf))
      let _ ← ofExcept rc
      return
  | .write =>
    let arguments := { arguments with len := sfcCmdFlashWin }
    match malloc arguments.len.toNat with
    | none => return
    | some _ => loop (sfcWriteTurn c arguments.len fuel) fuel arguments.address
  | .erase => SfcRun.onFlash (flashErase c fuel (arguments.address.setWidth 64) (arguments.len.setWidth 64))

/-- The whole command, on what follows its name. A failing `argp_error` exits with 64. -/
def doSfcLine (drivers : List BridgeDriver) (sfc : Bool) (malloc : Nat → Option (List Byte)) (items : List ArgpItem)
    (fuel : Nat) : Prog (SfcRun σ) Nat :=
  match cmdSfc.parse drivers items with
  | .error _ => return 64
  | .ok arguments => do
    doSfc c sfc malloc arguments.own fuel
    return 0

end

/-- `--sfc fmc write ADDRESS LENGTH`, however the option is written. -/
def sfcWriteLine (argv : List String) (address len : String) : List ArgpItem :=
  [.option 's' (some "fmc") argv, .word "write", .word address, .word len]

/-- The address and the length are cut to 32 bits. -/
theorem cmdSfc_writeLine {first second : String} {address len : Nat} (numerals : Numerals first second address len)
    (drivers : List BridgeDriver) (argv : List String) : cmdSfc.parse drivers (sfcWriteLine argv first second) =
      .ok ⟨⟨some "fmc", .ofNat 32 address, .ofNat 32 len, .write⟩, connectionArgs⟩ := by
  obtain ⟨one, two⟩ := numerals
  have run : cmdSfc.parseFrom drivers 1 [.word first, .word second] ⟨⟨some "fmc", 0, 0, .write⟩, connectionArgs⟩ =
      .ok ⟨⟨some "fmc", wordArg first, wordArg second, .write⟩, connectionArgs⟩ := by
    simp only [ViaCommand.parseFrom, ViaCommand.parseOpt, if_neg (numeral_ne_via one), if_neg (numeral_ne_via two)]
    rfl
  rw [wordArg, wordArg, one, two] at run
  exact run

/-- What the next `read`s of up to `count` bytes give, up to the end or a failure. -/
def chunks (count : Nat) : Nat → Fd → List (List Byte)
  | 0, _ => []
  | turns + 1, fd =>
    match (Fd.read count).run fd with
    | .ok bs fd => if bs = [] then [] else bs :: chunks count turns fd
    | .error _ _ => []

instance (mem : Mem) (a : Nat) (src : List Byte) : Decidable (CoveredBy mem a src) :=
  inferInstanceAs (Decidable (∀ i (inside : i < src.length), src[i] &&& ~~~mem (a + i) = 0))

/-- How many bytes from `a` on are programmed: up to the first chunk that does not fit, or up to and with the first
that the array cannot take without an erase. -/
def sfcProgrammed (tsize : Nat) (mem : Mem) : Nat → List (List Byte) → Nat
  | _, [] => 0
  | a, bs :: later =>
    if tsize < a + bs.length then 0
    else if CoveredBy mem a bs then bs.length + sfcProgrammed tsize mem (a + bs.length) later
    else bs.length

theorem CoveredBy.congr {mem mem' : Mem} {a : Nat} {src : List Byte} (same : ∀ x, a ≤ x → mem' x = mem x) :
    CoveredBy mem' a src ↔ CoveredBy mem a src := by
  have each (i : Nat) : mem' (a + i) = mem (a + i) := same (a + i) (Nat.le_add_right a i)
  simp only [CoveredBy, each]

theorem sfcProgrammed_congr {tsize a : Nat} {mem mem' : Mem} {later : List (List Byte)}
    (same : ∀ x, a ≤ x → mem' x = mem x) : sfcProgrammed tsize mem' a later = sfcProgrammed tsize mem a later := by
  induction later generalizing a with
  | nil => rfl
  | cons bs later ih =>
    rw [sfcProgrammed, sfcProgrammed, ih fun x le => same x (by omega)]
    simp only [CoveredBy.congr same]

section
variable {direct switches : Bool} {finfo : FlashInfo} {c : FlashChip NorChip} {s : SfcRun NorChip} {address : Word}
variable {n count : Nat}

/-- What the whole stream comes to. -/
structure SfcWrote (c : FlashChip NorChip) (s : SfcRun NorChip) (address : Word) (programmed : Nat)
    (r : EStateM.Result Stop (SfcRun NorChip) Unit) : Prop where
  stops : ∀ s', r ≠ .error .hang s'
  alters : AltersExactly s.flash r.state.flash address.toNat programmed
  below : ∀ x < address.toNat, r.state.flash.mem x = s.flash.mem x
  stored : ∀ s', r = .ok () s' → ByteMem.read s'.flash.mem address.toNat s.stdin.bytes.length = s.stdin.bytes
  whole : ∀ s', r = .ok () s' → programmed = s.stdin.bytes.length ∧
    (s.stdin.bytes ≠ [] → address.toNat + s.stdin.bytes.length ≤ c.tsize.toNat)

/-- What a `read` of standard input can come to. -/
theorem stdin_cases (s : SfcRun NorChip) (pos : 0 < count) :
    (∃ e fd, (Fd.read count).run s.stdin = .error (.rc e) fd) ∨
    (∃ fd, (Fd.read count).run s.stdin = .ok [] fd ∧ s.stdin.bytes = []) ∨
    ∃ bs fd, (Fd.read count).run s.stdin = .ok bs fd ∧ 0 < bs.length ∧ bs.length ≤ count ∧
      s.stdin.bytes = bs ++ fd.bytes := by
  cases answered : s.stdin.answers s.stdin.calls with
  | error e =>
    refine Or.inl ⟨e, { s.stdin with calls := s.stdin.calls + 1 }, ?_⟩
    simp only [Fd.read, EStateM.run, Fd.answer, answered]
    rfl
  | ok k =>
    have most := Fd.clamp_le count k
    have least := Fd.clamp_pos pos k
    have run : (Fd.read count).run s.stdin = .ok (s.stdin.bytes.take (Fd.clamp count k))
        { s.stdin with bytes := s.stdin.bytes.drop (Fd.clamp count k), calls := s.stdin.calls + 1 } := by
      simp only [Fd.read, EStateM.run, Fd.answer, answered]
      rfl
    by_cases empty : s.stdin.bytes = []
    · rw [empty, List.take_nil] at run
      exact Or.inr (Or.inl ⟨_, run, empty⟩)
    · have long : 0 < s.stdin.bytes.length := List.length_pos_iff.mpr empty
      refine Or.inr (Or.inr ⟨_, _, run, ?_, ?_, (List.take_append_drop _ _).symm⟩)
      · rw [List.length_take]
        omega
      · rw [List.length_take]
        omega

/-- Nothing is programmed where no chunk comes, or one that does not fit. -/
theorem SfcWrote.none {fd : Fd} {r : EStateM.Result Stop (SfcRun NorChip) Unit}
    (kept : r.state = { s with stdin := fd }) (stops : ∀ s', r ≠ .error .hang s')
    (empty : ∀ s', r = .ok () s' → s.stdin.bytes = []) : SfcWrote c s address 0 r where
  stops := stops
  alters := by
    rw [kept]
    exact .refl s.flash address.toNat
  below _ _ := by rw [kept]
  stored s' ok := by
    rw [empty s' ok]
    rfl
  whole s' ok := by
    rw [empty s' ok]
    exact ⟨rfl, fun more => absurd rfl more⟩

/-- A chunk that does not fit is refused. -/
theorem sfcWriteTurn_refused {bs : List Byte} {fd : Fd} (run : (Fd.read sfcCmdFlashWin.toNat).run s.stdin = .ok bs fd)
    (some' : 0 < bs.length) (most : bs.length ≤ sfcCmdFlashWin.toNat) (sticks : ¬ address.toNat + bs.length ≤ c.tsize.toNat) :
    Settles (fun fuel => sfcWriteTurn c sfcCmdFlashWin fuel address) s (.error (.rc einval) { s with stdin := fd }) := by
  have win : sfcCmdFlashWin.toNat = 0x10000 := rfl
  have more : bs ≠ [] := List.length_pos_iff.mp some'
  refine ⟨0, fun fuel _ => ?_⟩
  have refused := @flashWrite_refused c s.flash address bs (by omega) sticks fuel
  have read : (SfcRun.onStdin (Fd.read sfcCmdFlashWin.toNat)).run s = .ok bs { s with stdin := fd } :=
    zoom_ok_iff.mpr ⟨fd, run, rfl⟩
  have write : (SfcRun.onFlash (flashWrite c fuel address bs true)).run { s with stdin := fd } =
      .error (.rc einval) { s with stdin := fd } := zoom_error_iff.mpr ⟨s.flash, refused, rfl⟩
  show (sfcWriteTurn c sfcCmdFlashWin fuel address).run s = _
  rw [sfcWriteTurn, run_bind_ok read]
  simp only [if_neg more]
  exact run_bind_error write

/-- A chunk that fits is programmed, and the loop goes on behind it if it can be read back. -/
theorem sfcWriteTurn_programs {bs : List Byte} {fd : Fd} (ctrl : c.ctrl = NorChip.sfc direct switches finfo)
    (idle : s.flash.busy = 0) (run : (Fd.read sfcCmdFlashWin.toNat).run s.stdin = .ok bs fd) (some' : 0 < bs.length)
    (fits : address.toNat + bs.length ≤ c.tsize.toNat) :
    ∃ d', d'.busy = 0 ∧ d'.flags = s.flash.flags ∧ d'.mem = NorChip.anded s.flash.mem address.toNat bs ∧
      AltersExactly s.flash d' address.toNat bs.length ∧
      Settles (fun fuel => sfcWriteTurn c sfcCmdFlashWin fuel address) s
        (if CoveredBy s.flash.mem address.toNat bs
          then .ok (.inl (address + BitVec.ofNat 32 bs.length)) { s with stdin := fd, flash := d' }
          else .error (.rc eremoteio) { s with stdin := fd, flash := d' }) := by
  have more : bs ≠ [] := List.length_pos_iff.mp some'
  obtain ⟨d', idle', flags, array, alters, settles⟩ := flashWrite_settles ctrl idle some' fits
  refine ⟨d', idle', flags, array, alters, ?_⟩
  have read : (SfcRun.onStdin (Fd.read sfcCmdFlashWin.toNat)).run s = .ok bs { s with stdin := fd } :=
    zoom_ok_iff.mpr ⟨fd, run, rfl⟩
  have start (fuel : Nat) : (sfcWriteTurn c sfcCmdFlashWin fuel address).run s = (do
      SfcRun.onFlash (flashWrite c fuel address bs true)
      return .inl (address + BitVec.ofNat 32 bs.length) : Prog (SfcRun NorChip) (Word ⊕ Unit)).run { s with stdin := fd } := by
    rw [sfcWriteTurn, run_bind_ok read]
    simp only [if_neg more]
  simp only [array, read_anded_iff] at settles
  obtain ⟨enough, runs⟩ := settles
  refine ⟨enough, fun fuel le => (start fuel).trans ?_⟩
  have write := runs fuel le
  by_cases covered : CoveredBy s.flash.mem address.toNat bs
  · rw [if_pos covered] at write ⊢
    exact run_bind_ok (zoom_ok_iff.mpr ⟨d', write, rfl⟩)
  · rw [if_neg covered] at write ⊢
    exact run_bind_error (zoom_error_iff.mpr ⟨d', write, rfl⟩)

/-- The loop is over where no chunk comes. -/
theorem sfcWrite_ended (ended : (∃ e fd, (Fd.read sfcCmdFlashWin.toNat).run s.stdin = .error (.rc e) fd) ∨
    ∃ fd, (Fd.read sfcCmdFlashWin.toNat).run s.stdin = .ok [] fd ∧ s.stdin.bytes = []) (n : Nat) :
    ∃ r, LoopSettles (sfcWriteTurn c sfcCmdFlashWin) (n + 1) address s r ∧ SfcWrote c s address
      (sfcProgrammed c.tsize.toNat s.flash.mem address.toNat (chunks sfcCmdFlashWin.toNat (n + 1) s.stdin)) r := by
  rcases ended with ⟨e, fd, run⟩ | ⟨fd, run, empty⟩
  · have turn (fuel : Nat) : (sfcWriteTurn c sfcCmdFlashWin fuel address).run s = .error (.rc e) { s with stdin := fd } :=
      run_bind_error (zoom_error_iff.mpr ⟨fd, run, rfl⟩)
    refine ⟨_, (LoopSettles.stop ⟨0, fun fuel _ => turn fuel⟩).mono (by omega), ?_⟩
    rw [chunks, run]
    exact .none rfl (fun _ never => nomatch never) fun _ never => nomatch never
  · have turn (fuel : Nat) : (sfcWriteTurn c sfcCmdFlashWin fuel address).run s = .ok (.inr ()) { s with stdin := fd } :=
      run_bind_ok (zoom_ok_iff.mpr ⟨fd, run, rfl⟩)
    refine ⟨_, (LoopSettles.last ⟨0, fun fuel _ => turn fuel⟩).mono (by omega), ?_⟩
    rw [chunks, run]
    exact .none rfl (fun _ never => nomatch never) fun _ _ => empty

theorem sfcWrite_settles (ctrl : c.ctrl = NorChip.sfc direct switches finfo) (idle : s.flash.busy = 0)
    (few : s.stdin.bytes.length ≤ n) : ∃ r, LoopSettles (sfcWriteTurn c sfcCmdFlashWin) (n + 1) address s r ∧
      SfcWrote c s address
        (sfcProgrammed c.tsize.toNat s.flash.mem address.toNat (chunks sfcCmdFlashWin.toNat (n + 1) s.stdin)) r := by
  have bound := c.tsize.isLt
  have pos : 0 < sfcCmdFlashWin.toNat := by decide
  induction n generalizing s address with
  | zero =>
    rcases stdin_cases s pos with failed | ended | ⟨bs, fd, run, some', most, whole⟩
    · exact sfcWrite_ended (Or.inl failed) 0
    · exact sfcWrite_ended (Or.inr ended) 0
    · rw [whole, List.length_append] at few
      omega
  | succ n ih =>
    rcases stdin_cases s pos with failed | ended | ⟨bs, fd, run, some', most, whole⟩
    · exact sfcWrite_ended (Or.inl failed) (n + 1)
    · exact sfcWrite_ended (Or.inr ended) (n + 1)
    · have more : bs ≠ [] := List.length_pos_iff.mp some'
      have list : chunks sfcCmdFlashWin.toNat (n + 1 + 1) s.stdin = bs :: chunks sfcCmdFlashWin.toNat (n + 1) fd := by
        rw [chunks, run]
        exact if_neg more
      rw [list, sfcProgrammed]
      by_cases fits : address.toNat + bs.length ≤ c.tsize.toNat
      · rw [if_neg (by omega)]
        obtain ⟨d', idle', flags, array, alters, turn⟩ := sfcWriteTurn_programs ctrl idle run some' fits
        by_cases covered : CoveredBy s.flash.mem address.toNat bs
        · rw [if_pos covered] at turn ⊢
          have next : (address + BitVec.ofNat 32 bs.length).toNat = address.toNat + bs.length :=
            Word.toNat_add_ofNat (by omega)
          have fewer : fd.bytes.length ≤ n := by
            rw [whole, List.length_append] at few
            omega
          obtain ⟨r, rest, wrote⟩ := @ih { s with stdin := fd, flash := d' } (address + BitVec.ofNat 32 bs.length) idle' fewer
          have later : sfcProgrammed c.tsize.toNat d'.mem (address.toNat + bs.length) (chunks sfcCmdFlashWin.toNat (n + 1) fd) =
              sfcProgrammed c.tsize.toNat s.flash.mem (address.toNat + bs.length) (chunks sfcCmdFlashWin.toNat (n + 1) fd) :=
            sfcProgrammed_congr fun x le => by
              rw [array]
              exact NorChip.anded_outside (Or.inr le)
          have below := wrote.below
          have alters' := wrote.alters
          have stored := wrote.stored
          have total := wrote.whole
          rw [next] at below alters' stored total
          rw [later] at alters' total
          refine ⟨r, .next turn rest, wrote.stops, alters.trans flags alters', fun x less => ?_, fun s' ok => ?_,
            fun s' ok => ?_⟩
          · rw [below x (by omega), array]
            exact NorChip.anded_outside (Or.inl less)
          · have first : ByteMem.read s'.flash.mem address.toNat bs.length = bs := by
              have kept : ByteMem.read s'.flash.mem address.toNat bs.length = ByteMem.read d'.mem address.toNat bs.length :=
                ByteMem.read_congr fun x _ less => by
                  have same := below x less
                  rw [ok] at same
                  exact same
              rw [kept, array]
              exact read_anded_iff.mpr covered
            rw [whole, List.length_append, ByteMem.read_add, first, stored s' ok]
          · obtain ⟨count, inside⟩ := total s' ok
            rw [whole, List.length_append, count]
            refine ⟨rfl, fun _ => ?_⟩
            by_cases ended : fd.bytes = []
            · rw [ended, List.length_nil]
              exact fits
            · have := inside ended
              dsimp only at this
              omega
        · rw [if_neg covered] at turn ⊢
          refine ⟨_, (LoopSettles.stop turn).mono (by omega), by simp, alters, fun x less => ?_, by simp, by simp⟩
          show d'.mem x = s.flash.mem x
          rw [array]
          exact NorChip.anded_outside (Or.inl less)
      · rw [if_pos (by omega)]
        refine ⟨_, (LoopSettles.stop (sfcWriteTurn_refused run some' most fits)).mono (by omega), ?_⟩
        exact .none rfl (fun _ never => nomatch never) fun _ never => nomatch never

end

/-- The bytes stand in a flash of that size from `a` on. -/
def InFlash (tsize : Nat) (mem : Mem) (a : Nat) (bs : List Byte) : Prop :=
  ∀ i (inside : i < bs.length), a + i < tsize ∧ mem (a + i) = bs[i]

instance (tsize : Nat) (mem : Mem) (a : Nat) (bs : List Byte) : Decidable (InFlash tsize mem a bs) :=
  inferInstanceAs (Decidable (∀ i (inside : i < bs.length), a + i < tsize ∧ mem (a + i) = bs[i]))

/-- What `sfc --sfc fmc write ADDRESS LENGTH` should do, whatever numbers the two are: it ends, programs nothing outside
the range, and where it returns 0 the stream is in the flash, as much of it as was asked for. -/
structure SfcWritesRange (tsize address len : Nat) (s : SfcRun NorChip) (r : EStateM.Result Stop (SfcRun NorChip) Nat) :
    Prop where
  stops : ∀ s', r ≠ .error .hang s'
  frame : ∃ new, r.state.flash.ops = new ++ s.flash.ops ∧ ∀ op ∈ new, ∀ x, op.Alters s.flash.flags x →
    address ≤ x ∧ x < address + len
  stored : ∀ s', r = .ok 0 s' → InFlash tsize s'.flash.mem address (s.stdin.bytes.take len)

/-- The chunks that get programmed are none, or no more than LENGTH in all at an ADDRESS of 32 bits; where there is no
controller or no memory, the flash has the bytes already. -/
def SfcWriteAdmits (c : FlashChip NorChip) (sfc : Bool) (malloc : Nat → Option (List Byte)) (address len : Nat)
    (s : SfcRun NorChip) : Prop :=
  if sfc ∧ (malloc sfcCmdFlashWin.toNat).isSome then
    let programmed := sfcProgrammed c.tsize.toNat s.flash.mem (address % 2 ^ 32)
      (chunks sfcCmdFlashWin.toNat (s.stdin.bytes.length + 1) s.stdin)
    programmed = 0 ∨ address < 2 ^ 32 ∧ programmed ≤ len
  else InFlash c.tsize.toNat s.flash.mem address (s.stdin.bytes.take len)

section
variable {direct switches : Bool} {finfo : FlashInfo} {c : FlashChip NorChip} {s : SfcRun NorChip}
variable {sfc : Bool} {malloc : Nat → Option (List Byte)} {arguments : CmdSfcArgs}
variable {drivers : List BridgeDriver} {argv : List String} {first second : String} {address len : Nat}

theorem AltersExactly.within_iff {d d' : NorChip} {a n lo len : Nat} (alters : AltersExactly d d' a n) :
    (∃ new, d'.ops = new ++ d.ops ∧ ∀ op ∈ new, ∀ x, op.Alters d.flags x → lo ≤ x ∧ x < lo + len) ↔
      n = 0 ∨ lo ≤ a ∧ a + n ≤ lo + len := by
  obtain ⟨new, ops, all⟩ := alters
  constructor
  · rintro ⟨new', ops', within⟩
    obtain rfl : new' = new := List.append_cancel_right (ops'.symm.trans ops)
    by_cases none : n = 0
    · exact Or.inl none
    have reached (x : Nat) (le : a ≤ x) (less : x < a + n) : lo ≤ x ∧ x < lo + len := by
      obtain ⟨op, mem, alters⟩ := (all x).mpr ⟨le, less⟩
      exact within op mem x alters
    have low := reached a (Nat.le_refl a) (by omega)
    have high := reached (a + n - 1) (by omega) (by omega)
    exact Or.inr ⟨low.1, by omega⟩
  · intro inside
    refine ⟨new, ops, fun op mem x alters => ?_⟩
    have here := (all x).mp ⟨op, mem, alters⟩
    omega

/-- With a controller and a buffer the stream is programmed. -/
theorem doSfc_write_settles (ctrl : c.ctrl = NorChip.sfc direct switches finfo) (idle : s.flash.busy = 0)
    (write : arguments.operation = .write) (found : sfc = true) (memory : (malloc sfcCmdFlashWin.toNat).isSome) :
    ∃ r, Settles (doSfc c sfc malloc arguments) s r ∧ SfcWrote c s arguments.address
      (sfcProgrammed c.tsize.toNat s.flash.mem arguments.address.toNat
        (chunks sfcCmdFlashWin.toNat (s.stdin.bytes.length + 1) s.stdin)) r := by
  obtain ⟨buf, memory⟩ := Option.isSome_iff_exists.mp memory
  have body (fuel : Nat) : doSfc c sfc malloc arguments fuel =
      loop (sfcWriteTurn c sfcCmdFlashWin fuel) fuel arguments.address := by
    simp only [doSfc, found, write, memory, not_true, if_false]
  obtain ⟨r, runs, wrote⟩ := @sfcWrite_settles direct switches finfo c s arguments.address s.stdin.bytes.length ctrl idle
    (Nat.le_refl _)
  have settles := runs.settles
  simp only [← body] at settles
  exact ⟨r, settles, wrote⟩

/-- What `do_sfc` makes of the result. -/
def sfcReturned (r : EStateM.Result Stop (SfcRun NorChip) Unit) : EStateM.Result Stop (SfcRun NorChip) Nat :=
  match r with
  | .ok _ s => .ok 0 s
  | .error e s => .error e s

theorem sfcReturned_state (r : EStateM.Result Stop (SfcRun NorChip) Unit) : (sfcReturned r).state = r.state := by
  cases r <;> rfl

theorem sfcReturned_ok {r : EStateM.Result Stop (SfcRun NorChip) Unit} {s' : SfcRun NorChip}
    (ok : sfcReturned r = .ok 0 s') : r = .ok () s' := by
  cases r with
  | ok _ s₁ =>
    cases ok
    rfl
  | error e s₁ => cases ok

theorem sfcReturned_error {r : EStateM.Result Stop (SfcRun NorChip) Unit} {e : Stop} {s' : SfcRun NorChip}
    (error : sfcReturned r = .error e s') : r = .error e s' := by
  cases r with
  | ok _ s₁ => cases error
  | error e' s₁ =>
    cases error
    rfl

/-- The command line comes to what its arguments come to. -/
theorem doSfcLine_settles (numerals : Numerals first second address len) {r : EStateM.Result Stop (SfcRun NorChip) Unit}
    (settles : Settles (doSfc c sfc malloc ⟨some "fmc", .ofNat 32 address, .ofNat 32 len, .write⟩) s r) :
    Settles (doSfcLine c drivers sfc malloc (sfcWriteLine argv first second)) s (sfcReturned r) := by
  obtain ⟨enough, settles⟩ := settles
  refine ⟨enough, fun fuel le => ?_⟩
  have line : doSfcLine c drivers sfc malloc (sfcWriteLine argv first second) fuel = (do
      doSfc c sfc malloc ⟨some "fmc", .ofNat 32 address, .ofNat 32 len, .write⟩ fuel
      return 0) := by
    rw [doSfcLine, cmdSfc_writeLine numerals]
  rw [line]
  have run := settles fuel le
  cases r with
  | ok _ s' => exact run_bind_ok run
  | error e s' => exact run_bind_error run

/-- Whatever the numbers, stream and flash are, the command does what it should exactly where `SfcWriteAdmits` says so. -/
theorem doSfc_write_iff (numerals : Numerals first second address len)
    (ctrl : c.ctrl = NorChip.sfc direct switches finfo) (idle : s.flash.busy = 0) :
    (∃ r, Settles (doSfcLine c drivers sfc malloc (sfcWriteLine argv first second)) s r ∧
      SfcWritesRange c.tsize.toNat address len s r) ↔ SfcWriteAdmits c sfc malloc address len s := by
  have cut : (BitVec.ofNat 32 address).toNat = address % 2 ^ 32 := BitVec.toNat_ofNat address 32
  rw [SfcWriteAdmits]
  by_cases ready : sfc = true ∧ (malloc sfcCmdFlashWin.toNat).isSome
  · rw [if_pos ready]
    obtain ⟨r, settles, wrote⟩ := @doSfc_write_settles direct switches finfo c s sfc malloc
      ⟨some "fmc", .ofNat 32 address, .ofNat 32 len, .write⟩ ctrl idle rfl ready.1 ready.2
    have alters := wrote.alters
    have stored := wrote.stored
    have whole := wrote.whole
    simp only [cut] at alters stored whole ⊢
    constructor
    · rintro ⟨r', settles', range⟩
      obtain rfl := settles'.unique (doSfcLine_settles numerals settles)
      have frame := range.frame
      rw [sfcReturned_state, alters.within_iff] at frame
      omega
    · intro admits
      refine ⟨_, doSfcLine_settles numerals settles, fun s' hangs => wrote.stops s' (sfcReturned_error hangs), ?_,
        fun s' ok i inside => ?_⟩
      · rw [sfcReturned_state, alters.within_iff]
        omega
      · have ok := sfcReturned_ok ok
        obtain ⟨count, fits⟩ := whole s' ok
        have read := stored s' ok
        rw [List.length_take] at inside
        have more : s.stdin.bytes ≠ [] := List.length_pos_iff.mp (by omega)
        have fits := fits more
        have narrow : address % 2 ^ 32 = address := by omega
        rw [narrow] at read fits
        have within : i < s.stdin.bytes.length := by omega
        have byte := @ByteMem.read_getElem? s'.flash.mem address s.stdin.bytes.length i within
        rw [read, List.getElem?_eq_getElem within] at byte
        refine ⟨by omega, ?_⟩
        rw [List.getElem_take]
        exact (Option.some.inj byte).symm
  · rw [if_neg ready]
    have body (fuel : Nat) :
        (doSfc c sfc malloc ⟨some "fmc", .ofNat 32 address, .ofNat 32 len, .write⟩ fuel).run s = .ok () s := by
      rw [doSfc]
      by_cases found : sfc = true
      · have none : malloc sfcCmdFlashWin.toNat = none := by
          rw [← Option.not_isSome_iff_eq_none]
          exact fun memory => ready ⟨found, memory⟩
        simp only [found, none, not_true, if_false]
        rfl
      · simp only [found]
        rfl
    have settles : Settles (doSfcLine c drivers sfc malloc (sfcWriteLine argv first second)) s (.ok 0 s) :=
      doSfcLine_settles (r := .ok () s) numerals ⟨0, fun fuel _ => body fuel⟩
    constructor
    · rintro ⟨r, settles', range⟩
      obtain rfl := settles'.unique settles
      exact range.stored s rfl
    · intro there
      refine ⟨_, settles, by simp, ⟨[], rfl, by simp⟩, fun s' ok => ?_⟩
      injection ok with _ same
      rw [← same]
      exact there

end

/-- Two bytes for an erased chip. -/
def sfcPair : SfcRun NorChip where
  flash := macronix.idle (fun _ => 0xff) false fun n => n
  stdin := ⟨[0x5a, 0xa5], fun _ => .ok 2, 0⟩
  stdout := ⟨[], fun _ => .ok 1, 0⟩

/-- Two bytes at 0x1234, with a LENGTH whose low 32 bits are 1. -/
theorem doSfc_write_pair :
    ∃ r, Settles (doSfcLine macronix.chip [] true (fun _ => some [])
        (sfcWriteLine ["-s", "fmc"] "0x1234" "0x100000001")) sfcPair r ∧
      SfcWritesRange macronix.chip.tsize.toNat 0x1234 0x100000001 sfcPair r :=
  (doSfc_write_iff (show Numerals "0x1234" "0x100000001" 0x1234 0x100000001 from ⟨by decide, by decide⟩) rfl rfl).mpr
    (Or.inr (by decide))

/-- One byte is asked for, and two are programmed. -/
theorem doSfc_write_past :
    ¬ ∃ r, Settles (doSfcLine macronix.chip [] true (fun _ => some [])
        (sfcWriteLine ["--sfc", "fmc"] "0x1234" "1")) sfcPair r ∧
      SfcWritesRange macronix.chip.tsize.toNat 0x1234 1 sfcPair r := by
  rintro ⟨r, settles, range⟩
  have pair : sfcProgrammed macronix.chip.tsize.toNat sfcPair.flash.mem 0x1234
      (chunks sfcCmdFlashWin.toNat (sfcPair.stdin.bytes.length + 1) sfcPair.stdin) = 2 := by decide
  obtain ⟨r', settles', wrote⟩ := @doSfc_write_settles true true macronix.info macronix.chip sfcPair true (fun _ => some [])
    ⟨some "fmc", 0x1234, 1, .write⟩ rfl rfl rfl rfl rfl
  have numerals : Numerals "0x1234" "1" 0x1234 1 := ⟨by decide, by decide⟩
  obtain rfl := settles.unique (doSfcLine_settles numerals settles')
  have frame := range.frame
  rw [sfcReturned_state, wrote.alters.within_iff, show (0x1234 : Word).toNat = 0x1234 from rfl, pair] at frame
  omega

end Culvert
