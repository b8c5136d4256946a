import Culvert.Bridge.DebugCalls
import Culvert.Lib.FlatMemory

/-! The memory behind the debug shell, over whole runs of calls. -/

namespace Culvert
open Prog

/-! An answer to `d` shows one memory. -/

section
variable {mem mem' : Mem} {addr n n' : Nat} {line : List Char} {words words' lines lines' : List (List Char)}

theorem DataLine.unique (first : DataLine line words) (second : DataLine line words') :
    words.length = words'.length ∧ dataBytes words = dataBytes words' := by
  have parsed := (@debugParseD_data line words none 0 (fun _ => 0) first).symm.trans
    (@debugParseD_data line words' none 0 (fun _ => 0) second)
  obtain ⟨count, stored⟩ := Prod.mk.inj parsed
  have length : words.length = words'.length := by omega
  have size (words : List (List Char)) : (dataBytes words).length = 4 * words.length := by
    simp [dataBytes, Nat.mul_comm]
  refine ⟨length, ?_⟩
  have shown := ByteMem.read_write (fun _ => 0) 0 (dataBytes words)
  rw [stored, size words, length, ← size words', ByteMem.read_write] at shown
  exact shown.symm

/-- A line ends at its only newline. -/
theorem TextLine.split {len len' : Nat} {line' : List Char} {rest rest' : List Char} (first : TextLine len line)
    (second : TextLine len' line') (same : line ++ rest = line' ++ rest') : line = line' ∧ rest = rest' := by
  obtain ⟨body, rfl, fresh⟩ := first.ends
  obtain ⟨body', rfl, fresh'⟩ := second.ends
  rw [List.append_assoc, List.append_assoc, List.singleton_append, List.singleton_append] at same
  have behind := Text.strchr_append rest fresh
  rw [same, Text.strchr_append rest' fresh'] at behind
  have tail : rest' = rest := (List.cons.inj (Option.some.inj behind)).2
  subst tail
  exact ⟨congrArg (· ++ ['\n']) (List.append_cancel_right same), rfl⟩

theorem Dump.narrow (dump : Dump mem addr n lines) : Text.Narrow lines.flatten := by
  induction dump with
  | nil => exact fun _ never => by cases never
  | cons text _ _ _ _ ih => exact Text.narrow_append.mpr ⟨text.narrow, ih⟩

theorem Dump.unique (first : Dump mem addr n lines) (second : Dump mem' addr n' lines')
    (same : lines.flatten = lines'.flatten) :
    n = n' ∧ ByteMem.read mem addr (4 * n) = ByteMem.read mem' addr (4 * n) := by
  have some' {len : Nat} {line : List Char} (text : TextLine len line) (rest : List Char) : [] ≠ line ++ rest := by
    obtain ⟨body, rfl, _⟩ := text.ends
    simp
  induction first generalizing n' lines' with
  | nil addr =>
    cases second with
    | nil => exact ⟨rfl, rfl⟩
    | cons text => exact absurd same (some' text _)
  | cons text data _ bytes _ ih =>
    cases second with
    | nil => exact absurd same.symm (some' text _)
    | cons text' data' _ bytes' rest' =>
      obtain ⟨rfl, tails⟩ := text.split text' same
      obtain ⟨count, shown⟩ := data.unique data'
      rw [← count] at rest' bytes'
      obtain ⟨rfl, more⟩ := ih rest' tails
      refine ⟨by rw [count], ?_⟩
      rw [Nat.mul_add, ByteMem.read_add, ByteMem.read_add, ← bytes, ← bytes', shown, more]

end

def ShellStore.Fits : ShellStore → Prop
  | .o addr _ => addr < 2 ^ 32
  | .u addr bytes => bytes ≠ [] ∧ bytes.length ≤ debugCmdUMax ∧ addr + bytes.length ≤ 2 ^ 32

section
variable {τ : Type} (react : τ → Byte → τ × List Byte)

/-- A shell whose commands read and write a memory. -/
structure MemoryShell (Ready : τ → Prop) (mem : τ → Mem) : Prop extends CommandShell react Ready where
  byte {t : τ} (phys : Word) : Ready t → ∃ w : Word, PrintsWord react t 'i' phys w ∧ w.byte 0 = mem t phys.toNat
  word {t : τ} (phys : Word) : Ready t → phys.toNat + 4 ≤ 2 ^ 32 →
    PrintsWord react t 'r' phys (ByteMem.readWord (mem t) phys.toNat)
  dump {t : τ} {len : Nat} (phys : Word) : Ready t → 0 < len → len ≤ debugDMaxLen → phys.toNat + len ≤ 2 ^ 32 →
    ∃ shown lines, Dump shown phys.toNat (dumpWords len) lines ∧
    Answers react t (dCommand phys.toNat len) ('d' :: commandArgs [phys.toNat, len]) lines.flatten ∧
    ByteMem.read shown phys.toNat len = ByteMem.read (mem t) phys.toNat len
  printed {t : τ} {c : Char} (phys : Word) : Ready t → c = 'i' ∨ c = 'r' →
    mem (feed react t (commandLine (c :: commandArgs [phys.toNat]))).1 = mem t
  dumped {t : τ} {len : Nat} (phys : Word) : Ready t → 0 < len → len ≤ debugDMaxLen →
    mem (feed react t (dCommand phys.toNat len)).1 = mem t
  stored {t : τ} {command : ShellStore} : Ready t → command.Fits →
    mem (feed react t command.encode).1 = storeAll (mem t) command.stores
  wrote {t : τ} (phys val : Word) : Ready t → phys.toNat + 4 ≤ 2 ^ 32 →
    mem (feed react t (commandLine ('w' :: commandArgs [phys.toNat, val.toNat]))).1 =
      ByteMem.writeWord (mem t) phys.toNat val

end

section
variable {τ : Type} {react : τ → Byte → τ × List Byte} {Ready : τ → Prop} {mem : τ → Mem} {t t' : τ} {phys : Word}
variable {bs : List Byte} {len : Nat}

theorem PrintsWord.ready {c : Char} {w : Word} (shell : CommandShell react Ready) (ready : Ready t) (kind : c = 'i' ∨ c = 'r')
    (_ : PrintsWord react t c phys w) : Ready (feed react t (commandLine (c :: commandArgs [phys.toNat]))).1 := by
  obtain ⟨_, _, _, _, _, ready'⟩ := shell.prints phys ready kind
  exact ready'

/-- What `i` commands print are the bytes of the memory, which stays as it is. -/
theorem PrintsBytes.reads (shell : MemoryShell react Ready mem) (printed : PrintsBytes react t phys bs t')
    (ready : Ready t) (inRange : phys.toNat + bs.length ≤ 2 ^ 32) :
    bs = ByteMem.read (mem t) phys.toNat bs.length ∧ mem t' = mem t := by
  induction printed with
  | nil => exact ⟨rfl, rfl⟩
  | @cons t phys w bs t' here _ ih =>
    obtain ⟨w', prints, byte⟩ := shell.byte phys ready
    obtain rfl := here.unique prints
    have kept := shell.printed phys ready (Or.inl rfl)
    rw [List.length_cons] at inRange ⊢
    have ready' := here.ready shell.toCommandShell ready (Or.inl rfl)
    cases bs with
    | nil =>
      obtain ⟨_, same⟩ := ih ready' (phys + 1).isLt.le
      refine ⟨?_, same.trans kept⟩
      rw [byte]
      rfl
    | cons b bs =>
      have next : (phys + 1).toNat = phys.toNat + 1 := by
        rw [List.length_cons] at inRange
        exact Word.toNat_add_ofNat (n := 1) (by omega)
      obtain ⟨bytes, same⟩ := ih ready' (by rw [next]; omega)
      refine ⟨?_, same.trans kept⟩
      rw [next, kept] at bytes
      rw [ByteMem.read_succ, ← bytes, byte]

/-- What `d` commands print begins with the bytes asked for. -/
theorem PrintsDump.reads (shell : MemoryShell react Ready mem) (printed : PrintsDump react t phys len bs t')
    (ready : Ready t) (inRange : phys.toNat + len ≤ 2 ^ 32) :
    len ≤ bs.length ∧ bs.take len = ByteMem.read (mem t) phys.toNat len ∧ mem t' = mem t := by
  induction printed with
  | nil => exact ⟨Nat.le_refl 0, rfl, rfl⟩
  | @cons t phys len shown lines bs t' some' dump answer _ ih =>
    obtain ⟨le, small, pos, aligned⟩ := dIngress_le len
    obtain ⟨shown', lines', dump', answer', same⟩ := shell.dump phys ready (pos some') small (by omega)
    have kept := shell.dumped phys ready (pos some') small
    obtain ⟨_, _, _, _, ready'⟩ := shell.dumps phys ready (pos some') small
    have equal := answer.unique react answer' dump.narrow dump'.narrow
    have words : dIngress len ≤ 4 * dumpWords (dIngress len) := by
      rw [dumpWords]
      omega
    have first : ByteMem.read shown phys.toNat (dIngress len) = ByteMem.read (mem t) phys.toNat (dIngress len) := by
      rw [← same, ← ByteMem.read_take words, ← ByteMem.read_take words, (dump.unique dump' equal).2]
    have size : (ByteMem.read shown phys.toNat (4 * dumpWords (dIngress len))).length =
        4 * dumpWords (dIngress len) := ByteMem.read_length _ _ _
    by_cases last : dIngress len = len
    · rw [last] at first words ih size ⊢
      obtain ⟨_, _, still⟩ := ih (by rw [last] at ready'; exact ready') (by
        rw [Nat.sub_self]
        exact (BitVec.isLt _).le)
      refine ⟨by rw [List.length_append, size]; omega, ?_, ?_⟩
      · rw [List.take_append_of_le_length (by rw [size]; exact words), ByteMem.read_take words, first]
      · rw [last] at kept
        exact still.trans kept
    · have whole : 4 * dumpWords (dIngress len) = dIngress len := by
        have multiple := aligned (by omega)
        rw [dumpWords]
        omega
      have next : (phys + BitVec.ofNat 32 (dIngress len)).toNat = phys.toNat + dIngress len :=
        Word.toNat_add_ofNat (by omega)
      obtain ⟨more, bytes, still⟩ := ih ready' (by rw [next]; omega)
      rw [whole] at size ⊢
      refine ⟨by rw [List.length_append, size]; omega, ?_, still.trans kept⟩
      have split : len = dIngress len + (len - dIngress len) := by omega
      rw [next, kept] at bytes
      rw [List.take_append, List.take_of_length_le (by rw [size]; exact le), size, bytes, first]
      conv_rhs => rw [split, ByteMem.read_add]

theorem StoredBy.stores {commands : List ShellStore} (stored : StoredBy phys bs commands)
    (shell : MemoryShell react Ready mem) (ready : Ready t) (inRange : phys.toNat + bs.length ≤ 2 ^ 32) :
    mem (feed react t (commands.flatMap ShellStore.encode)).1 = ByteMem.write (mem t) phys.toNat bs := by
  induction stored generalizing t with
  | nil => exact (ByteMem.write_nil _ _).symm
  | @o phys b bs commands _ ih =>
    have byte : (b.setWidth 32).toNat = b.toNat := BitVec.toNat_setWidth_of_le (by decide)
    have one := @MemoryShell.stored _ _ _ _ shell t (.o phys.toNat b) ready phys.isLt
    have sent : ShellStore.encode (.o phys.toNat b) =
        commandLine ('o' :: commandArgs [phys.toNat, (b.setWidth 32).toNat]) := by
      rw [byte]
      rfl
    obtain ⟨_, _, _, ready'⟩ := shell.stores phys (b.setWidth 32) ready (Or.inl rfl)
    rw [← sent] at ready'
    rw [List.length_cons] at inRange
    rw [List.flatMap_cons, feed_append, ByteMem.write_cons]
    have here : mem (feed react t (ShellStore.encode (.o phys.toNat b))).1 = ByteMem.write (mem t) phys.toNat [b] := one
    by_cases none : bs = []
    · subst none
      rw [ih ready' (BitVec.isLt _).le, here, ByteMem.write_nil, ByteMem.write_nil]
    · have some' := List.length_pos_iff.mpr none
      have next : (phys + 1).toNat = phys.toNat + 1 := Word.toNat_add_ofNat (n := 1) (by omega)
      rw [ih ready' (by rw [next]; omega), here, next]
  | @u phys chunk bs commands some' small _ ih =>
    rw [List.length_append] at inRange
    have all := @MemoryShell.stored _ _ _ _ shell t (.u phys.toNat chunk) ready ⟨some', small, by omega⟩
    have sent : ShellStore.encode (.u phys.toNat chunk) =
        commandLine ('u' :: commandArgs [phys.toNat, chunk.length]) ++ chunk := by
      rw [ShellStore.encode, commandLine, List.append_assoc]
      rfl
    obtain ⟨_, _, _, ready'⟩ := shell.uploads phys ready some' small
    rw [← sent] at ready'
    have here : mem (feed react t (ShellStore.encode (.u phys.toNat chunk))).1 =
        ByteMem.write (mem t) phys.toNat chunk := by
      rw [all]
      exact storeAll_zipIdx chunk phys.toNat
    rw [List.flatMap_cons, feed_append, ByteMem.write_append]
    by_cases none : bs = []
    · subst none
      rw [ih ready' (BitVec.isLt _).le, here, ByteMem.write_nil, ByteMem.write_nil]
    · have more := List.length_pos_iff.mpr none
      have next : (phys + BitVec.ofNat 32 chunk.length).toNat = phys.toNat + chunk.length :=
        Word.toNat_add_ofNat (by omega)
      rw [ih ready' (by rw [next]; omega), here, next]

/-! The calls as operations on a memory. -/

/-- The operation on a memory that a call is. -/
def DebugCall.op : DebugCall → MemOp
  | read phys _ len => .read phys len
  | readl phys => .readl phys
  | write phys buf => .write phys buf
  | writel phys val => .writel phys val

/-- What the caller gets. -/
def DebugAnswer.reply : DebugAnswer → MemReply
  | read n buf => .bytes (ByteMem.read buf 0 n)
  | readl val => .word val
  | write _ | writel => .done

/-- A call that returns. -/
def DebugStep (react : τ → Byte → τ × List Byte) (blksize fuel : Nat) (s : Stream (Serial τ)) (e : DebugCall × DebugAnswer)
    (s' : Stream (Serial τ)) : Prop := (e.1.run (serialTty react blksize) fuel).run s = .ok e.2 s'

/-- The call stays below `2 ^ 32`, and is made on a stream that is clear for it. -/
structure DebugCall.Admitted (fuel : Nat) (call : DebugCall) (s : Stream (Serial τ)) : Prop where
  clear : call.Clear s
  inRange : call.op.InRange
  enough : call.size + 2 ^ 16 < fuel

/-- What a call does to the shell it does to the memory. -/
theorem DebugCall.Done.flat {call : DebugCall} {answer : DebugAnswer} (done : call.Done react t answer t')
    (shell : MemoryShell react Ready mem) (ready : Ready t) (inRange : call.op.InRange) :
    FlatStep (mem t) (call.op, answer.reply) (mem t') := by
  cases call with
  | read phys buf len =>
    cases answer with
    | read n buf' =>
      obtain ⟨rfl, bs, printed, rfl⟩ := done
      have range : phys.toNat + n ≤ 2 ^ 32 := inRange
      have given (le : n ≤ bs.length) : ByteMem.read (ByteMem.write buf 0 bs) 0 n = bs.take n := by
        rw [← ByteMem.read_take le, ByteMem.read_write]
      by_cases short : n < 4
      · rw [if_pos short] at printed
        obtain ⟨bytes, length⟩ := printed
        obtain ⟨reads, kept⟩ := bytes.reads shell ready (by omega)
        refine ⟨?_, kept⟩
        rw [length] at reads
        show MemReply.bytes _ = MemReply.bytes _
        rw [given length.ge, ← length, List.take_length, length, reads]
      · rw [if_neg short] at printed
        obtain ⟨le, reads, kept⟩ := printed.reads shell ready range
        refine ⟨?_, kept⟩
        show MemReply.bytes _ = MemReply.bytes _
        rw [given le, reads]
    | readl _ | write _ | writel => exact done.elim
  | readl phys =>
    cases answer with
    | readl val =>
      obtain ⟨printed, rfl⟩ := done
      refine ⟨?_, shell.printed phys ready (Or.inr rfl)⟩
      exact congrArg MemReply.word (printed.unique (shell.word phys ready inRange))
    | read _ _ | write _ | writel => exact done.elim
  | write phys buf =>
    cases answer with
    | write n =>
      obtain ⟨_, commands, stored, rfl⟩ := done
      exact ⟨rfl, stored.stores shell ready inRange⟩
    | read _ _ | readl _ | writel => exact done.elim
  | writel phys val =>
    cases answer with
    | writel =>
      obtain rfl := done
      exact ⟨rfl, shell.wrote phys val ready inRange⟩
    | read _ _ | readl _ | write _ => exact done.elim

/-- A call that is admitted returns, and does what it does to a memory. -/
theorem DebugCall.Admitted.steps {blksize fuel : Nat} {call : DebugCall} {s : Stream (Serial τ)}
    (admitted : call.Admitted fuel s) (shell : MemoryShell react Ready mem) (blk : 0 < blksize) (idle : AtPrompt Ready s) :
    ∃ answer s', DebugStep react blksize fuel s (call, answer) s' ∧ AtPrompt Ready s' ∧
      FlatStep (mem s.dev.peer) (call.op, answer.reply) (mem s'.dev.peer) := by
  have fits : call.size ≤ ssizeMax := by
    have inRange : call.op.addr.toNat + call.op.len ≤ 2 ^ 32 := admitted.inRange
    have same : call.op.len = call.size := by cases call <;> rfl
    have max : 2 ^ 32 ≤ ssizeMax := by decide
    omega
  obtain ⟨answer, s', run, done, idle'⟩ := call_carried shell.toCommandShell blk admitted.enough fits idle admitted.clear
  exact ⟨answer, s', run, idle', done.flat shell idle.ready admitted.inRange⟩

end

namespace MemShell
variable {t : MemShell}

/-- Its memory is the one that its commands read and write. -/
theorem memory : MemoryShell react Ready fun t => t.mem where
  toCommandShell := commands
  byte {t} phys ready := by
    obtain ⟨output, answer, plain, numeral, _⟩ := prints_byte ready phys
    refine ⟨_, ⟨output, answer, plain, numeral⟩, ?_⟩
    rw [Word.byte, BitVec.extractLsb'_setWidth_of_le (by decide), BitVec.extractLsb'_eq_self]
  word {t} phys ready _ := by
    obtain ⟨output, answer, plain, numeral, _⟩ := prints_word ready phys
    exact ⟨output, answer, plain, numeral⟩
  dump {t} {len} phys ready _ _ inRange := by
    have run := @feed_exec t 'd' [phys.toNat, len] ready (by decide) (by decide) (by decide)
    rw [commandLine, ← dCommand_args] at run
    refine ⟨t.mem, wordLines t.mem phys.toNat (dumpWords len), wordLines_dump t.mem ?_, congrArg Prod.snd run, rfl⟩
    rw [dumpWords]
    omega
  printed {t} {c} phys ready kind := by
    rcases kind with rfl | rfl
    · rw [feed_exec ready (by decide) (by decide) (by decide)]
      rfl
    · rw [feed_exec ready (by decide) (by decide) (by decide)]
      rfl
  dumped {t} {len} phys ready _ _ := by
    rw [dCommand_args, ← commandLine, feed_exec ready (by decide) (by decide) (by decide)]
    rfl
  stored {t} {command} ready fits := by
    cases command with
    | o addr val =>
      have sent : ShellStore.encode (.o addr val) = commandLine ('o' :: commandArgs [addr, val.toNat]) := rfl
      rw [sent, feed_exec ready (by decide) (by decide) (by decide)]
      show ByteMem.write t.mem addr [BitVec.ofNat 8 val.toNat] = ByteMem.write t.mem addr [val]
      rw [BitVec.ofNat_toNat, BitVec.setWidth_eq]
    | u addr bytes =>
      obtain ⟨n, count⟩ : ∃ n, n + 1 = bytes.length := ⟨bytes.length - 1, by
        have := List.length_pos_iff.mpr fits.1
        omega⟩
      have sent : ShellStore.encode (.u addr bytes) = commandLine ('u' :: commandArgs [addr, bytes.length]) ++ bytes := by
        rw [ShellStore.encode, commandLine, List.append_assoc]
        rfl
      rw [sent, feed_append, ← count, feed_u ready n]
      simp only [feed_upload count]
      exact (storeAll_zipIdx bytes addr).symm
  wrote {t} phys val ready _ := by
    rw [feed_exec ready (by decide) (by decide) (by decide)]
    show ByteMem.write t.mem phys.toNat (Word.bytes (BitVec.ofNat 32 val.toNat)) = ByteMem.writeWord t.mem phys.toNat val
    rw [BitVec.ofNat_toNat, BitVec.setWidth_eq]
    rfl

end MemShell

/-- From a shell at its prompt on, however its answers are cut up: a run of admitted calls reads and writes the memory
behind the shell as calls on a flat memory would, and whatever admitted call comes next will return. -/
theorem debug_calls_flat {τ : Type} {react : τ → Byte → τ × List Byte} {Ready : τ → Prop} {mem : τ → Mem}
    {blksize fuel : Nat} {es : List (DebugCall × DebugAnswer)} {s s' : Stream (Serial τ)}
    (shell : MemoryShell react Ready mem) (blk : 0 < blksize) (ready : Ready s.dev.peer) (works : s.dev.Works)
    (fresh : s.buffer = [] ∧ s.dev.out = [])
    (run : RunEach (DebugStep react blksize fuel) (fun s e _ => e.1.Admitted fuel s) s es s') :
    Run FlatStep (mem s.dev.peer) (es.map fun e => (e.1.op, e.2.reply)) (mem s'.dev.peer) ∧
      ∀ call : DebugCall, call.Admitted fuel s' → ∃ answer s'', DebugStep react blksize fuel s' (call, answer) s'' := by
  have start : s.buffer <+: debugShell := by
    rw [fresh.1]
    exact List.nil_prefix
  have idle : AtPrompt Ready s := ⟨ready, works, Or.inr ⟨fresh.2, start⟩⟩
  have step (s : Stream (Serial τ)) (e : DebugCall × DebugAnswer) (s' : Stream (Serial τ)) (idle : AtPrompt Ready s)
      (step : DebugStep react blksize fuel s e s' ∧ e.1.Admitted fuel s) :
      AtPrompt Ready s' ∧ FlatStep (mem s.dev.peer) (e.1.op, e.2.reply) (mem s'.dev.peer) := by
    obtain ⟨answer, s'', run, idle', flat⟩ := step.2.steps shell blk idle
    have same := run.symm.trans step.1
    injection same with value state
    subst value
    subst state
    exact ⟨idle', flat⟩
  refine ⟨(run.simulate (AtPrompt Ready) (fun s => mem s.dev.peer) step idle).map, fun call admitted => ?_⟩
  obtain ⟨answer, s'', next, _⟩ := admitted.steps shell blk
    (run.invariant (fun s e s' idle head => (step s e s' idle head).1) idle)
  exact ⟨answer, s'', next⟩

/-- Five bytes are written, and the word behind the first of them is read. -/
theorem debug_calls_flat_word : ∃ (answer answer' : DebugAnswer) (s' : Stream (Serial MemShell)),
    Run (DebugStep MemShell.react 1024 (2 ^ 17)) (cutStream fun _ => 1024)
      [(.write 0x1000 [7, 8, 9, 10, 11], answer), (.readl 0x1001, answer')] s' ∧
    Run FlatStep countingMem [(.write 0x1000 [7, 8, 9, 10, 11], answer.reply), (.readl 0x1001, answer'.reply)]
      s'.dev.peer.mem := by
  have idle : AtPrompt MemShell.Ready (cutStream fun _ => 1024) :=
    ⟨⟨rfl, rfl⟩, fun _ => ⟨1024, rfl⟩, Or.inr ⟨rfl, List.nil_prefix⟩⟩
  have first : DebugCall.Admitted (2 ^ 17) (.write 0x1000 [7, 8, 9, 10, 11]) (cutStream fun _ => 1024) :=
    ⟨⟨id, fun _ => by decide⟩, by decide, by decide⟩
  obtain ⟨answer, s₁, run, idle₁, _⟩ := @DebugCall.Admitted.steps _ _ _ _ 1024 _ _ _ first MemShell.memory (by decide) idle
  have after : s₁ = (((DebugCall.write 0x1000 [7, 8, 9, 10, 11]).run (serialTty MemShell.react 1024) (2 ^ 17)).run
      (cutStream fun _ => 1024)).state := by
    rw [run]
    rfl
  have second : DebugCall.Admitted (2 ^ 17) (.readl 0x1001) s₁ := by
    rw [after]
    exact ⟨⟨id, fun _ => by decide +kernel⟩, by decide, by decide⟩
  obtain ⟨answer', s₂, run', _⟩ := @DebugCall.Admitted.steps _ _ _ _ 1024 _ _ _ second MemShell.memory (by decide) idle₁
  refine ⟨answer, answer', s₂, .cons run (.cons run' (.nil s₂)), ?_⟩
  exact (debug_calls_flat MemShell.memory (by decide) ⟨rfl, rfl⟩ (fun _ => ⟨1024, rfl⟩) ⟨rfl, rfl⟩
    (.cons ⟨run, first⟩ (.cons ⟨run', second⟩ (.nil s₂)))).1

end Culvert
