import Culvert.Bridge.CommandShell
import Culvert.Bridge.DebugReads
import Culvert.Bridge.DebugWrite

/-! The calls of the debug bridge one after the other, over a stream that two readers share. -/

namespace Culvert
open Prog

/-- A call of the debug bridge, with its arguments. -/
inductive DebugCall where
  | read (phys : Word) (buf : Mem) (len : Nat)
  | readl (phys : Word)
  | write (phys : Word) (buf : List Byte)
  | writel (phys val : Word)

/-- What such a call returns, and the buffer of a read as it leaves it. -/
inductive DebugAnswer where
  | read (n : Nat) (buf : Mem)
  | readl (val : Word)
  | write (n : Nat)
  | writel

namespace DebugCall

def run {σ : Type} (tty : Tty σ) (fuel : Nat) : DebugCall → Prog (Stream σ) DebugAnswer
  | read phys buf len => do
    let (n, buf) ← debugRead tty fuel phys buf len
    return .read n buf
  | readl phys => do return .readl (← debugReadl tty fuel phys)
  | write phys buf => do return .write (← debugWrite tty fuel phys buf)
  | writel phys val => do
    debugWritel tty fuel phys val
    return .writel

/-- The bytes that are passed. -/
def size : DebugCall → Nat
  | read _ _ len => len
  | write _ buf => buf.length
  | _ => 4

/-- The call reads what comes past the buffer of the stream. -/
def Raw : DebugCall → Prop
  | read _ _ len => 0 < len ∧ len < 4
  | write _ buf => buf ≠ []
  | _ => True

/-- The call does not wait for the answer to its command: a watchdog is reloaded with 0. -/
def Unawaited : DebugCall → Prop
  | writel phys val => phys &&& ~~~0x20 = 0x1e785004 ∧ val = 0
  | _ => False

/-- A call that waits for its answer, and does not read past the buffer while the whole prompt of an earlier call is
still on the port. -/
def Clear {τ : Type} (call : DebugCall) (s : Stream (Serial τ)) : Prop :=
  ¬ call.Unawaited ∧ (call.Raw → s.dev.out ≠ debugShell)

end DebugCall

section
variable {τ : Type} (react : τ → Byte → τ × List Byte)

/-- The word that the shell prints for an `i` or an `r` command. -/
def PrintsWord (t : τ) (c : Char) (phys w : Word) : Prop := ∃ output,
  Answers react t (commandLine (c :: commandArgs [phys.toNat])) (c :: commandArgs [phys.toNat]) output ∧
  Output output ∧ Text.Numeral output w.toNat

/-- The bytes that it prints for `i` commands, one for each address. -/
inductive PrintsBytes : τ → Word → List Byte → τ → Prop
  | nil (t phys) : PrintsBytes t phys [] t
  | cons {t phys w bs t'} : PrintsWord react t 'i' phys w →
    PrintsBytes (feed react t (commandLine ('i' :: commandArgs [phys.toNat]))).1 (phys + 1) bs t' →
    PrintsBytes t phys (w.byte 0 :: bs) t'

/-- The bytes that it prints for the `d` commands of a read. -/
inductive PrintsDump : τ → Word → Nat → List Byte → τ → Prop
  | nil (t phys) : PrintsDump t phys 0 [] t
  | cons {t phys len mem lines bs t'} : 0 < len → Dump mem phys.toNat (dumpWords (dIngress len)) lines →
    Answers react t (dCommand phys.toNat (dIngress len)) ('d' :: commandArgs [phys.toNat, dIngress len]) lines.flatten →
    PrintsDump (feed react t (dCommand phys.toNat (dIngress len))).1 (phys + BitVec.ofNat 32 (dIngress len))
      (len - dIngress len) bs t' →
    PrintsDump t phys len (ByteMem.read mem phys.toNat (4 * dumpWords (dIngress len)) ++ bs) t'

/-- The commands that store so many bytes from an address on. -/
inductive StoredBy : Word → List Byte → List ShellStore → Prop
  | nil (phys) : StoredBy phys [] []
  | o {phys b bs commands} : StoredBy (phys + 1) bs commands → StoredBy phys (b :: bs) (.o phys.toNat b :: commands)
  | u {phys chunk bs commands} : chunk ≠ [] → chunk.length ≤ debugCmdUMax →
    StoredBy (phys + BitVec.ofNat 32 chunk.length) bs commands →
    StoredBy phys (chunk ++ bs) (.u phys.toNat chunk :: commands)

/-- What a call that succeeds returns is what the shell printed for its own commands. -/
def DebugCall.Own (t : τ) : DebugCall → DebugAnswer → Prop
  | read phys buf len, .read n buf' => n = len ∧ ∃ bs t',
    (if len < 4 then PrintsBytes react t phys bs t' ∧ bs.length = len else PrintsDump react t phys len bs t') ∧
    buf' = ByteMem.write buf 0 bs
  | readl phys, .readl val => PrintsWord react t 'r' phys val
  | write _ buf, .write n => n = buf.length
  | writel _ _, .writel => True
  | _, _ => False

/-- What a call that succeeds returns, and where its commands leave the shell. -/
def DebugCall.Done (t : τ) : DebugCall → DebugAnswer → τ → Prop
  | read phys buf len, .read n buf', t' => n = len ∧ ∃ bs,
    (if len < 4 then PrintsBytes react t phys bs t' ∧ bs.length = len else PrintsDump react t phys len bs t') ∧
    buf' = ByteMem.write buf 0 bs
  | readl phys, .readl val, t' => PrintsWord react t 'r' phys val ∧
    t' = (feed react t (commandLine ('r' :: commandArgs [phys.toNat]))).1
  | write phys buf, .write n, t' => n = buf.length ∧ ∃ commands, StoredBy phys buf commands ∧
    t' = (feed react t (commands.flatMap ShellStore.encode)).1
  | writel phys val, .writel, t' => t' = (feed react t (commandLine ('w' :: commandArgs [phys.toNat, val.toNat]))).1
  | _, _, _ => False

/-- A call that succeeds returns its own output, and leaves nothing of it unread but a prompt. -/
def DebugCall.OwnOutput (call : DebugCall) (s : Stream (Serial τ)) :
    EStateM.Result Stop (Stream (Serial τ)) DebugAnswer → Prop
  | .ok answer s' => call.Own react s.dev.peer answer ∧ s'.buffer ++ s'.dev.out <+: debugShell
  | .error (.rc _) _ => True
  | .error _ _ => False

/-- Every call of the sequence has its own output. -/
def EachOwn (blksize fuel : Nat) : List DebugCall → Stream (Serial τ) → Prop
  | [], _ => True
  | call :: rest, s => call.OwnOutput react s ((call.run (serialTty react blksize) fuel).run s) ∧
    EachOwn blksize fuel rest ((call.run (serialTty react blksize) fuel).run s).state

/-- Every call of the sequence is made on a stream that is clear for it. -/
def EachClear (blksize fuel : Nat) : List DebugCall → Stream (Serial τ) → Prop
  | [], _ => True
  | call :: rest, s => call.Clear s ∧
    EachClear blksize fuel rest ((call.run (serialTty react blksize) fuel).run s).state

end

/-! The reader past the buffer. -/

section
variable {τ : Type} {react : τ → Byte → τ × List Byte} {blksize fuel : Nat} {t : τ} {out buffer : List Byte}
variable {text cmd output front : List Char}

/-- The peer, what is on the port and what is in the buffer, where no call fails. -/
structure Facing (t : τ) (out buffer : List Byte) (s : Stream (Serial τ)) : Prop where
  peer : s.dev.peer = t
  works : s.dev.Works
  out : s.dev.out = out
  buffer : s.buffer = buffer

theorem Facing.moved {sent : List Byte} {s s' : Stream (Serial τ)} (here : Facing t out buffer s)
    (moved : Moved react s sent [] s') :
    Facing (feed react t sent).1 (out ++ (feed react t sent).2) buffer s' := by
  refine ⟨by rw [moved.peer, here.peer], moved.works here.works, ?_, moved.buffer.trans here.buffer⟩
  have all := moved.out
  rwa [List.nil_append, here.out, here.peer] at all

theorem promptWrite_facing {bs : List Byte} (enough : bs.length < fuel) :
    Total (Facing t out buffer) (promptWrite (serialTty react blksize) fuel bs)
      fun _ => Facing (feed react t bs).1 (out ++ (feed react t bs).2) buffer := by
  intro s here
  rcases @promptWrite_serial τ react blksize fuel s bs enough with ⟨s', run, moved⟩ | ⟨broken, _⟩
  · exact ⟨(), s', run, here.moved moved⟩
  · exact absurd here.works broken

theorem promptRun_facing (enough : cmd.length + 1 < fuel) :
    Total (Facing t out buffer) (promptRun (serialTty react blksize) fuel debugPrompt cmd)
      fun _ => Facing (feed react t (commandLine cmd)).1 (out ++ (feed react t (commandLine cmd)).2) buffer := by
  intro s here
  rcases @promptRun_serial τ react blksize fuel s cmd enough with ⟨s', run, moved⟩ | ⟨broken, _⟩
  · exact ⟨(), s', run, here.moved moved⟩
  · exact absurd here.works broken

/-- The prompt behind a plain text is where it is seen first. -/
theorem memmem_plain (plain : Plain text) :
    Text.memmem debugShell (Text.toBytes text ++ debugShell) = some (Text.toBytes text).length := by
  have narrow : Text.Narrow text := fun c mem => (plain c mem).2.2
  have fresh : (36 : Byte) ∉ Text.toBytes text :=
    Text.not_mem_toBytes (c := '$') narrow (by decide) fun mem => (plain '$' mem).1 rfl
  have found := @Text.memmem_fresh Byte _ [32] 36 (Text.toBytes text) [] fresh
  rwa [List.append_nil] at found

theorem promptExpect_facing (enough : 100 < fuel) (plain : Plain text) (fits : text.length ≤ 98) :
    Total (Facing t (Text.toBytes text ++ debugShell) buffer) (promptExpect (serialTty react blksize) fuel debugShell)
      fun _ => Facing t [] buffer := by
  intro s here
  have two : debugShell.length = 2 := rfl
  have length : (Text.toBytes text).length = text.length := List.length_map _
  obtain ⟨s', run, none, moved⟩ := @promptExpect_whole τ react blksize fuel s debugShell (Text.toBytes text) here.works
    (by decide) enough here.out (memmem_plain plain) (by omega)
  exact ⟨(), s', run, moved.peer.trans here.peer, moved.works here.works, none, moved.buffer.trans here.buffer⟩

theorem plain_commandArgs (args : List Nat) : Plain (commandArgs args) := by
  intro c mem
  obtain ⟨n, _, mem⟩ := List.mem_flatMap.mp mem
  rcases List.mem_cons.mp mem with rfl | digit
  · decide
  · have hex := Text.isHex_of_mem_hex digit
    have small := Text.toNat_lt_of_isHex hex
    refine ⟨Text.isHex_ne hex (by decide), fun nul => ?_, by omega⟩
    have zero : c = Char.ofNat 0 := by rw [← nul, Char.ofNat_toNat]
    exact Text.isHex_ne hex (x := Char.ofNat 0) (by decide) zero

/-- What may be left of a prompt, whose first byte is in the buffer. -/
def rests : List (List Char) := [[], [' ']]

/-- An answer, with what is left of a prompt before it. -/
theorem plain_answer {c : Char} {args : List Nat} (rest : front ∈ rests) (letter : Plain [c])
    (fits : (commandArgs args).length ≤ 18) (answer : Output output) :
    Plain (front ++ (c :: commandArgs args ++ '\r' :: '\n' :: output)) ∧
      (front ++ (c :: commandArgs args ++ '\r' :: '\n' :: output)).length ≤ 98 := by
  have ends : Plain ['\r', '\n'] := by simp [Plain]
  have lead : Plain front ∧ front.length ≤ 1 := by
    simp only [rests, List.mem_cons, List.not_mem_nil, or_false] at rest
    rcases rest with rfl | rfl
    · exact ⟨fun _ never => (by cases never), by decide⟩
    · exact ⟨by simp [Plain], by decide⟩
  refine ⟨fun x mem => ?_, ?_⟩
  · rcases List.mem_append.mp mem with first | mem
    · exact lead.1 x first
    rcases List.mem_append.mp mem with cmd | mem
    · rcases List.mem_cons.mp cmd with rfl | arg
      · exact letter x (List.mem_singleton_self x)
      · exact plain_commandArgs args x arg
    rcases List.mem_cons.mp mem with rfl | mem
    · decide
    rcases List.mem_cons.mp mem with rfl | mem
    · decide
    · exact answer.plain x mem
  · have := answer.fits
    simp only [List.length_append, List.length_cons]
    omega

theorem commandArgs_one (n : Nat) : commandArgs [n] = ' ' :: Text.hex n := by simp [commandArgs]

theorem commandArgs_two (c : Char) (n k : Nat) :
    c :: commandArgs [n, k] = c :: ' ' :: Text.hex n ++ ' ' :: Text.hex k := by
  simp [commandArgs]

theorem commandArgs_two_length {n k : Nat} (small : n < 2 ^ 32) (small' : k < 2 ^ 32) :
    (commandArgs [n, k]).length ≤ 18 := by
  have first : (Text.hex n).length ≤ 8 := Text.hex_length (by decide) small
  have second : (Text.hex k).length ≤ 8 := Text.hex_length (by decide) small'
  have shape := congrArg List.length (commandArgs_two ' ' n k)
  simp only [List.length_append, List.length_cons] at shape
  omega

theorem commandArgs_one_length (phys : Word) : (commandArgs [phys.toNat]).length ≤ 18 := by
  have short : (Text.hex phys.toNat).length ≤ 8 := Text.hex_length (by decide) phys.isLt
  rw [commandArgs_one, List.length_cons]
  omega

/-- What is on the port once a command is answered. -/
theorem answered_out {sent : List Byte} (answer : Answers react t sent cmd output) :
    Text.toBytes front ++ (feed react t sent).2 =
      Text.toBytes (front ++ (cmd ++ '\r' :: '\n' :: output)) ++ debugShell := by
  rw [answer, Text.toBytes_append front, List.append_assoc]

theorem numeral_word {w : Word} (numeral : Text.Numeral text w.toNat) :
    Text.strtoulRange 16 text = false ∧ BitVec.ofNat 32 (Text.strtoul 16 text).1 = w := by
  obtain ⟨range, value⟩ := Text.strtoul_numeral numeral
  have small := w.isLt
  have inside : ¬ 2 ^ 64 ≤ (w.toNat : Int).natAbs := by
    rw [Int.natAbs_natCast]
    omega
  rw [decide_eq_false inside] at range
  rw [if_neg inside] at value
  refine ⟨range, BitVec.eq_of_toNat_eq ?_⟩
  rw [value, BitVec.toNat_ofNat]
  omega

/-- The number behind the echoed line is stored. -/
theorem debugReadFixed_word {σ : Type} {tty : Tty σ} {c : Char} {phys w : Word} {s s₁ : Stream σ} {buf : List Byte}
    {p : Nat} {response : List Char} (kind : c = 'i' ∨ c = 'r')
    (reads : (promptRunExpect tty fuel debugPrompt (c :: ' ' :: Text.hex phys.toNat) debugShell 100).run s =
      .ok (buf, some p) s₁)
    (echoed : Text.strchr (Text.cString (Text.ofBytes (buf.take p))) '\r' = some response)
    (numeral : Text.Numeral response w.toNat) :
    (debugReadFixed tty fuel c phys).run s = .ok w { s₁ with errno := none } := by
  obtain ⟨range, exact'⟩ := numeral_word numeral
  rw [debugReadFixed, if_neg (fun not => not kind), run_bind_ok reads]
  simp only [debugPrompt, List.head?_cons, Option.bind_some, echoed, range, exact']
  rfl

theorem return_not_mem {c : Char} (rest : front ∈ rests) (letter : c ≠ '\r') (args : List Nat) :
    '\r' ∉ front ++ (c :: commandArgs args) := by
  intro mem
  rcases List.mem_append.mp mem with first | cmd
  · simp only [rests, List.mem_cons, List.not_mem_nil, or_false] at rest
    rcases rest with rfl | rfl
    · cases first
    · exact absurd (List.mem_singleton.mp first) (by decide)
  · rcases List.mem_cons.mp cmd with same | arg
    · exact letter same.symm
    · exact return_not_mem_commandArgs args arg

/-- The word behind the echoed line is what is read. -/
theorem debugReadFixed_facing {c : Char} {phys w : Word} (enough : 100 < fuel) (kind : c = 'i' ∨ c = 'r')
    (rest : front ∈ rests) (plain : Output output) (numeral : Text.Numeral output w.toNat)
    (answer : Answers react t (commandLine (c :: commandArgs [phys.toNat])) (c :: commandArgs [phys.toNat]) output) :
    Total (Facing t (Text.toBytes front) buffer) (debugReadFixed (serialTty react blksize) fuel c phys)
      fun val s => val = w ∧ Facing (feed react t (commandLine (c :: commandArgs [phys.toNat]))).1 [] buffer s := by
  intro s here
  obtain ⟨letter, other⟩ : Plain [c] ∧ c ≠ '\r' := by
    rcases kind with rfl | rfl
    · exact ⟨by simp [Plain], by decide⟩
    · exact ⟨by simp [Plain], by decide⟩
  obtain ⟨clean, fits⟩ := plain_answer rest letter (commandArgs_one_length phys) plain
  have short : (c :: commandArgs [phys.toNat]).length + 1 < fuel := by
    have := commandArgs_one_length phys
    rw [List.length_cons]
    omega
  obtain ⟨_, s₁, sends, sent⟩ := @promptRun_facing τ react blksize fuel t _ buffer _ short s here
  have whole := sent.out.trans (answered_out answer)
  have shape : front ++ (c :: commandArgs [phys.toNat] ++ '\r' :: '\n' :: output) =
      (front ++ (c :: commandArgs [phys.toNat])) ++ '\r' :: '\n' :: output := by simp
  have echo := return_not_mem rest other [phys.toNat]
  generalize front ++ (c :: commandArgs [phys.toNat] ++ '\r' :: '\n' :: output) = text at clean fits whole shape
  have two : debugShell.length = 2 := rfl
  have length : (Text.toBytes text).length = text.length := List.length_map _
  obtain ⟨s₂, expects, none, moved⟩ := @promptExpectInto_whole τ react blksize fuel s₁ debugShell _ 100 sent.works
    (by decide) enough whole (memmem_plain clean) (by omega)
  have reads : (promptRunExpect (serialTty react blksize) fuel debugPrompt (c :: commandArgs [phys.toNat]) debugShell
      100).run s = .ok (Text.toBytes text ++ debugShell, some (Text.toBytes text).length) s₂ := by
    rw [promptRunExpect, run_bind_ok sends, expects]
  rw [commandArgs_one] at reads
  have narrow : Text.Narrow text := fun x mem => (clean x mem).2.2
  have string : Text.cString text = text :=
    List.takeWhile_eq_self_iff.mpr fun x mem => decide_eq_true (clean x mem).2.1
  have echoed : Text.strchr (Text.cString (Text.ofBytes ((Text.toBytes text ++ debugShell).take
      (Text.toBytes text).length))) '\r' = some ('\r' :: '\n' :: output) := by
    rw [List.take_left, Text.ofBytes_toBytes narrow, string, shape, Text.strchr_append _ echo]
  have number : Text.Numeral ('\r' :: '\n' :: output) w.toNat :=
    (Text.numeral_cons_space (by decide)).mpr ((Text.numeral_cons_space (by decide)).mpr numeral)
  refine ⟨w, { s₂ with errno := Option.none }, debugReadFixed_word kind reads echoed number, rfl, ?_⟩
  exact ⟨moved.peer.trans sent.peer, moved.works sent.works, none, moved.buffer.trans sent.buffer⟩

variable {Ready : τ → Prop}

/-- An `i` command for each byte. -/
theorem debugReadBytes_facing (shell : CommandShell react Ready) (enough : 100 < fuel) {len n turns : Nat} {phys : Word}
    {buf : Mem} (ready : Ready t) (rest : front ∈ rests) (some' : n = 0 → front = []) (le : n ≤ len) (count : n < turns) :
    Total (Facing t (Text.toBytes front) buffer)
      (loop (debugReadBytesTurn (serialTty react blksize) fuel len) turns (n, phys, buf))
      fun buf' s => ∃ bs t', PrintsBytes react t phys bs t' ∧ bs.length = n ∧
        buf' = ByteMem.write buf (len - n) bs ∧ Ready t' ∧ Facing t' [] buffer s := by
  induction turns generalizing n t phys buf front with
  | zero => exact absurd count (Nat.not_lt_zero n)
  | succ turns ih =>
    rw [Prog.loop, debugReadBytesTurn]
    cases n with
    | zero =>
      cases some' rfl
      exact fun s here => ⟨buf, s, rfl, [], t, .nil t phys, rfl, (ByteMem.write_nil buf _).symm, ready, here⟩
    | succ n =>
      obtain ⟨output, w, answer, plain, numeral, ready'⟩ := shell.prints phys ready (Or.inl rfl)
      rw [if_neg (Nat.succ_ne_zero n), bind_assoc]
      refine (debugReadFixed_facing enough (Or.inl rfl) rest plain numeral answer).bind fun val => ?_
      rintro s ⟨rfl, here⟩
      obtain ⟨buf', s', run, bs, t', printed, length, stored, ready'', there⟩ := @ih _ [] n (phys + 1)
        (ByteMem.write buf (len - (n + 1)) [val.byte 0]) ready' (by simp [rests]) (fun _ => rfl) (by omega) (by omega) s here
      refine ⟨buf', s', run, val.byte 0 :: bs, t', .cons ⟨output, answer, plain, numeral⟩ printed, by simp [length], ?_,
        ready'', there⟩
      have next : len - n = len - (n + 1) + 1 := by omega
      rw [stored, next, ← ByteMem.write_cons]

/-- A command that stores is waited for. -/
theorem debugStore_facing (shell : CommandShell react Ready) (enough : 100 < fuel) {c : Char} {phys val : Word}
    (kind : c = 'o' ∨ c = 'w') (ready : Ready t) (rest : front ∈ rests) :
    Total (Facing t (Text.toBytes front) buffer) (do
      promptRun (serialTty react blksize) fuel debugPrompt (c :: commandArgs [phys.toNat, val.toNat])
      promptExpect (serialTty react blksize) fuel debugShell) fun _ s =>
        Ready (feed react t (commandLine (c :: commandArgs [phys.toNat, val.toNat]))).1 ∧
        Facing (feed react t (commandLine (c :: commandArgs [phys.toNat, val.toNat]))).1 [] buffer s := by
  have letter : Plain [c] := by
    rcases kind with rfl | rfl
    · simp [Plain]
    · simp [Plain]
  have args := commandArgs_two_length phys.isLt val.isLt
  obtain ⟨output, answer, plain, ready'⟩ := shell.stores phys val ready kind
  obtain ⟨clean, fits⟩ := plain_answer rest letter args plain
  have sends := @promptRun_facing τ react blksize fuel t (Text.toBytes front) buffer
    (c :: commandArgs [phys.toNat, val.toNat]) (by rw [List.length_cons]; omega)
  rw [answered_out answer] at sends
  exact (sends.bind fun _ => promptExpect_facing enough clean fits).conseq (fun _ pre => pre) fun _ s here =>
    ⟨ready', here⟩

/-- An `o` command for each byte. -/
theorem debugWriteBytes_facing (shell : CommandShell react Ready) (enough : 100 < fuel) {turns : Nat} {phys : Word}
    {bs : List Byte} (ready : Ready t) (rest : front ∈ rests) (some' : bs = [] → front = []) (count : bs.length < turns) :
    Total (Facing t (Text.toBytes front) buffer)
      (loop (debugWriteByteTurn (serialTty react blksize) fuel) turns (phys, bs))
      fun _ s => ∃ commands, StoredBy phys bs commands ∧ Ready (feed react t (commands.flatMap ShellStore.encode)).1 ∧
        Facing (feed react t (commands.flatMap ShellStore.encode)).1 [] buffer s := by
  induction turns generalizing phys bs t front with
  | zero => exact absurd count (Nat.not_lt_zero _)
  | succ turns ih =>
    rw [Prog.loop]
    cases bs with
    | nil =>
      cases some' rfl
      exact fun s here => ⟨(), s, rfl, [], .nil phys, ready, here⟩
    | cons b bs =>
      intro s here
      have byte : (b.setWidth 32).toNat = b.toNat := BitVec.toNat_setWidth_of_le (by decide)
      obtain ⟨_, s₁, run, ready', here'⟩ := @debugStore_facing τ react blksize fuel t buffer front Ready shell enough
        'o' phys (b.setWidth 32) (Or.inl rfl) ready rest s here
      rw [byte] at run ready' here'
      rw [commandArgs_two] at run
      obtain ⟨_, s₂, sends, expects⟩ := bind_ok_iff.mp run
      obtain ⟨_, s', more, commands, stored, last⟩ := @ih _ [] (phys + 1) bs ready' (by simp [rests]) (fun _ => rfl)
        (by simpa using count) s₁ here'
      refine ⟨(), s', ?_, _, .o stored, ?_⟩
      case refine_2 =>
        rw [List.flatMap_cons, feed_append]
        exact last
      rw [debugWriteByteTurn, bind_assoc, run_bind_ok (orMinusOne_ok.mpr sends), bind_assoc, run_bind_ok expects]
      exact more

/-- A `u` command and its bytes for each chunk. -/
theorem debugWriteChunks_facing (shell : CommandShell react Ready) (enough : 2 ^ 16 ≤ fuel) {turns : Nat} {phys : Word}
    {bs : List Byte} (ready : Ready t) (rest : front ∈ rests) (some' : bs ≠ []) (count : bs.length ≤ turns) :
    Total (Facing t (Text.toBytes front) buffer)
      (loop (debugWriteTurn (serialTty react blksize) fuel) turns (phys, bs))
      fun _ s => ∃ commands, StoredBy phys bs commands ∧ Ready (feed react t (commands.flatMap ShellStore.encode)).1 ∧
        Facing (feed react t (commands.flatMap ShellStore.encode)).1 [] buffer s := by
  induction turns generalizing phys bs t front with
  | zero => exact absurd (List.length_eq_zero_iff.mp (by omega)) some'
  | succ turns ih =>
    have long := List.length_pos_iff.mpr some'
    have max : debugCmdUMax = 128 := rfl
    rw [Prog.loop, debugWriteTurn]
    generalize chunk : (if bs.length > debugCmdUMax then debugCmdUMax else bs.length) = egress
    have size : 0 < egress ∧ egress ≤ bs.length ∧ egress ≤ debugCmdUMax := by
      rw [← chunk]
      split <;> omega
    have length : (bs.take egress).length = egress := List.length_take_of_le size.2.1
    have part : bs.take egress ≠ [] := by
      rw [← List.length_pos_iff, length]
      exact size.1
    obtain ⟨output, answer, plain, ready'⟩ := shell.uploads phys ready part (by rw [length]; exact size.2.2)
    rw [length] at answer ready'
    have args : (commandArgs [phys.toNat, egress]).length ≤ 18 := commandArgs_two_length phys.isLt (by omega)
    have letter : Plain ['u'] := by simp [Plain]
    obtain ⟨clean, fits⟩ := plain_answer rest letter args plain
    have room : 100 < fuel := by omega
    intro s here
    obtain ⟨_, s₁, sends, sent⟩ := @promptRun_facing τ react blksize fuel t (Text.toBytes front) buffer
      ('u' :: commandArgs [phys.toNat, egress]) (by rw [List.length_cons]; omega) s here
    obtain ⟨_, s₂, writes, written⟩ := @promptWrite_facing τ react blksize fuel _ _ buffer (bs.take egress) (by omega)
      s₁ sent
    have whole := @answered_out τ react t _ output front _ answer
    rw [feed_append, ← List.append_assoc] at whole
    rw [whole] at written
    rw [feed_append] at ready'
    obtain ⟨_, s₃, expects, here'⟩ := promptExpect_facing room clean fits s₂ written
    rw [commandArgs_two] at sends
    simp only [bind_assoc]
    rw [run_bind_ok sends, run_bind_ok writes, run_bind_ok expects]
    have upload : (feed react t (ShellStore.encode (.u phys.toNat (bs.take egress)))).1 =
        (feed react (feed react t (commandLine ('u' :: commandArgs [phys.toNat, egress]))).1 (bs.take egress)).1 := by
      have sent : ShellStore.encode (.u phys.toNat (bs.take egress)) =
          commandLine ('u' :: commandArgs [phys.toNat, egress]) ++ bs.take egress := by
        rw [ShellStore.encode, commandLine, length, List.append_assoc]
        rfl
      rw [sent, feed_append]
    rw [← upload] at ready' here'
    have whole : bs.take egress ++ bs.drop egress = bs := List.take_append_drop egress bs
    by_cases last : bs.drop egress = []
    · have stored := @StoredBy.u phys (bs.take egress) [] [] part (by rw [length]; exact size.2.2) (.nil _)
      rw [← last, whole] at stored
      refine ⟨(), s₃, by rw [if_pos last]; rfl, _, stored, ?_⟩
      rw [List.flatMap_singleton]
      exact ⟨ready', here'⟩
    · rw [if_neg last]
      obtain ⟨_, s', run, commands, stored, end'⟩ := @ih _ [] (phys + BitVec.ofNat 32 egress) _ ready' (by simp [rests])
        last (by rw [List.length_drop]; omega) s₃ here'
      have stored' := @StoredBy.u phys (bs.take egress) _ _ part (by rw [length]; exact size.2.2)
        (by rw [length]; exact stored)
      rw [whole] at stored'
      refine ⟨(), s', run, _, stored', ?_⟩
      rw [List.flatMap_cons, feed_append]
      exact end'

/-! The reader with the buffer. -/

/-- What may be left of a prompt, in the buffer or on the port. -/
def leads : List (List Char) := [[], ['$'], ['$', ' ']]

theorem lead_echo {addr len : Nat} (lead : front ∈ leads) (small : addr < 2 ^ 32) (small' : len < 2 ^ 32) :
    TextLine debugLineLen (front ++ ('d' :: commandArgs [addr, len] ++ ['\r', '\n'])) ∧
      front ++ ('d' :: commandArgs [addr, len] ++ ['\r', '\n']) ≠ ['$', ' ', '\n'] := by
  have echoed := @dCommand_echo addr len (by omega) (by omega)
  obtain ⟨short, plain⟩ : front.length ≤ debugShell.length ∧
      ∀ c ∈ front, c ≠ '\n' ∧ c.toNat ≠ 0 ∧ c.toNat < 256 := by
    simp only [leads, List.mem_cons, List.not_mem_nil, or_false] at lead
    rcases lead with rfl | rfl | rfl
    · exact ⟨by decide, fun _ never => (by cases never)⟩
    · exact ⟨by decide, by simp⟩
    · exact ⟨by decide, by simp⟩
  refine ⟨echoed.text.behind short plain, fun same => ?_⟩
  have length := congrArg List.length same
  rw [commandArgs_two] at length
  simp only [List.length_append, List.length_cons, List.length_nil] at length
  have := List.length_pos_iff.mpr (Text.hex_ne_nil addr)
  omega

theorem answered_lines {sent : List Byte} {cmd : List Char} {lines : List (List Char)}
    (answer : Answers react t sent cmd lines.flatten) :
    (feed react t sent).2 = Text.toBytes (cmd ++ ['\r', '\n']) ++ (sentLines lines ++ debugShell) := by
  have each : sentLines lines = Text.toBytes lines.flatten := by
    rw [sentLines, Text.toBytes, List.map_flatten, List.flatMap_def]
    rfl
  have shape : cmd ++ '\r' :: '\n' :: lines.flatten = cmd ++ ['\r', '\n'] ++ lines.flatten := by simp
  rw [answer, each, shape, Text.toBytes_append (cmd ++ ['\r', '\n']), List.append_assoc]

/-- The bytes that the `d` commands print are stored one behind the other, and the last prompt is left. -/
theorem debugReadChunks_prints (shell : CommandShell react Ready) (blk : 0 < blksize) (enough : 2 ^ 16 ≤ fuel)
    {errno : Option Errno} {turns : Nat} {s : DebugRead} (ready : Ready t) (lead : front ∈ leads)
    (some' : 0 < s.remaining) (count : s.remaining ≤ turns) :
    Total (At errno t (Text.toBytes front)) (loop (debugReadTurn (serialTty react blksize) fuel) turns s)
      fun buf st => ∃ bs t', PrintsDump react t s.phys s.remaining bs t' ∧ buf = ByteMem.write s.buf s.cursor bs ∧
        Ready t' ∧ At errno t' debugShell st := by
  induction turns generalizing t front s with
  | zero => omega
  | succ turns ih =>
    obtain ⟨le, small, pos, aligned⟩ := dIngress_le s.remaining
    have max : debugDMaxLen = 131072 := rfl
    obtain ⟨mem, lines, dump, answer, ready'⟩ := shell.dumps s.phys ready (pos some') small
    obtain ⟨text, other⟩ := lead_echo lead s.phys.isLt (show dIngress s.remaining < 2 ^ 32 by omega)
    rw [Prog.loop]
    refine (debugReadTurn_answered blk enough some' text other dump (answered_lines answer)).bind fun r => ?_
    rintro st ⟨here, line, rfl⟩
    by_cases done : s.remaining - dIngress s.remaining = 0
    · simp only [if_pos done]
      have last := @PrintsDump.nil τ react (feed react t (dCommand s.phys.toNat (dIngress s.remaining))).1
        (s.phys + BitVec.ofNat 32 (dIngress s.remaining))
      rw [← done] at last
      exact ⟨_, st, rfl, _, _, .cons some' dump answer last, by rw [List.append_nil], ready', here⟩
    · simp only [if_neg done]
      have next : 0 < s.remaining - dIngress s.remaining := Nat.pos_of_ne_zero done
      obtain ⟨buf, st', run, bs, t', printed, stored, ready'', last⟩ := @ih _ ['$', ' '] ⟨_, _, _, _, line⟩ ready'
        (by simp [leads]) next (by have := pos some'; simp only; omega) st here
      refine ⟨buf, st', run, _, t', .cons some' dump answer printed, ?_, ready'', last⟩
      rw [stored, ByteMem.write_append, ByteMem.read_length]

/-! Between two calls. -/

/-- No call fails, the peer is ready, and one prompt at most is still to be read: whole, or the part of it that the
buffer has. -/
structure AtPrompt (Ready : τ → Prop) (s : Stream (Serial τ)) : Prop where
  ready : Ready s.dev.peer
  works : s.dev.Works
  prompt : s.buffer ++ s.dev.out = debugShell ∨ s.dev.out = [] ∧ s.buffer <+: debugShell

namespace AtPrompt
variable {s s' : Stream (Serial τ)} {errno : Option Errno}

theorem unread (idle : AtPrompt Ready s) : s.buffer ++ s.dev.out <+: debugShell := by
  rcases idle.prompt with whole | ⟨none, part⟩
  · rw [whole]
  · rw [none, List.append_nil]
    exact part

theorem held (idle : AtPrompt Ready s) : s.buffer <+: debugShell := (List.prefix_append _ _).trans idle.unread

/-- As the reader past the buffer finds it. -/
theorem facing (idle : AtPrompt Ready s) (clear : s.dev.out ≠ debugShell) :
    ∃ front ∈ rests, Facing s.dev.peer (Text.toBytes front) s.buffer s := by
  rcases idle.prompt with whole | ⟨none, _⟩
  · rcases List.append_eq_cons_iff.mp whole with ⟨_, same⟩ | ⟨buffer, _, rest⟩
    · exact absurd same clear
    · rcases List.append_eq_cons_iff.mp rest.symm with ⟨_, last⟩ | ⟨_, _, rest'⟩
      · exact ⟨[' '], by simp [rests], rfl, idle.works, last, rfl⟩
      · exact ⟨[], by simp [rests], rfl, idle.works, (List.append_eq_nil_iff.mp rest'.symm).2, rfl⟩
  · exact ⟨[], by simp [rests], rfl, idle.works, none, rfl⟩

/-- As the reader with the buffer finds it. -/
theorem incoming (idle : AtPrompt Ready s) : ∃ front ∈ leads, At s.errno s.dev.peer (Text.toBytes front) s := by
  have front : ∃ front ∈ leads, s.buffer ++ s.dev.out = Text.toBytes front := by
    rcases idle.prompt with whole | ⟨none, part⟩
    · exact ⟨['$', ' '], by simp [leads], whole⟩
    · rw [none, List.append_nil]
      have few : s.buffer ∈ debugShell.inits := (List.mem_inits _ _).mpr part
      have inits : debugShell.inits = leads.map Text.toBytes := rfl
      rw [inits] at few
      obtain ⟨front, mem, same⟩ := List.mem_map.mp few
      exact ⟨front, mem, same.symm⟩
  obtain ⟨front, mem, same⟩ := front
  exact ⟨front, mem, rfl, idle.works, rfl, same⟩

theorem of_facing {buffer : List Byte} (ready : Ready t) (part : buffer <+: debugShell)
    (here : Facing t [] buffer s') : AtPrompt Ready s' :=
  ⟨here.peer ▸ ready, here.works, Or.inr ⟨here.out, here.buffer ▸ part⟩⟩

theorem of_at (ready : Ready t) (here : At errno t debugShell s') : AtPrompt Ready s' :=
  ⟨here.peer ▸ ready, here.works, Or.inl here.incoming⟩

end AtPrompt

/-! One call. -/

variable {s : Stream (Serial τ)} {phys : Word}

/-- The call returns what the shell printed for it, and a prompt at most is left. -/
def Served (react : τ → Byte → τ × List Byte) (Ready : τ → Prop) (blksize fuel : Nat) (call : DebugCall)
    (s : Stream (Serial τ)) : Prop :=
  ∃ answer s', (call.run (serialTty react blksize) fuel).run s = .ok answer s' ∧ call.Own react s.dev.peer answer ∧
    AtPrompt Ready s'

/-- The call is carried out by the commands it stands for. -/
def Carried (react : τ → Byte → τ × List Byte) (Ready : τ → Prop) (blksize fuel : Nat) (call : DebugCall)
    (s : Stream (Serial τ)) : Prop :=
  ∃ answer s', (call.run (serialTty react blksize) fuel).run s = .ok answer s' ∧
    call.Done react s.dev.peer answer s'.dev.peer ∧ AtPrompt Ready s'

theorem Carried.served {call : DebugCall} (carried : Carried react Ready blksize fuel call s) :
    Served react Ready blksize fuel call s := by
  obtain ⟨answer, s', run, done, idle⟩ := carried
  refine ⟨answer, s', run, ?_, idle⟩
  cases call with
  | read phys buf len =>
    cases answer with
    | read n buf' =>
      obtain ⟨count, bs, printed⟩ := done
      exact ⟨count, bs, _, printed⟩
    | readl _ | write _ | writel => exact done.elim
  | readl phys =>
    cases answer with
    | readl val => exact done.1
    | read _ _ | write _ | writel => exact done.elim
  | write phys buf =>
    cases answer with
    | write n => exact done.1
    | read _ _ | readl _ | writel => exact done.elim
  | writel phys val =>
    cases answer with
    | writel => trivial
    | read _ _ | readl _ | write _ => exact done.elim

/-- The call is turned down before anything is sent. -/
def TurnedDown (react : τ → Byte → τ × List Byte) (blksize fuel : Nat) (call : DebugCall) (s : Stream (Serial τ)) :
    Prop :=
  ∃ e, (call.run (serialTty react blksize) fuel).run s = .error (.rc e) s

theorem readl_carried (shell : CommandShell react Ready) (enough : 100 < fuel) (idle : AtPrompt Ready s)
    (clear : s.dev.out ≠ debugShell) : Carried react Ready blksize fuel (.readl phys) s := by
  obtain ⟨front, rest, here⟩ := idle.facing clear
  obtain ⟨output, w, answer, plain, numeral, ready⟩ := shell.prints phys idle.ready (Or.inr rfl)
  obtain ⟨_, s', run, rfl, last⟩ := @debugReadFixed_facing τ react blksize fuel _ _ _ _ 'r' phys w enough (Or.inr rfl) rest
    plain numeral answer s here
  refine ⟨.readl _, s', ?_, ⟨⟨output, answer, plain, numeral⟩, last.peer⟩, .of_facing ready idle.held last⟩
  rw [DebugCall.run, debugReadl, run_bind_ok run]
  rfl

theorem writel_carried {val : Word} (shell : CommandShell react Ready) (enough : 100 < fuel) (idle : AtPrompt Ready s)
    (awaited : ¬ DebugCall.Unawaited (.writel phys val)) (clear : s.dev.out ≠ debugShell) :
    Carried react Ready blksize fuel (.writel phys val) s := by
  obtain ⟨front, rest, here⟩ := idle.facing clear
  obtain ⟨_, s', run, ready, last⟩ := @debugStore_facing τ react blksize fuel _ _ _ Ready shell enough 'w' phys val
    (Or.inr rfl) idle.ready rest s here
  rw [commandArgs_two] at run
  obtain ⟨_, s₁, sends, expects⟩ := bind_ok_iff.mp run
  have waits : ¬ phys &&& ~~~0x20 = 0x1e785004 ∨ ¬ val = 0 := not_and_or.mp awaited
  refine ⟨.writel, s', ?_, last.peer, .of_facing ready idle.held last⟩
  rw [DebugCall.run, debugWritel, bind_assoc, run_bind_ok sends, if_pos (not_and_or.mpr waits), run_bind_ok expects]
  rfl

theorem read_carried {buf : Mem} {len : Nat} (shell : CommandShell react Ready) (blk : 0 < blksize)
    (enough : len + 2 ^ 16 < fuel) (fits : len ≤ ssizeMax) (idle : AtPrompt Ready s)
    (clear : 0 < len ∧ len < 4 → s.dev.out ≠ debugShell) :
    Carried react Ready blksize fuel (.read phys buf len) s := by
  have whole {buf' : Mem} {s' : Stream (Serial τ)}
      (run : (debugRead (serialTty react blksize) fuel phys buf len).run s = .ok (len, buf') s') :
      ((DebugCall.read phys buf len).run (serialTty react blksize) fuel).run s = .ok (.read len buf') s' := by
    rw [DebugCall.run, run_bind_ok run]
    rfl
  by_cases short : len < 4
  · have bytes {buf' : Mem} {s' : Stream (Serial τ)} (run : (loop (debugReadBytesTurn (serialTty react blksize) fuel len)
        fuel (len, phys, buf)).run s = .ok buf' s') :
        (debugRead (serialTty react blksize) fuel phys buf len).run s = .ok (len, buf') s' := by
      rw [debugRead, orMinusOne_ok]
      simp only [if_neg (Nat.not_lt.mpr fits), if_pos short]
      rw [run_bind_ok run]
      rfl
    by_cases none : len = 0
    · subst none
      obtain ⟨fuel, rfl⟩ : ∃ k, fuel = k + 1 := ⟨fuel - 1, by omega⟩
      refine ⟨_, s, whole (bytes rfl), ⟨rfl, [], ?_, (ByteMem.write_nil buf 0).symm⟩, idle⟩
      rw [if_pos short]
      exact ⟨.nil _ _, rfl⟩
    · obtain ⟨front, rest, here⟩ := idle.facing (clear ⟨Nat.pos_of_ne_zero none, short⟩)
      obtain ⟨buf', s', run, bs, t', printed, length, stored, ready, last⟩ := @debugReadBytes_facing τ react blksize fuel
        _ _ front Ready shell (by omega) len len fuel phys buf idle.ready rest (fun zero => absurd zero none)
        (Nat.le_refl _) (by omega) s here
      rw [Nat.sub_self] at stored
      refine ⟨_, s', whole (bytes run), ⟨rfl, bs, ?_, stored⟩, .of_facing ready idle.held last⟩
      rw [if_pos short, last.peer]
      exact ⟨printed, length⟩
  · obtain ⟨front, lead, here⟩ := idle.incoming
    obtain ⟨buf', s', run, bs, t', printed, stored, ready, last⟩ := @debugReadChunks_prints τ react blksize fuel _ front
      Ready shell blk (by omega) s.errno fuel ⟨phys, len, 0, buf, none⟩ idle.ready lead (by simp only; omega)
      (by simp only; omega) s here
    refine ⟨_, s', whole (debugRead_run (by omega) fits run), ⟨rfl, bs, ?_, stored⟩, .of_at ready last⟩
    rw [if_neg short, last.peer]
    exact printed

theorem write_carried {buf : List Byte} (shell : CommandShell react Ready) (enough : buf.length + 2 ^ 16 < fuel)
    (fits : buf.length ≤ ssizeMax) (idle : AtPrompt Ready s) (clear : buf ≠ [] → s.dev.out ≠ debugShell) :
    Carried react Ready blksize fuel (.write phys buf) s := by
  have big : ¬ buf.length > ssizeMax := Nat.not_lt.mpr fits
  have whole {s' : Stream (Serial τ)}
      (run : (debugWrite (serialTty react blksize) fuel phys buf).run s = .ok buf.length s') :
      ((DebugCall.write phys buf).run (serialTty react blksize) fuel).run s = .ok (.write buf.length) s' := by
    rw [DebugCall.run, run_bind_ok run]
    rfl
  by_cases short : buf.length ≤ 4
  · have bytes {s' : Stream (Serial τ)} (run : (loop (debugWriteByteTurn (serialTty react blksize) fuel) fuel
        (phys, buf)).run s = .ok () s') :
        (debugWrite (serialTty react blksize) fuel phys buf).run s = .ok buf.length s' := by
      rw [debugWrite, if_neg big, if_pos short]
      show (loop (debugWriteByteTurn (serialTty react blksize) fuel) fuel (phys, buf) >>= fun _ =>
        pure buf.length).run s = _
      rw [run_bind_ok run]
      rfl
    by_cases none : buf = []
    · subst none
      obtain ⟨fuel, rfl⟩ : ∃ k, fuel = k + 1 := ⟨fuel - 1, by omega⟩
      exact ⟨_, s, whole (bytes rfl), ⟨rfl, [], .nil phys, rfl⟩, idle⟩
    · obtain ⟨front, rest, here⟩ := idle.facing (clear none)
      obtain ⟨_, s', run, commands, stored, ready, last⟩ := @debugWriteBytes_facing τ react blksize fuel _ _ front Ready shell (by omega)
        fuel phys buf idle.ready rest (fun empty => absurd empty none) (by omega) s here
      exact ⟨_, s', whole (bytes run), ⟨rfl, commands, stored, last.peer⟩, .of_facing ready idle.held last⟩
  · have some' : buf ≠ [] := fun none => short (by rw [none]; decide)
    obtain ⟨front, rest, here⟩ := idle.facing (clear some')
    obtain ⟨_, s', run, commands, stored, ready, last⟩ := @debugWriteChunks_facing τ react blksize fuel _ _ front Ready shell (by omega)
      fuel phys buf idle.ready rest some' (by omega) s here
    refine ⟨_, s', whole ?_, ⟨rfl, commands, stored, last.peer⟩, .of_facing ready idle.held last⟩
    rw [debugWrite, if_neg big, if_neg short]
    show (orMinusOne (loop (debugWriteTurn (serialTty react blksize) fuel) fuel (phys, buf)) >>= fun _ =>
      pure buf.length).run s = _
    rw [run_bind_ok (orMinusOne_ok.mpr run)]
    rfl

/-- A call on a stream that is clear for it. -/
theorem call_carried {call : DebugCall} (shell : CommandShell react Ready) (blk : 0 < blksize)
    (enough : call.size + 2 ^ 16 < fuel) (fits : call.size ≤ ssizeMax) (idle : AtPrompt Ready s) (clear : call.Clear s) :
    Carried react Ready blksize fuel call s := by
  cases call with
  | read phys buf len => exact read_carried shell blk enough fits idle clear.2
  | readl phys => exact readl_carried shell (by omega) idle (clear.2 trivial)
  | write phys buf => exact write_carried shell enough fits idle clear.2
  | writel phys val => exact writel_carried shell (by omega) idle clear.1 (clear.2 trivial)

theorem call_turnedDown {call : DebugCall} (big : ssizeMax < call.size) : TurnedDown react blksize fuel call s := by
  have small : ¬ ssizeMax < 4 := by decide
  refine ⟨eperm, ?_⟩
  cases call with
  | read phys buf len =>
    have stops : (debugRead (serialTty react blksize) fuel phys buf len).run s = .error (.rc eperm) s := by
      rw [debugRead]
      refine orMinusOne_rc (e := eperm) ?_
      rw [if_pos (show len > ssizeMax from big)]
      rfl
    rw [DebugCall.run, run_bind_error stops]
  | write phys buf =>
    have stops : (debugWrite (serialTty react blksize) fuel phys buf).run s = .error (.rc eperm) s := by
      rw [debugWrite, if_pos (show buf.length > ssizeMax from big)]
      rfl
    rw [DebugCall.run, run_bind_error stops]
  | readl phys => exact absurd big small
  | writel phys val => exact absurd big small

theorem call_served {call : DebugCall} (shell : CommandShell react Ready) (blk : 0 < blksize)
    (enough : call.size + 2 ^ 16 < fuel) (idle : AtPrompt Ready s) (clear : call.Clear s) :
    Served react Ready blksize fuel call s ∨ TurnedDown react blksize fuel call s := by
  by_cases fits : call.size ≤ ssizeMax
  · exact Or.inl (call_carried shell blk enough fits idle clear).served
  · exact Or.inr (call_turnedDown (Nat.lt_of_not_le fits))

end

/-- From a shell at its prompt on, however its answers are cut up: in a sequence of calls each of which is made on a
stream that is clear for it, each returns what was printed for its own command. -/
theorem debugCalls_own {τ : Type} {react : τ → Byte → τ × List Byte} {Ready : τ → Prop} {blksize fuel : Nat}
    {calls : List DebugCall} {s : Stream (Serial τ)} (shell : CommandShell react Ready) (blk : 0 < blksize)
    (ready : Ready s.dev.peer) (works : s.dev.Works) (fresh : s.buffer = [] ∧ s.dev.out = [])
    (enough : ∀ call ∈ calls, call.size + 2 ^ 16 < fuel) (clear : EachClear react blksize fuel calls s) :
    EachOwn react blksize fuel calls s := by
  have each (calls : List DebugCall) (s : Stream (Serial τ)) (idle : AtPrompt Ready s)
      (enough : ∀ call ∈ calls, call.size + 2 ^ 16 < fuel) (clear : EachClear react blksize fuel calls s) :
      EachOwn react blksize fuel calls s := by
    induction calls generalizing s with
    | nil => trivial
    | cons call rest ih =>
      obtain ⟨here, later⟩ := clear
      have more : ∀ call ∈ rest, call.size + 2 ^ 16 < fuel := fun c mem => enough c (List.mem_cons_of_mem call mem)
      rcases call_served shell blk (enough call List.mem_cons_self) idle here with
        ⟨answer, s', run, own, idle'⟩ | ⟨e, run⟩
      · rw [EachOwn]
        rw [run] at later ⊢
        exact ⟨⟨own, idle'.unread⟩, ih s' idle' more later⟩
      · rw [EachOwn]
        rw [run] at later ⊢
        exact ⟨trivial, ih s idle more later⟩
  have start : s.buffer <+: debugShell := by
    rw [fresh.1]
    exact List.nil_prefix
  exact each calls s ⟨ready, works, Or.inr ⟨fresh.2, start⟩⟩ enough clear

/-- The shell prints one word. -/
theorem PrintsWord.unique {τ : Type} {react : τ → Byte → τ × List Byte} {t : τ} {c : Char} {phys w w' : Word}
    (first : PrintsWord react t c phys w) (second : PrintsWord react t c phys w') : w = w' := by
  obtain ⟨output, answer, plain, numeral⟩ := first
  obtain ⟨output', answer', plain', numeral'⟩ := second
  have narrow {output : List Char} (plain : Output output) : Text.Narrow output := fun x mem => (plain.plain x mem).2.2
  obtain rfl := answer.unique react answer' (narrow plain) (narrow plain')
  exact (numeral_word numeral).2.symm.trans (numeral_word numeral').2

/-! A read, and what follows it. -/

/-- Eight bytes are read, then a word, and the word behind it. -/
def eightThenWords : List DebugCall := [.read 0x1000 (fun _ => 0) 8, .readl 0x1000, .readl 0x1004]

/-- A memory behind a port that moves what `answers` says. -/
def cutStream (answers : Nat → Nat) : Stream (Serial MemShell) :=
  ⟨⟨⟨countingMem, [], (0, 0)⟩, [], fun n => .ok (answers n), 0⟩, [], none⟩

theorem debugCalls_own_whole : EachOwn MemShell.react 1024 (2 ^ 17) eightThenWords (cutStream fun _ => 1024) :=
  debugCalls_own MemShell.commands (by decide) ⟨rfl, rfl⟩ (fun _ => ⟨1024, rfl⟩) ⟨rfl, rfl⟩
    (by simp [eightThenWords, DebugCall.size])
    ⟨⟨id, fun _ => by decide +kernel⟩, ⟨id, fun _ => by decide +kernel⟩, ⟨id, fun _ => by decide +kernel⟩, trivial⟩

/-- The word that a call returns. -/
def wordOf {σ : Type} : EStateM.Result Stop σ DebugAnswer → Option Word
  | .ok (.readl w) _ => some w
  | _ => none

/-- The word that is a call's own is the one in the memory. -/
theorem EachOwn.word {blksize fuel : Nat} {phys w : Word} {rest : List DebugCall} {s : Stream (Serial MemShell)}
    (each : EachOwn MemShell.react blksize fuel (.readl phys :: rest) s) (ready : s.dev.peer.Ready)
    (word : wordOf (((DebugCall.readl phys).run (serialTty MemShell.react blksize) fuel).run s) = some w) :
    w = ByteMem.readWord s.dev.peer.mem phys.toNat := by
  obtain ⟨output, answer, plain, numeral, _⟩ := MemShell.prints_word ready phys
  obtain ⟨own, _⟩ := each
  generalize ((DebugCall.readl phys).run (serialTty MemShell.react blksize) fuel).run s = r at own word
  cases r with
  | error e s' => cases word
  | ok answer' s' =>
    cases answer' with
    | readl val =>
      cases word
      exact own.1.unique ⟨output, answer, plain, numeral⟩
    | read n buf => cases word
    | write n => cases word
    | writel => cases word

/-- The dump comes in two parts, and its prompt is left on the port: the first word fails on it, and the second call
returns the word of the first. -/
theorem debugCalls_stale : ¬ ∀ (calls : List DebugCall) (s : Stream (Serial MemShell)),
    s.dev.peer.Ready → s.dev.Works → s.buffer = [] ∧ s.dev.out = [] →
    (∀ call ∈ calls, call.size + 2 ^ 16 < 2 ^ 17) → EachOwn MemShell.react 1024 (2 ^ 17) calls s := by
  intro always
  have each := always eightThenWords (cutStream fun n => if n = 2 then 40 else if n = 5 then 2 else 1024)
    ⟨rfl, rfl⟩ (fun n => ⟨_, rfl⟩) ⟨rfl, rfl⟩ (by simp [eightThenWords, DebugCall.size])
  have word := each.2.2.word (w := 0x03020100) ⟨by decide +kernel, by decide +kernel⟩ (by decide +kernel)
  exact absurd word (by decide +kernel)

end Culvert
