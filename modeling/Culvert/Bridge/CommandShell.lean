import Culvert.Bridge.DumpShell
import Culvert.Lib.Numeral

/-! A debug shell that answers each command line with its echo, its output and the prompt. -/

namespace Culvert
open Prog

/-- A command line as it is sent. -/
def commandLine (cmd : List Char) : List Byte := Text.toBytes cmd ++ [13]

/-- Characters of one byte, none of them NUL or one that a prompt begins with. -/
def Plain (text : List Char) : Prop := ∀ c ∈ text, c ≠ '$' ∧ c.toNat ≠ 0 ∧ c.toNat < 256

/-- Output in which no prompt is seen, and which leaves the one behind it in the first 100 bytes. -/
structure Output (output : List Char) : Prop where
  plain : Plain output
  fits : output.length ≤ 64

section
variable {τ : Type} (react : τ → Byte → τ × List Byte)

/-- What is sent is answered with the echo of the command line, the output and the prompt. -/
def Answers (t : τ) (sent : List Byte) (cmd output : List Char) : Prop :=
  (feed react t sent).2 = Text.toBytes (cmd ++ '\r' :: '\n' :: output) ++ debugShell

/-- The same command line has one answer. -/
theorem Answers.unique {t : τ} {sent : List Byte} {cmd output output' : List Char} (first : Answers react t sent cmd output)
    (second : Answers react t sent cmd output') (narrow : Text.Narrow output) (narrow' : Text.Narrow output') :
    output = output' := by
  rw [Answers] at first second
  rw [first] at second
  have front (output : List Char) : Text.toBytes (cmd ++ '\r' :: '\n' :: output) =
      Text.toBytes (cmd ++ ['\r', '\n']) ++ Text.toBytes output := by
    rw [← Text.toBytes_append]
    simp
  have texts := List.append_cancel_right second
  rw [front output, front output'] at texts
  rw [← Text.ofBytes_toBytes narrow, List.append_cancel_left texts, Text.ofBytes_toBytes narrow']

/-- The commands that a shell in a `Ready` state carries out. It has a prompt for each. -/
structure CommandShell (Ready : τ → Prop) : Prop where
  prints {t : τ} {c : Char} (phys : Word) : Ready t → c = 'i' ∨ c = 'r' → ∃ output, ∃ w : Word,
    Answers react t (commandLine (c :: commandArgs [phys.toNat])) (c :: commandArgs [phys.toNat]) output ∧
    Output output ∧ Text.Numeral output w.toNat ∧
    Ready (feed react t (commandLine (c :: commandArgs [phys.toNat]))).1
  stores {t : τ} {c : Char} (phys val : Word) : Ready t → c = 'o' ∨ c = 'w' → ∃ output,
    Answers react t (commandLine (c :: commandArgs [phys.toNat, val.toNat])) (c :: commandArgs [phys.toNat, val.toNat])
      output ∧
    Output output ∧ Ready (feed react t (commandLine (c :: commandArgs [phys.toNat, val.toNat]))).1
  uploads {t : τ} {bytes : List Byte} (phys : Word) : Ready t → bytes ≠ [] → bytes.length ≤ debugCmdUMax → ∃ output,
    Answers react t (commandLine ('u' :: commandArgs [phys.toNat, bytes.length]) ++ bytes)
      ('u' :: commandArgs [phys.toNat, bytes.length]) output ∧
    Output output ∧ Ready (feed react t (commandLine ('u' :: commandArgs [phys.toNat, bytes.length]) ++ bytes)).1
  dumps {t : τ} {len : Nat} (phys : Word) : Ready t → 0 < len → len ≤ debugDMaxLen → ∃ mem lines,
    Dump mem phys.toNat (dumpWords len) lines ∧
    Answers react t (dCommand phys.toNat len) ('d' :: commandArgs [phys.toNat, len]) lines.flatten ∧
    Ready (feed react t (dCommand phys.toNat len)).1

end

/-! A shell with a memory. -/

/-- The memory, what there is of a command line, and where the next byte of a `u` goes, with the number of those that
are still to come. -/
structure MemShell where
  mem : Mem
  line : List Byte
  upload : Nat × Nat

namespace MemShell

/-- What the monitor prints for a command, and the memory that it leaves. It knows no others. -/
def exec (mem : Mem) : Option (Char × List Nat) → List Char × Mem
  | some ('r', [addr]) => (hexWord (ByteMem.readWord mem addr) ++ ['\r', '\n'], mem)
  | some ('i', [addr]) => (Text.hex (mem addr).toNat ++ ['\r', '\n'], mem)
  | some ('d', [addr, len]) => ((wordLines mem addr (dumpWords len)).flatten, mem)
  | some ('w', [addr, val]) => ([], ByteMem.write mem addr (Word.bytes (BitVec.ofNat 32 val)))
  | some ('o', [addr, val]) => ([], ByteMem.write mem addr [BitVec.ofNat 8 val])
  | _ => ([], mem)

def react (t : MemShell) (b : Byte) : MemShell × List Byte :=
  match t.upload with
  | (addr, left + 1) =>
    ({ t with mem := ByteMem.write t.mem addr [b], upload := (addr + 1, left) }, if left = 0 then debugShell else [])
  | (_, 0) =>
    if b ≠ 13 then ({ t with line := t.line ++ [b] }, [])
    else
      match readCommand (Text.ofBytes t.line) with
      | some ('u', [addr, n + 1]) => (⟨t.mem, [], (addr, n + 1)⟩, t.line ++ [13, 10])
      | command =>
        (⟨(exec t.mem command).2, [], (0, 0)⟩, t.line ++ [13, 10] ++ Text.toBytes (exec t.mem command).1 ++ debugShell)

/-- At its prompt. -/
def Ready (t : MemShell) : Prop := t.line = [] ∧ t.upload.2 = 0

section
variable {t : MemShell} {mem : Mem} {bs : List Byte} {c : Char} {args : List Nat} {addr left : Nat}

theorem feed_line (idle : t.upload.2 = 0) (fresh : (13 : Byte) ∉ bs) :
    feed react t bs = ({ t with line := t.line ++ bs }, []) := by
  induction bs generalizing t with
  | nil => simp [feed]
  | cons b bs ih =>
    rw [List.mem_cons, not_or] at fresh
    obtain ⟨mem, line, addr, _⟩ := t
    cases idle
    have one : react ⟨mem, line, addr, 0⟩ b = (⟨mem, line ++ [b], addr, 0⟩, []) := if_pos (Ne.symm fresh.1)
    have rest := @ih ⟨mem, line ++ [b], addr, 0⟩ rfl fresh.2
    simp [feed, one, rest]

/-- A whole line is carried out. -/
theorem feed_command (ready : Ready t) (small : c.toNat < 256) (letter : c ≠ '\r') :
    feed react t (commandLine (c :: commandArgs args)) =
      react ⟨t.mem, Text.toBytes (c :: commandArgs args), t.upload⟩ 13 := by
  have narrow : Text.Narrow (c :: commandArgs args) := fun x mem => by
    rcases List.mem_cons.mp mem with rfl | arg
    · exact small
    · exact narrow_commandArgs args x arg
  have fresh : '\r' ∉ c :: commandArgs args := fun mem => by
    rcases List.mem_cons.mp mem with same | arg
    · exact letter same.symm
    · exact return_not_mem_commandArgs args arg
  have fresh' : (13 : Byte) ∉ Text.toBytes (c :: commandArgs args) :=
    Text.not_mem_toBytes (c := '\r') narrow (by decide) fresh
  obtain ⟨mem, line, upload⟩ := t
  obtain ⟨rfl, idle⟩ := ready
  rw [commandLine, feed_append, feed_line idle fresh']
  simp [feed]

theorem readCommand_sent (small : c.toNat < 256) :
    readCommand (Text.ofBytes (Text.toBytes (c :: commandArgs args))) = some (c, args) := by
  have narrow : Text.Narrow (c :: commandArgs args) := fun x mem => by
    rcases List.mem_cons.mp mem with rfl | arg
    · exact small
    · exact narrow_commandArgs args x arg
  rw [Text.ofBytes_toBytes narrow, readCommand_commandArgs]

theorem feed_exec (ready : Ready t) (small : c.toNat < 256) (letter : c ≠ '\r') (other : c ≠ 'u') :
    feed react t (commandLine (c :: commandArgs args)) =
      (⟨(exec t.mem (some (c, args))).2, [], (0, 0)⟩, Text.toBytes (c :: commandArgs args ++ '\r' :: '\n' ::
        (exec t.mem (some (c, args))).1) ++ debugShell) := by
  rw [feed_command ready small letter]
  obtain ⟨mem, line, addr, left⟩ := t
  cases ready.2
  simp only [react, readCommand_sent small]
  rw [if_neg (by decide)]
  split
  case h_1 same =>
    cases same
    exact absurd rfl other
  case h_2 => simp [Text.toBytes]

theorem feed_u (ready : Ready t) (n : Nat) : feed react t (commandLine ('u' :: commandArgs [addr, n + 1])) =
    (⟨t.mem, [], (addr, n + 1)⟩, Text.toBytes ('u' :: commandArgs [addr, n + 1] ++ ['\r', '\n'])) := by
  rw [feed_command ready (by decide) (by decide)]
  obtain ⟨mem, line, addr', left⟩ := t
  cases ready.2
  simp only [react, readCommand_sent (c := 'u') (by decide)]
  rw [if_neg (by decide)]
  simp [Text.toBytes]

/-- The bytes of an upload, the last of which brings the prompt. -/
theorem feed_upload (count : left + 1 = bs.length) : feed react ⟨mem, [], (addr, left + 1)⟩ bs =
    (⟨ByteMem.write mem addr bs, [], (addr + bs.length, 0)⟩, debugShell) := by
  induction bs generalizing mem addr left with
  | nil => cases count
  | cons b bs ih =>
    rw [List.length_cons] at count
    cases bs with
    | nil =>
      obtain rfl : left = 0 := by simpa using count
      simp [feed, react]
    | cons b' bs =>
      obtain ⟨k, rfl⟩ : ∃ k, left = k + 1 := ⟨bs.length, by simpa using count⟩
      have one : react ⟨mem, [], (addr, k + 1 + 1)⟩ b = (⟨ByteMem.write mem addr [b], [], (addr + 1, k + 1)⟩, []) := rfl
      have rest := @ih (ByteMem.write mem addr [b]) (addr + 1) k (by simpa using count)
      rw [feed, one]
      simp only [rest, List.nil_append]
      rw [ByteMem.write_cons mem addr b (b' :: bs)]
      congr 3
      simp only [List.length_cons]
      omega

theorem output_digits {ds : List Char} (hex : ∀ c ∈ ds, Text.isHex c) (short : ds.length ≤ 8) :
    Output (ds ++ ['\r', '\n']) := by
  have ends : ∀ c ∈ ['\r', '\n'], c ≠ '$' ∧ c.toNat ≠ 0 ∧ c.toNat < 256 := by simp
  refine ⟨fun c mem => ?_, ?_⟩
  · rcases List.mem_append.mp mem with digit | last
    · have small := Text.toNat_lt_of_isHex (hex c digit)
      refine ⟨Text.isHex_ne (hex c digit) (by decide), fun nul => ?_, by omega⟩
      have zero : c = Char.ofNat 0 := by rw [← nul, Char.ofNat_toNat]
      exact Text.isHex_ne (hex c digit) (x := Char.ofNat 0) (by decide) zero
    · exact ends c last
  · rw [List.length_append, List.length_cons, List.length_singleton]
    omega

theorem numeral_answer {ds : List Char} (some' : ds ≠ []) (hex : ∀ c ∈ ds, Text.isHex c) :
    Text.Numeral (ds ++ ['\r', '\n']) (Text.digits 16 0 ds).1 := by
  have head (c : Char) (mem : c ∈ ['\r', '\n'].head?) : c = '\r' := (Option.mem_some_iff.mp mem).symm
  refine Text.numeral_digits some' hex (fun c mem => ?_) fun c mem => ?_
  · rw [head c mem]
    decide
  · rw [head c mem]
    decide

/-- The word at the address is printed for an `r` command. -/
theorem prints_word (ready : Ready t) (phys : Word) : ∃ output,
    Answers react t (commandLine ('r' :: commandArgs [phys.toNat])) ('r' :: commandArgs [phys.toNat]) output ∧
    Output output ∧ Text.Numeral output (ByteMem.readWord t.mem phys.toNat).toNat ∧
    Ready (feed react t (commandLine ('r' :: commandArgs [phys.toNat]))).1 := by
  have run := @feed_exec t 'r' [phys.toNat] ready (by decide) (by decide) (by decide)
  obtain ⟨eight, hex⟩ := (hexWord_data (ByteMem.readWord t.mem phys.toNat)).1
  have some' : hexWord (ByteMem.readWord t.mem phys.toNat) ≠ [] := fun none => by
    rw [none] at eight
    cases eight
  have numeral := numeral_answer some' hex
  rw [(hexWord_digits _).2] at numeral
  refine ⟨_, congrArg Prod.snd run, output_digits hex (Nat.le_of_eq eight), numeral, ?_⟩
  rw [run]
  exact ⟨rfl, rfl⟩

/-- And the byte for an `i` command. -/
theorem prints_byte (ready : Ready t) (phys : Word) : ∃ output,
    Answers react t (commandLine ('i' :: commandArgs [phys.toNat])) ('i' :: commandArgs [phys.toNat]) output ∧
    Output output ∧ Text.Numeral output ((t.mem phys.toNat).setWidth 32).toNat ∧
    Ready (feed react t (commandLine ('i' :: commandArgs [phys.toNat]))).1 := by
  have run := @feed_exec t 'i' [phys.toNat] ready (by decide) (by decide) (by decide)
  obtain ⟨hex, value⟩ := Text.hex_digits (t.mem phys.toNat).toNat
  have numeral := numeral_answer (Text.hex_ne_nil _) hex
  have small : (t.mem phys.toNat).toNat < 2 ^ 32 := by
    have := (t.mem phys.toNat).isLt
    omega
  refine ⟨_, congrArg Prod.snd run, output_digits hex (Text.hex_length (by decide) small), ?_, ?_⟩
  · rw [value] at numeral
    rw [BitVec.toNat_setWidth, Nat.mod_eq_of_lt small]
    exact numeral
  · rw [run]
    exact ⟨rfl, rfl⟩

end

/-- It answers as a shell does. -/
theorem commands : CommandShell react Ready where
  prints {t} {c} phys ready kind := by
    rcases kind with rfl | rfl
    · obtain ⟨output, answer, plain, numeral, ready'⟩ := prints_byte ready phys
      exact ⟨output, _, answer, plain, numeral, ready'⟩
    · obtain ⟨output, answer, plain, numeral, ready'⟩ := prints_word ready phys
      exact ⟨output, _, answer, plain, numeral, ready'⟩
  stores {t} {c} phys val ready kind := by
    have empty : Output [] := ⟨fun _ never => (by cases never), by decide⟩
    rcases kind with rfl | rfl
    · have run := @feed_exec t 'o' [phys.toNat, val.toNat] ready (by decide) (by decide) (by decide)
      exact ⟨[], congrArg Prod.snd run, empty, by rw [run]; exact ⟨rfl, rfl⟩⟩
    · have run := @feed_exec t 'w' [phys.toNat, val.toNat] ready (by decide) (by decide) (by decide)
      exact ⟨[], congrArg Prod.snd run, empty, by rw [run]; exact ⟨rfl, rfl⟩⟩
  uploads {t} {bytes} phys ready some' small := by
    obtain ⟨n, count⟩ : ∃ n, n + 1 = bytes.length := ⟨bytes.length - 1, by
      have := List.length_pos_iff.mpr some'
      omega⟩
    have run : feed react t (commandLine ('u' :: commandArgs [phys.toNat, bytes.length]) ++ bytes) =
        (⟨ByteMem.write t.mem phys.toNat bytes, [], (phys.toNat + bytes.length, 0)⟩,
          Text.toBytes ('u' :: commandArgs [phys.toNat, bytes.length] ++ ['\r', '\n']) ++ debugShell) := by
      rw [feed_append, ← count, feed_u ready n]
      simp only [feed_upload count]
      rw [count]
    exact ⟨[], congrArg Prod.snd run, ⟨fun _ never => (by cases never), by decide⟩, by rw [run]; exact ⟨rfl, rfl⟩⟩
  dumps {t} {len} phys ready some' small := by
    have run := @feed_exec t 'd' [phys.toNat, len] ready (by decide) (by decide) (by decide)
    have same : commandLine ('d' :: commandArgs [phys.toNat, len]) = dCommand phys.toNat len :=
      (dCommand_args phys.toNat len).symm
    rw [same] at run
    refine ⟨t.mem, wordLines t.mem phys.toNat (dumpWords len), wordLines_dump t.mem ?_, congrArg Prod.snd run, ?_⟩
    · have max : debugDMaxLen = 131072 := rfl
      have big := phys.isLt
      rw [dumpWords]
      omega
    · rw [run]
      exact ⟨rfl, rfl⟩

end MemShell

end Culvert
