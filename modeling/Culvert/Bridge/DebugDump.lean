import Culvert.Bridge.DebugLines
import Culvert.Bridge.DebugShell

namespace Culvert
open Prog

/-- `d A L` as it is sent. -/
def dCommand (addr len : Nat) : List Byte := Text.toBytes ('d' :: ' ' :: Text.hex addr ++ ' ' :: Text.hex len) ++ [13]

/-- The line that a command is echoed on. -/
structure EchoLine (line : List Char) : Prop where
  text : TextLine (debugLineLen - debugShell.length) line
  some' : line ≠ ['\n']
  noPrompt : line ≠ ['$', ' ', '\n']

/-- So many words of the memory from an address on, one to four on a line. -/
inductive Dump (mem : Mem) : Nat → Nat → List (List Char) → Prop
  | nil (addr) : Dump mem addr 0 []
  | cons {addr n line words lines} : TextLine debugLineLen line → DataLine line words → words.length ≤ 4 →
    dataBytes words = ByteMem.read mem addr (4 * words.length) → Dump mem (addr + 4 * words.length) n lines →
    Dump mem addr (words.length + n) (line :: lines)

/-- The words that `len` bytes are in. -/
def dumpWords (len : Nat) : Nat := (len + 3) / 4

def sentLines (lines : List (List Char)) : List Byte := lines.flatMap Text.toBytes

/-- An answer that breaks off: the words before the line that is not right, and that line. -/
structure Garbled where
  words : Nat
  line : List Char

/-- A shell in `Ready script` garbles the answers to the next `d` commands as the script says, as far as these have so
many words. After that it is stuck until a carriage return brings it back to its prompt. -/
structure DumpShell {τ : Type} (react : τ → Byte → τ × List Byte) (mem : Mem)
    (Ready Stuck : List (Option Garbled) → τ → Prop) : Prop where
  dumps {script t addr len} : Ready script t → 0 < len → addr + len ≤ 2 ^ 32 →
    (∀ g, script.head? = some (some g) → len ≤ 4 * g.words) → ∃ echo lines, EchoLine echo ∧
      Dump mem addr (dumpWords len) lines ∧
      (feed react t (dCommand addr len)).2 = Text.toBytes echo ++ (sentLines lines ++ debugShell) ∧
      Ready script.tail (feed react t (dCommand addr len)).1
  garbles {g script t addr len} : Ready (some g :: script) t → 4 * g.words < len → addr + len ≤ 2 ^ 32 →
    ∃ echo lines, EchoLine echo ∧ Dump mem addr g.words lines ∧
      (feed react t (dCommand addr len)).2 = Text.toBytes echo ++ (sentLines lines ++ Text.toBytes g.line) ∧
      Stuck script (feed react t (dCommand addr len)).1
  resyncs {script t} : Stuck script t → ∃ noise, (feed react t [13]).2 = noise ++ debugShell ∧
    Text.memmem debugShell (noise ++ debugShell) = some noise.length ∧ noise.length + debugShell.length ≤ 100 ∧
    Ready script (feed react t [13]).1

/-- `debug_parse_d` rejects the line. -/
def Rejected (errno : Option Errno) (line : List Char) : Prop := (debugParseD errno line 0 fun _ => 0).1 < 0

section
variable {errno : Option Errno} {line : List Char} {start : Nat} {buf : Mem}

/-- The result depends on neither the buffer nor the place in it. -/
theorem debugParseD_rc (errno : Option Errno) (line : List Char) (start : Nat) (buf : Mem) :
    (debugParseD errno line start buf).1 = (debugParseD errno line 0 fun _ => 0).1 := by
  rw [debugParseD, debugParseD]
  cases Text.strchr line ':' with
  | none => rfl
  | some eoa =>
    simp only
    rw [debugParseWords_rc (Nat.le_refl _), debugParseWords_rc (Nat.le_refl _)]
    simp only [Nat.add_sub_cancel_left]

end

section
variable {τ : Type} {react : τ → Byte → τ × List Byte} {blksize fuel turns ingress : Nat} {errno : Option Errno} {t : τ}
variable {rest : List Byte} {line : List Char} {words lines : List (List Char)} {s : DebugLines} {mem : Mem}
variable {addr n : Nat}

/-- A line of words is stored at the cursor. -/
theorem debugLinesTurn_data (blk : 0 < blksize) (some' : 0 < fuel) (text : TextLine debugLineLen line)
    (data : DataLine line words) : Total (At errno t (Text.toBytes line ++ rest))
      (debugLinesTurn (serialTty react blksize) fuel ingress s)
      fun r st => At errno t rest st ∧ r =
        let s' := ⟨s.consumed + 4 * words.length, s.cursor + 4 * words.length,
          ByteMem.write s.buf s.cursor (dataBytes words), some line⟩
        if s.consumed + 4 * words.length < ingress then .inl s' else .inr (true, s') := by
  refine (promptGets_at blk text some').bind fun output => ?_
  rintro st ⟨rfl, here⟩
  have parsed := @debugParseD_data line words errno s.cursor s.buf data
  have nonneg : ¬ (4 * (words.length : Int) < 0) := by omega
  have count : (4 * (words.length : Int)).toNat = 4 * words.length := by omega
  refine ⟨_, st, ?_, here, rfl⟩
  simp only [run_get_bind, here.errno, parsed, if_neg nonneg, count]
  split <;> rfl

/-- A rejected line leaves its bytes behind, and the shell is brought back to its prompt. -/
theorem debugLinesTurn_rejected {noise : List Byte} (blk : 0 < blksize) (enough : 100 < fuel)
    (text : TextLine debugLineLen line) (rejected : Rejected errno line)
    (resync : (feed react t [13]).2 = noise ++ debugShell)
    (first : Text.memmem debugShell (noise ++ debugShell) = some noise.length)
    (fits : noise.length + debugShell.length ≤ 100) :
    Total (At errno t (Text.toBytes line)) (debugLinesTurn (serialTty react blksize) fuel ingress s)
      fun r st => At errno (feed react t [13]).1 [] st ∧
        r = .inr (false, { s with buf := (debugParseD errno line s.cursor s.buf).2, line := some line }) := by
  have read := @promptGets_at τ react blksize fuel errno t [] line debugLineLen s.line blk text (by omega)
  rw [List.append_nil] at read
  refine read.bind fun output => ?_
  rintro st ⟨rfl, here⟩
  obtain ⟨rc, buf, parsed⟩ : ∃ rc buf, debugParseD errno line s.cursor s.buf = (rc, buf) := ⟨_, _, rfl⟩
  have negative : rc < 0 := by
    have same := debugParseD_rc errno line s.cursor s.buf
    rw [parsed] at same
    rw [show rc = _ from same]
    exact rejected
  have empty : st.buffer = [] := (List.append_eq_nil_iff.mp here.incoming).1
  simp only [run_get_bind, here.errno, parsed, if_pos negative]
  have runs := @promptRun_at τ react blksize fuel errno t [] [] [] (by simp only [List.length_nil]; omega)
  rw [Text.toBytes, List.map_nil, List.nil_append, resync, List.nil_append] at runs
  refine (runs.bind fun _ => (promptExpect_at enough first fits).bind fun _ => Total.pure fun st' back => ?_) st ⟨here, empty⟩
  exact ⟨back, rfl⟩

/-- Lines of words before the last are passed over. -/
theorem debugLines_front {Q : Bool × DebugLines → Stream (Serial τ) → Prop} {total : Nat} (blk : 0 < blksize)
    (some' : 0 < fuel) (dump : Dump mem addr n lines) (count : s.consumed + 4 * n < ingress) (sum : total = lines.length + turns)
    (next : ∀ line, Total (At errno t rest) (loop (debugLinesTurn (serialTty react blksize) fuel ingress) turns
      ⟨s.consumed + 4 * n, s.cursor + 4 * n, ByteMem.write s.buf s.cursor (ByteMem.read mem addr (4 * n)), line⟩) Q) :
    Total (At errno t (sentLines lines ++ rest))
      (loop (debugLinesTurn (serialTty react blksize) fuel ingress) total s) Q := by
  subst sum
  induction dump generalizing s with
  | nil addr =>
    have here := next s.line
    simp only [Nat.mul_zero, Nat.add_zero, ByteMem.read_zero, ByteMem.write_nil] at here
    simpa [sentLines] using here
  | @cons addr n line words lines text data four bytes dump ih =>
    have shape : sentLines (line :: lines) ++ rest = Text.toBytes line ++ (sentLines lines ++ rest) := by
      simp [sentLines]
    have turns' : (line :: lines).length + turns = (lines.length + turns) + 1 := by
      rw [List.length_cons]
      omega
    rw [shape, turns', Prog.loop]
    refine (debugLinesTurn_data blk some' text data).bind fun r => ?_
    rintro st ⟨here, rfl⟩
    simp only [if_pos (show s.consumed + 4 * words.length < ingress by omega)]
    refine ih (s := ⟨_, _, _, _⟩) ?_ (fun line => ?_) st here
    · show s.consumed + 4 * words.length + 4 * n < ingress
      omega
    · have there := next line
      have split : ByteMem.read mem addr (4 * (words.length + n)) =
          dataBytes words ++ ByteMem.read mem (addr + 4 * words.length) (4 * n) := by
        rw [bytes, Nat.mul_add, ByteMem.read_add]
      have length : (dataBytes words).length = 4 * words.length := by
        rw [bytes, ByteMem.read_length]
      rw [split, ByteMem.write_append, length, Nat.mul_add, ← Nat.add_assoc, ← Nat.add_assoc] at there
      exact there

theorem dump_length (dump : Dump mem addr n lines) : lines.length ≤ n ∧ (lines = [] → n = 0) := by
  induction dump with
  | nil => exact ⟨Nat.le_refl 0, fun _ => rfl⟩
  | cons _ data _ _ _ ih =>
    have := List.length_pos_iff.mpr (dataLine_nonempty data)
    refine ⟨?_, fun never => nomatch never⟩
    rw [List.length_cons]
    omega

/-- The whole answer is stored from the cursor on, the rest of its last word with it. -/
theorem debugLines_dump (blk : 0 < blksize) (some' : 0 < fuel) (dump : Dump mem addr n lines) (more : lines ≠ [])
    (covers : ingress ≤ s.consumed + 4 * n) (least : s.consumed + 4 * n < ingress + 4) (enough : lines.length ≤ turns) :
    Total (At errno t (sentLines lines ++ rest)) (loop (debugLinesTurn (serialTty react blksize) fuel ingress) turns s)
      fun r st => At errno t rest st ∧ ∃ line, r = (true, ⟨s.consumed + 4 * n, s.cursor + 4 * n,
        ByteMem.write s.buf s.cursor (ByteMem.read mem addr (4 * n)), line⟩) := by
  induction dump generalizing s turns with
  | nil => exact absurd rfl more
  | @cons addr n line words lines text data four bytes dump ih =>
    obtain ⟨turns, rfl⟩ : ∃ k, turns = k + 1 := ⟨turns - 1, by simp only [List.length_cons] at enough; omega⟩
    have shape : sentLines (line :: lines) ++ rest = Text.toBytes line ++ (sentLines lines ++ rest) := by
      simp [sentLines]
    have length : (dataBytes words).length = 4 * words.length := by
      rw [bytes, ByteMem.read_length]
    rw [shape, Prog.loop]
    refine (debugLinesTurn_data blk some' text data).bind fun r => ?_
    rintro st ⟨here, rfl⟩
    cases lines with
    | nil =>
      have last : n = 0 := (dump_length dump).2 rfl
      subst last
      simp only [if_neg (show ¬ s.consumed + 4 * words.length < ingress by omega)]
      refine ⟨_, st, rfl, by simpa [sentLines] using here, some line, ?_⟩
      rw [Nat.add_zero, bytes]
    | cons line' lines =>
      have more : 0 < n := by
        cases dump with
        | cons _ data' =>
          have := List.length_pos_iff.mpr (dataLine_nonempty data')
          omega
      simp only [if_pos (show s.consumed + 4 * words.length < ingress by omega)]
      have left : (line' :: lines).length ≤ turns := by
        simp only [List.length_cons] at enough ⊢
        omega
      obtain ⟨r, st', run, there, last, rfl⟩ := ih (s := ⟨s.consumed + 4 * words.length,
        s.cursor + 4 * words.length, ByteMem.write s.buf s.cursor (dataBytes words), some line⟩) (by simp)
        (by simp only; omega) (by simp only; omega) left st here
      refine ⟨_, st', run, there, last, ?_⟩
      have split : ByteMem.read mem addr (4 * (words.length + n)) =
          dataBytes words ++ ByteMem.read mem (addr + 4 * words.length) (4 * n) := by
        rw [bytes, Nat.mul_add, ByteMem.read_add]
      simp only
      rw [split, ByteMem.write_append, length, Nat.mul_add, ← Nat.add_assoc, ← Nat.add_assoc]

/-- The line of the echo is taken off. -/
theorem debugEcho_line {line : Option (List Char)} {first : List Char} (blk : 0 < blksize) (some' : 0 < fuel)
    (text : TextLine debugLineLen first) (other : first ≠ ['$', ' ', '\n']) :
    Total (At errno t (Text.toBytes first ++ rest)) (loop (debugEchoTurn (serialTty react blksize) fuel) fuel line)
      fun _ st => At errno t rest st := by
  obtain ⟨fuel, rfl⟩ : ∃ k, fuel = k + 1 := ⟨fuel - 1, by omega⟩
  rw [Prog.loop, debugEchoTurn, bind_assoc]
  refine (promptGets_at blk text some').bind fun output => ?_
  rintro st ⟨rfl, here⟩
  simp only [if_neg other]
  exact ⟨_, st, rfl, here⟩

/-- What is left over before a line is on one line with it. -/
theorem TextLine.behind {front echo : List Char} (short : front.length ≤ debugShell.length)
    (plain : ∀ c ∈ front, c ≠ '\n' ∧ c.toNat ≠ 0 ∧ c.toNat < 256)
    (text : TextLine (debugLineLen - debugShell.length) echo) : TextLine debugLineLen (front ++ echo) := by
  obtain ⟨⟨body, shape, fresh⟩, noNul, narrow, fits⟩ := text
  refine ⟨⟨front ++ body, by rw [shape, List.append_assoc], fun mem => ?_⟩, fun c mem => ?_, ?_, ?_⟩
  · rcases List.mem_append.mp mem with first | last
    · exact (plain _ first).1 rfl
    · exact fresh last
  · rcases List.mem_append.mp mem with first | last
    · exact (plain c first).2.1
    · exact noNul c last
  · exact Text.narrow_append.mpr ⟨fun c mem => (plain c mem).2.2, narrow⟩
  · have prompt : debugShell.length = 2 := rfl
    rw [List.length_append]
    omega

theorem EchoLine.behind {lead : List Byte} {echo : List Char} (prompt : lead = [] ∨ lead = debugShell)
    (echoed : EchoLine echo) : ∃ front, Text.toBytes front = lead ∧ TextLine debugLineLen (front ++ echo) ∧
      front ++ echo ≠ ['$', ' ', '\n'] := by
  rcases prompt with rfl | rfl
  · exact ⟨[], rfl, echoed.text.behind (Nat.zero_le _) fun _ never => (by cases never), echoed.noPrompt⟩
  · refine ⟨['$', ' '], rfl, echoed.text.behind (Nat.le_refl _) (by simp), fun same => ?_⟩
    exact echoed.some' (List.append_cancel_left same)

/-- The echo is taken off, with what is left of a prompt before it. -/
theorem debugEcho_at {lead : List Byte} {echo : List Char} {line : Option (List Char)} (blk : 0 < blksize) (some' : 0 < fuel)
    (prompt : lead = [] ∨ lead = debugShell) (echoed : EchoLine echo) :
    Total (At errno t (lead ++ (Text.toBytes echo ++ rest)))
      (loop (debugEchoTurn (serialTty react blksize) fuel) fuel line)
      fun _ st => At errno t rest st := by
  obtain ⟨front, rfl, text, other⟩ := echoed.behind prompt
  rw [← List.append_assoc, ← Text.toBytes_append]
  exact debugEcho_line blk some' text other

end

/-- The answer that breaks off, where it does before the end. -/
def garbledIn (script : List (Option Garbled)) (ingress : Nat) : Option Garbled :=
  script.head?.join.filter fun g => 4 * g.words < ingress

/-- What the answers leave in the buffer: the cursor stays where a garbled one has taken it. -/
def replay (errno : Option Errno) (mem : Mem) : List (Option Garbled) → (phys remaining cursor : Nat) → Mem → Mem
  | [], phys, remaining, cursor, buf => ByteMem.write buf cursor (ByteMem.read mem phys (4 * dumpWords remaining))
  | answer :: script, phys, remaining, cursor, buf =>
    if remaining = 0 then buf
    else
      match garbledIn [answer] (dIngress remaining) with
      | some g => replay errno mem script phys remaining (cursor + 4 * g.words)
          (debugParseD errno g.line (cursor + 4 * g.words)
            (ByteMem.write buf cursor (ByteMem.read mem phys (4 * g.words)))).2
      | none => replay errno mem script (phys + dIngress remaining) (remaining - dIngress remaining)
          (cursor + 4 * dumpWords (dIngress remaining))
          (ByteMem.write buf cursor (ByteMem.read mem phys (4 * dumpWords (dIngress remaining))))

/-- The commands ask for adjacent ranges, from `start` on. -/
def CommandsTile : Nat → Nat → List (Nat × Nat) → Prop
  | _, len, [] => len = 0
  | start, len, (addr, n) :: commands =>
    addr = start ∧ 0 < n ∧ n ≤ debugDMaxLen ∧ n ≤ len ∧ CommandsTile (start + n) (len - n) commands

section
variable {τ : Type} {react : τ → Byte → τ × List Byte} {blksize fuel turns : Nat} {errno : Option Errno} {t : τ}
variable {mem : Mem} {Ready Stuck : List (Option Garbled) → τ → Prop} {script : List (Option Garbled)} {s : DebugRead}
variable {lead : List Byte}

theorem dIngress_le (remaining : Nat) : dIngress remaining ≤ remaining ∧ dIngress remaining ≤ debugDMaxLen ∧
    (0 < remaining → 0 < dIngress remaining) ∧ (dIngress remaining < remaining → dIngress remaining % 4 = 0) := by
  have max : debugDMaxLen = 131072 := rfl
  rw [dIngress]
  split <;> omega

theorem garbledIn_cons {answer : Option Garbled} {ingress : Nat} (script : List (Option Garbled)) :
    garbledIn (answer :: script) ingress = garbledIn [answer] ingress := rfl

theorem garbledIn_some {ingress : Nat} {g : Garbled} (breaks : garbledIn script ingress = some g) :
    ∃ rest, script = some g :: rest ∧ 4 * g.words < ingress := by
  obtain ⟨head, early⟩ := Option.filter_eq_some_iff.mp breaks
  match script, head with
  | some _ :: rest, rfl => exact ⟨rest, rfl, of_decide_eq_true early⟩

theorem replay_zero (script : List (Option Garbled)) (phys cursor : Nat) (buf : Mem) :
    replay errno mem script phys 0 cursor buf = buf := by
  cases script with
  | nil => exact ByteMem.write_nil buf cursor
  | cons answer script => rfl

/-- Whole chunks fit together. -/
theorem replay_chunk (script : List (Option Garbled)) (phys remaining cursor : Nat) (buf : Mem)
    (clean : garbledIn script (dIngress remaining) = none) : replay errno mem script phys remaining cursor buf =
      replay errno mem script.tail (phys + dIngress remaining) (remaining - dIngress remaining)
        (cursor + 4 * dumpWords (dIngress remaining))
        (ByteMem.write buf cursor (ByteMem.read mem phys (4 * dumpWords (dIngress remaining)))) := by
  obtain ⟨le, small, pos, aligned⟩ := dIngress_le remaining
  cases script with
  | nil =>
    simp only [List.tail_nil, replay]
    by_cases last : dIngress remaining = remaining
    · have none : dumpWords (remaining - dIngress remaining) = 0 := by
        rw [last, Nat.sub_self]
        rfl
      rw [none, Nat.mul_zero, ByteMem.read_zero, ByteMem.write_nil, last]
    · have whole : 4 * dumpWords (dIngress remaining) = dIngress remaining := by
        have := aligned (by omega)
        rw [dumpWords]
        omega
      have sum : 4 * dumpWords remaining = dIngress remaining + 4 * dumpWords (remaining - dIngress remaining) := by
        have := aligned (by omega)
        simp only [dumpWords]
        omega
      have append := ByteMem.write_append buf cursor (ByteMem.read mem phys (dIngress remaining))
        (ByteMem.read mem (phys + dIngress remaining) (4 * dumpWords (remaining - dIngress remaining)))
      rw [ByteMem.read_length] at append
      rw [whole, sum, ByteMem.read_add, append]
  | cons answer script =>
    by_cases none : remaining = 0
    · subst none
      have zero : dIngress 0 = 0 := rfl
      rw [replay_zero, zero, List.tail_cons, Nat.sub_self, replay_zero]
      exact (ByteMem.write_nil buf cursor).symm
    · rw [garbledIn_cons] at clean
      rw [replay, if_neg none, clean]
      rfl

theorem dCommand_eq (phys : Word) (len : Nat) :
    Text.toBytes ('d' :: ' ' :: Text.hex phys.toNat ++ ' ' :: Text.hex len) ++ [13] = dCommand phys.toNat len := rfl

theorem dCommand_short (phys : Word) {len : Nat} (le : len ≤ debugDMaxLen) :
    ('d' :: ' ' :: Text.hex phys.toNat ++ ' ' :: Text.hex len).length ≤ 20 := by
  have max : debugDMaxLen < 16 ^ 8 := by decide
  have first : (Text.hex phys.toNat).length ≤ 8 := Text.hex_length (by decide) phys.isLt
  have second : (Text.hex len).length ≤ 8 := Text.hex_length (by decide) (by omega)
  simp only [List.length_append, List.length_cons]
  omega

/-- A `d` command that is answered with whole lines, on the first of which something may be left over. -/
theorem debugReadTurn_answered {addr : Nat} {front echo : List Char} {lines : List (List Char)} (blk : 0 < blksize)
    (enough : 2 ^ 16 ≤ fuel) (some' : 0 < s.remaining) (text : TextLine debugLineLen (front ++ echo))
    (other : front ++ echo ≠ ['$', ' ', '\n']) (dump : Dump mem addr (dumpWords (dIngress s.remaining)) lines)
    (answer : (feed react t (dCommand s.phys.toNat (dIngress s.remaining))).2 =
      Text.toBytes echo ++ (sentLines lines ++ debugShell)) :
    Total (At errno t (Text.toBytes front)) (debugReadTurn (serialTty react blksize) fuel s) fun r st =>
      At errno (feed react t (dCommand s.phys.toNat (dIngress s.remaining))).1 debugShell st ∧
      ∃ line, r = if s.remaining - dIngress s.remaining = 0
        then .inr (ByteMem.write s.buf s.cursor (ByteMem.read mem addr (4 * dumpWords (dIngress s.remaining))))
        else .inl ⟨s.phys + BitVec.ofNat 32 (dIngress s.remaining), s.remaining - dIngress s.remaining,
          s.cursor + 4 * dumpWords (dIngress s.remaining),
          ByteMem.write s.buf s.cursor (ByteMem.read mem addr (4 * dumpWords (dIngress s.remaining))), line⟩ := by
  obtain ⟨le, small, pos, _⟩ := dIngress_le s.remaining
  have short := dCommand_short s.phys small
  have max : debugDMaxLen = 131072 := rfl
  have few : lines.length ≤ dumpWords (dIngress s.remaining) := (dump_length dump).1
  have count : dIngress s.remaining ≤ 4 * dumpWords (dIngress s.remaining) ∧
      4 * dumpWords (dIngress s.remaining) < dIngress s.remaining + 4 := by
    rw [dumpWords]
    omega
  have more : lines ≠ [] := fun none => by
    have := (dump_length dump).2 none
    have := pos some'
    omega
  have sends := @promptRun_incoming τ react blksize fuel errno t (Text.toBytes front)
    ('d' :: ' ' :: Text.hex s.phys.toNat ++ ' ' :: Text.hex (dIngress s.remaining)) (by omega)
  rw [dCommand_eq, answer, ← List.append_assoc, ← Text.toBytes_append] at sends
  refine sends.bind fun _ => (debugEcho_line blk (by omega) text other).bind fun line => ?_
  refine (debugLines_dump blk (by omega) dump more (s := ⟨0, s.cursor, s.buf, line⟩) (by simp only; omega)
    (by simp only; omega) (by omega)).bind fun r => ?_
  rintro st ⟨here, line', rfl⟩
  refine ⟨_, st, ?_, here, line', rfl⟩
  by_cases done : s.remaining - dIngress s.remaining = 0
  · simp only [not_true, if_false, if_pos done]
    rfl
  · simp only [not_true, if_false, if_neg done]
    rfl

/-- A `d` command that is answered in full. -/
theorem debugReadTurn_dump (shell : DumpShell react mem Ready Stuck) (blk : 0 < blksize) (enough : 2 ^ 16 ≤ fuel)
    (ready : Ready script t) (prompt : lead = [] ∨ lead = debugShell) (some' : 0 < s.remaining)
    (inRange : s.phys.toNat + s.remaining ≤ 2 ^ 32) (clean : garbledIn script (dIngress s.remaining) = none) :
    Total (At errno t lead) (debugReadTurn (serialTty react blksize) fuel s) fun r st =>
      At errno (feed react t (dCommand s.phys.toNat (dIngress s.remaining))).1 debugShell st ∧
      Ready script.tail (feed react t (dCommand s.phys.toNat (dIngress s.remaining))).1 ∧
      ∃ line, r = if s.remaining - dIngress s.remaining = 0
        then .inr (ByteMem.write s.buf s.cursor (ByteMem.read mem s.phys.toNat (4 * dumpWords (dIngress s.remaining))))
        else .inl ⟨s.phys + BitVec.ofNat 32 (dIngress s.remaining), s.remaining - dIngress s.remaining,
          s.cursor + 4 * dumpWords (dIngress s.remaining),
          ByteMem.write s.buf s.cursor (ByteMem.read mem s.phys.toNat (4 * dumpWords (dIngress s.remaining))), line⟩ := by
  obtain ⟨le, small, pos, _⟩ := dIngress_le s.remaining
  have whole (g : Garbled) (head : script.head? = some (some g)) : dIngress s.remaining ≤ 4 * g.words := by
    by_contra less
    rw [garbledIn, head, Option.join_some, Option.filter_some, if_pos (decide_eq_true (by omega))] at clean
    cases clean
  have fits : s.phys.toNat + dIngress s.remaining ≤ 2 ^ 32 := by omega
  obtain ⟨echo, lines, echoed, dump, answer, ready'⟩ := shell.dumps ready (pos some') fits whole
  obtain ⟨front, rfl, text, other⟩ := echoed.behind prompt
  refine (debugReadTurn_answered blk enough some' text other dump answer).conseq (fun _ pre => pre) ?_
  rintro r st ⟨here, last⟩
  exact ⟨here, ready', last⟩

/-- A `d` command whose answer breaks off: only the cursor and the buffer have moved. -/
theorem debugReadTurn_garbled {g : Garbled} (shell : DumpShell react mem Ready Stuck) (blk : 0 < blksize)
    (enough : 2 ^ 16 ≤ fuel) (ready : Ready script t) (prompt : lead = [] ∨ lead = debugShell)
    (inRange : s.phys.toNat + s.remaining ≤ 2 ^ 32) (garbled : garbledIn script (dIngress s.remaining) = some g)
    (text : TextLine debugLineLen g.line) (rejected : Rejected errno g.line) :
    Total (At errno t lead) (debugReadTurn (serialTty react blksize) fuel s) fun r st =>
      ∃ t' line, At errno t' [] st ∧ Ready script.tail t' ∧
      r = .inl ⟨s.phys, s.remaining, s.cursor + 4 * g.words, (debugParseD errno g.line (s.cursor + 4 * g.words)
        (ByteMem.write s.buf s.cursor (ByteMem.read mem s.phys.toNat (4 * g.words)))).2, line⟩ := by
  obtain ⟨le, small, pos, _⟩ := dIngress_le s.remaining
  have fits : s.phys.toNat + dIngress s.remaining ≤ 2 ^ 32 := by omega
  obtain ⟨rest, rfl, early⟩ := garbledIn_some garbled
  obtain ⟨echo, lines, echoed, dump, answer, stuck⟩ := shell.garbles ready early fits
  obtain ⟨noise, resync, first, room, ready'⟩ := shell.resyncs stuck
  have short := dCommand_short s.phys small
  have max : debugDMaxLen = 131072 := rfl
  have few : lines.length ≤ g.words := (dump_length dump).1
  have sends := @promptRun_incoming τ react blksize fuel errno t lead
    ('d' :: ' ' :: Text.hex s.phys.toNat ++ ' ' :: Text.hex (dIngress s.remaining)) (by omega)
  rw [dCommand_eq, answer] at sends
  refine sends.bind fun _ => (debugEcho_at blk (by omega) prompt echoed).bind fun line => ?_
  obtain ⟨turns, sum⟩ : ∃ turns, fuel = lines.length + (turns + 1) := ⟨fuel - lines.length - 1, by omega⟩
  have reads : Total (At errno (feed react t (dCommand s.phys.toNat (dIngress s.remaining))).1
        (sentLines lines ++ Text.toBytes g.line))
      (loop (debugLinesTurn (serialTty react blksize) fuel (dIngress s.remaining)) fuel ⟨0, s.cursor, s.buf, line⟩)
      fun r st => At errno (feed react (feed react t (dCommand s.phys.toNat (dIngress s.remaining))).1 [13]).1 [] st ∧
        ∃ line, r = (false, ⟨0 + 4 * g.words, s.cursor + 4 * g.words, (debugParseD errno g.line (s.cursor + 4 * g.words)
          (ByteMem.write s.buf s.cursor (ByteMem.read mem s.phys.toNat (4 * g.words)))).2, line⟩) := by
    refine debugLines_front blk (by omega) dump (by simp only; omega) sum fun line => ?_
    rw [Prog.loop]
    refine (debugLinesTurn_rejected blk (by omega) text rejected resync first room).bind fun r => ?_
    rintro st ⟨here, rfl⟩
    exact ⟨_, st, rfl, here, some g.line, rfl⟩
  refine reads.bind fun r => ?_
  rintro st ⟨here, line', rfl⟩
  exact ⟨_, st, rfl, _, line', here, ready', rfl⟩

/-- Every line of the script is one that is read and rejected. -/
def Rejects (errno : Option Errno) (script : List (Option Garbled)) : Prop :=
  ∀ g, some g ∈ script → TextLine debugLineLen g.line ∧ Rejected errno g.line

/-- The reads end, and leave in the buffer what the script says. -/
theorem debugReadChunks_replay (shell : DumpShell react mem Ready Stuck) (blk : 0 < blksize) (enough : 2 ^ 16 ≤ fuel)
    (rejects : Rejects errno script) (ready : Ready script t) (prompt : lead = [] ∨ lead = debugShell)
    (some' : 0 < s.remaining) (inRange : s.phys.toNat + s.remaining ≤ 2 ^ 32)
    (count : script.length + s.remaining < turns) :
    Total (At errno t lead) (loop (debugReadTurn (serialTty react blksize) fuel) turns s) fun buf st =>
      buf = replay errno mem script s.phys.toNat s.remaining s.cursor s.buf ∧
      (script = [] → ∃ commands, st.dev.peer = (feed react t (commands.flatMap fun c => dCommand c.1 c.2)).1 ∧
        CommandsTile s.phys.toNat s.remaining commands) := by
  induction turns generalizing script t s lead with
  | zero => exact absurd count (Nat.not_lt_zero _)
  | succ turns ih =>
    obtain ⟨le, small, pos, aligned⟩ := dIngress_le s.remaining
    rw [Prog.loop]
    cases answer : garbledIn script (dIngress s.remaining) with
    | some g =>
      obtain ⟨rest, rfl, _⟩ := garbledIn_some answer
      obtain ⟨text, rejected⟩ := rejects g List.mem_cons_self
      refine (debugReadTurn_garbled shell blk enough ready prompt inRange answer text rejected).bind fun r => ?_
      rintro st ⟨t', line, here, ready', rfl⟩
      simp only [List.length_cons] at count
      obtain ⟨buf, st', run, last, _⟩ := ih (s := ⟨s.phys, s.remaining, _, _, line⟩) (fun g' mem => rejects g'
        (List.mem_cons_of_mem _ mem)) ready' (Or.inl rfl) some' inRange (by simp only; omega) st here
      refine ⟨buf, st', run, ?_, fun never => absurd never (List.cons_ne_nil _ _)⟩
      rw [garbledIn_cons] at answer
      rw [last, replay, if_neg (by omega), answer]
    | none =>
      refine (debugReadTurn_dump shell blk enough ready prompt some' inRange answer).bind fun r => ?_
      rintro st ⟨here, ready', line, rfl⟩
      rw [replay_chunk script _ _ _ _ answer]
      have fewer : script.tail.length ≤ script.length := by simp
      by_cases done : s.remaining - dIngress s.remaining = 0
      · simp only [if_pos done]
        refine ⟨_, st, rfl, by rw [done, replay_zero], fun _ => ⟨[(s.phys.toNat, dIngress s.remaining)], ?_, ?_⟩⟩
        · rw [here.peer, List.flatMap_singleton]
        · exact ⟨rfl, pos some', small, le, done⟩
      · have next : (s.phys + BitVec.ofNat 32 (dIngress s.remaining)).toNat = s.phys.toNat + dIngress s.remaining :=
          Word.toNat_add_ofNat (by omega)
        have inRange' : (s.phys + BitVec.ofNat 32 (dIngress s.remaining)).toNat + (s.remaining - dIngress s.remaining) ≤
            2 ^ 32 := by
          rw [next]
          omega
        have fewer' : script.tail.length + (s.remaining - dIngress s.remaining) < turns := by
          have := pos some'
          omega
        simp only [if_neg done]
        obtain ⟨buf, st', run, last, sent⟩ := ih (s := ⟨_, _, _, _, line⟩) (fun g mem => rejects g
          (List.mem_of_mem_tail mem)) ready' (Or.inr rfl) (Nat.pos_of_ne_zero done) inRange' fewer' st here
        rw [next] at last sent
        refine ⟨buf, st', run, last, fun none => ?_⟩
        subst none
        obtain ⟨commands, peer, tiles⟩ := sent rfl
        refine ⟨(s.phys.toNat, dIngress s.remaining) :: commands, ?_, rfl, pos some', small, le, tiles⟩
        rw [peer, List.flatMap_cons, feed_append]

end

end Culvert
