import Culvert.Bridge.Prompt

namespace Culvert

def ebade : Errno := ⟨52, by decide, by decide⟩

/-- The prompt of a `struct debug`, as `debug_init_v` sets it up. -/
def debugPrompt : Prompt where
  eol := ['\r']
  haveEcho := false

/-- `"$ "`. -/
def debugShell : List Byte := Text.toBytes ['$', ' ']

/-- `&cursor[3], &cursor[2], &cursor[1], &cursor[0]`: where the bytes that `sscanf` got are put. -/
def storeScanned (buf : Mem) (cursor : Nat) (got : List Byte) : Mem :=
  got.zipIdx.foldl (fun m (b, i) => ByteMem.write m (cursor + 3 - i) [b]) buf

/-- `while ((token = strtok_r(words, " ", &saveptr)))`: the result, and what is in `buf`. -/
def debugParseWords (errno : Option Errno) (start : Nat) : List (List Char) → Nat → Mem → Int × Mem
  | [], cursor, buf => ((cursor - start : Nat), buf)
  | token :: words, cursor, buf =>
    let (got, ended) := Text.scanBytes 4 token
    let buf := storeScanned buf cursor got
    if ended then ((errno.map Errno.code).getD 0, buf)
    else if got.length < 4 then (ebade.code, buf)
    else debugParseWords errno start words (cursor + 4) buf

/-- The words of `line` are stored from `start` on. -/
def debugParseD (errno : Option Errno) (line : List Char) (start : Nat) (buf : Mem) : Int × Mem :=
  match Text.strchr line ':' with
  | none => (ebade.code, buf)
  | some eoa => debugParseWords errno start (Text.tokens ' ' eoa.tail) start buf

section
variable {σ : Type} (tty : Tty σ)

def debugReadFixed (fuel : Nat) (mode : Char) (phys : Word) : Prog (Stream σ) Word := do
  if ¬ (mode = 'i' ∨ mode = 'r') then Prog.fail einval
  let command := mode :: ' ' :: Text.hex phys.toNat
  match ← promptRunExpect tty fuel debugPrompt command debugShell 100 with
  -- The prompt was not found: *prompt = '\0' with a null pointer.
  | (_, none) => throw .fault
  | (buf, some prompt) => do
    match (debugPrompt.eol.head?).bind (Text.strchr (Text.cString (Text.ofBytes (buf.take prompt)))) with
    | none => Prog.fail eio
    | some response => do
      setErrno none
      let (parsed, _) := Text.strtoul 16 response
      if Text.strtoulRange 16 response ∧ parsed = 2 ^ 64 - 1 then do
        setErrno (some erange)
        Prog.fail erange
      return BitVec.ofNat 32 parsed

/-- `DEBUG_D_MAX_LEN`. -/
def debugDMaxLen : Nat := 128 * 1024

/-- How much a `d` command asks for. -/
def dIngress (remaining : Nat) : Nat := if remaining > debugDMaxLen then debugDMaxLen else remaining

/-- `sizeof(line)` in `debug_read`. -/
def debugLineLen : Nat := 2 * 47

/-- `debug_read` of less than four bytes: those left to read, and the buffer. -/
def debugReadBytesTurn (fuel len : Nat) (s : Nat × Word × Mem) : Prog (Stream σ) (Nat × Word × Mem ⊕ Mem) := do
  let (remaining, phys, buf) := s
  if remaining = 0 then return .inr buf
  let val ← debugReadFixed tty fuel 'i' phys
  return .inl (remaining - 1, phys + 1, ByteMem.write buf (len - remaining) [val.byte 0])

/-- The lines of an answer: how much of it has been parsed, and the cursor, the buffer and the last line. -/
structure DebugLines where
  consumed : Nat
  cursor : Nat
  buf : Mem
  line : Option (List Char)

/-- `do { ... } while (!strcmp("$ \n", line));` -/
def debugEchoTurn (fuel : Nat) (line : Option (List Char)) : Prog (Stream σ) (Option (List Char) ⊕ Option (List Char)) := do
  let line ← promptGets tty fuel debugLineLen line
  match line with
  | none => throw .fault
  | some text => if text = ['$', ' ', '\n'] then return .inl line else return .inr line

/-- One line. When it is rejected the shell is brought back to its prompt; the answer is then `false`. -/
def debugLinesTurn (fuel ingress : Nat) (s : DebugLines) : Prog (Stream σ) (DebugLines ⊕ (Bool × DebugLines)) := do
  let line ← promptGets tty fuel debugLineLen s.line
  match line with
  | none => throw .fault
  | some text => do
    let (rc, buf) := debugParseD (← get).errno text s.cursor s.buf
    if rc < 0 then do
      promptRun tty fuel debugPrompt []
      promptExpect tty fuel debugShell
      return .inr (false, { s with buf, line })
    let s := { consumed := s.consumed + rc.toNat, cursor := s.cursor + rc.toNat, buf, line : DebugLines }
    if s.consumed < ingress then return .inl s else return .inr (true, s)

/-- Where `debug_read` is between two `d` commands. -/
structure DebugRead where
  phys : Word
  remaining : Nat
  cursor : Nat
  buf : Mem
  line : Option (List Char)

/-- A `d` command and its answer. `goto retry` is the next turn with only the cursor, the buffer and the line
moved on. -/
def debugReadTurn (fuel : Nat) (s : DebugRead) : Prog (Stream σ) (DebugRead ⊕ Mem) := do
  let ingress := dIngress s.remaining
  promptRun tty fuel debugPrompt ('d' :: ' ' :: Text.hex s.phys.toNat ++ ' ' :: Text.hex ingress)
  let line ← Prog.loop (debugEchoTurn tty fuel) fuel s.line
  let (parsed, lines) ← Prog.loop (debugLinesTurn tty fuel ingress) fuel ⟨0, s.cursor, s.buf, line⟩
  if ¬ parsed then return .inl { s with cursor := lines.cursor, buf := lines.buf, line := lines.line }
  let remaining := s.remaining - ingress
  if remaining = 0 then return .inr lines.buf
  return .inl ⟨s.phys + BitVec.ofNat 32 ingress, remaining, lines.cursor, lines.buf, lines.line⟩

/-- `debug_read`: what is returned, and what is in `buf` and behind it. -/
def debugRead (fuel : Nat) (phys : Word) (buf : Mem) (len : Nat) : Prog (Stream σ) (Nat × Mem) := orMinusOne do
  if len > ssizeMax then Prog.fail eperm
  if len < 4 then do
    let buf ← Prog.loop (debugReadBytesTurn tty fuel len) fuel (len, phys, buf)
    return (len, buf)
  let buf ← Prog.loop (debugReadTurn tty fuel) fuel ⟨phys, len, 0, buf, none⟩
  return (len, buf)

/-- `DEBUG_CMD_U_MAX`. -/
def debugCmdUMax : Nat := 128

/-- An `o` command for the next byte. Unlike everything else an error of its `prompt_expect` is returned as it is. -/
def debugWriteByteTurn (fuel : Nat) (s : Word × List Byte) : Prog (Stream σ) (Word × List Byte ⊕ Unit) := do
  match s with
  | (_, []) => return .inr ()
  | (phys, b :: cursor) => do
    orMinusOne (promptRun tty fuel debugPrompt ('o' :: ' ' :: Text.hex phys.toNat ++ ' ' :: Text.hex b.toNat))
    promptExpect tty fuel debugShell
    return .inl (phys + 1, cursor)

/-- A `u` command and its bytes. -/
def debugWriteTurn (fuel : Nat) (s : Word × List Byte) : Prog (Stream σ) (Word × List Byte ⊕ Unit) := do
  let (phys, cursor) := s
  let egress := if cursor.length > debugCmdUMax then debugCmdUMax else cursor.length
  promptRun tty fuel debugPrompt ('u' :: ' ' :: Text.hex phys.toNat ++ ' ' :: Text.hex egress)
  promptWrite tty fuel (cursor.take egress)
  promptExpect tty fuel debugShell
  let cursor := cursor.drop egress
  if cursor = [] then return .inr () else return .inl (phys + BitVec.ofNat 32 egress, cursor)

def debugWrite (fuel : Nat) (phys : Word) (buf : List Byte) : Prog (Stream σ) Nat := do
  if buf.length > ssizeMax then Prog.fail eperm
  if buf.length ≤ 4 then do
    Prog.loop (debugWriteByteTurn tty fuel) fuel (phys, buf)
    return buf.length
  orMinusOne (Prog.loop (debugWriteTurn tty fuel) fuel (phys, buf))
  return buf.length

def debugReadl (fuel : Nat) (phys : Word) : Prog (Stream σ) Word := debugReadFixed tty fuel 'r' phys

/-- The reload register of a watchdog gives no prompt when it is cleared. -/
def debugWritel (fuel : Nat) (phys val : Word) : Prog (Stream σ) Unit := do
  promptRun tty fuel debugPrompt ('w' :: ' ' :: Text.hex phys.toNat ++ ' ' :: Text.hex val.toNat)
  if ¬ (phys &&& ~~~0x20 = 0x1e785004 ∧ val = 0) then
    promptExpect tty fuel debugShell

end

end Culvert
