import Culvert.Ahb
import Culvert.Lib.Scan

namespace Culvert

/-- The calls on the descriptor of a serial port, and how much `stdio` asks it for at a time. -/
structure Tty (σ : Type) where
  read : Nat → Prog σ (List Byte)
  write : List Byte → Prog σ Nat
  blksize : Nat

/-- A `FILE *` on a serial port, with what it has read ahead, and `errno`. -/
structure Stream (σ : Type) where
  dev : σ
  buffer : List Byte
  errno : Option Errno

/-- `struct prompt` less its stream. -/
structure Prompt where
  eol : List Char
  haveEcho : Bool

section
variable {σ α : Type} (tty : Tty σ)

/-- A call that sets `errno` where it fails. -/
def sys (m : Prog σ α) : Prog (Stream σ) α := fun s =>
  match m s.dev with
  | .ok a d => .ok a { s with dev := d }
  | .error (.rc e) d => .error (.rc e) { s with dev := d, errno := some e }
  | .error stop d => .error stop { s with dev := d }

/-- `return -errno;`, which is 0 as long as nothing has failed: then the caller goes on with `a`. -/
def minusErrno (a : α) : Prog (Stream σ) α := do
  match (← get).errno with
  | none => return a
  | some e => Prog.fail e

def setErrno (e : Option Errno) : Prog (Stream σ) Unit := modify fun s => { s with errno := e }

def getc : Prog (Stream σ) (Option Byte) := do
  match (← get).buffer with
  | b :: rest => do
    modify fun s => { s with buffer := rest }
    return some b
  | [] => do
    match ← sys (tty.read tty.blksize) with
    | b :: rest => do
      modify fun s => { s with buffer := rest }
      return some b
    | [] => return none

/-- `fgets` with room for so many bytes and a terminator. It returns `NULL` where this is empty. -/
def fgets : Nat → Prog (Stream σ) (List Byte)
  | 0 => return []
  | room + 1 => do
    match ← getc tty with
    | none => return []
    | some b => do
      if b = 10 then return [b]
      let rest ← fgets room
      return b :: rest

/-- One `fgets` behind the string that is in `output`, if there is one yet. Each is given all of `len`. -/
def promptGetsTurn (len : Nat) (old : Option (List Char)) (output : Option (List Char)) :
    Prog (Stream σ) (Option (List Char) ⊕ Option (List Char)) := do
  let chunk ← fgets tty (len - 1)
  if chunk = [] then
    let output ← minusErrno (output.or old)
    return .inr output
  let prior := output.getD []
  if prior.length + chunk.length + 1 > len then throw .fault
  let output := prior ++ Text.cString (Text.ofBytes chunk)
  if '\n' ∈ output then return .inr (some output) else return .inl (some output)

/-- What is in `output` afterwards, `old` being what was before; `none` stands for no string. -/
def promptGets (fuel len : Nat) (old : Option (List Char)) : Prog (Stream σ) (Option (List Char)) :=
  Prog.loop (promptGetsTurn tty len old) fuel none

/-- What was read into `prior`, and where `str` is in it. -/
def promptExpectIntoTurn (str : List Byte) (len : Nat) (prior : List Byte) :
    Prog (Stream σ) (List Byte ⊕ (List Byte × Option Nat)) := do
  let ingress ← sys (tty.read (len - prior.length))
  let prior := prior ++ ingress
  match Text.memmem str prior with
  | some p => return .inr (prior, some p)
  | none => if prior.length < len then return .inl prior else return .inr (prior, none)

def promptExpectInto (fuel : Nat) (str : List Byte) (len : Nat) : Prog (Stream σ) (List Byte × Option Nat) :=
  Prog.loop (promptExpectIntoTurn tty str len) fuel []

def promptExpectTurn (fuel : Nat) (str : List Byte) (_ : Unit) : Prog (Stream σ) (Unit ⊕ Unit) := do
  let (_, res) ← promptExpectInto tty fuel str 100
  match res with
  | none => return .inl ()
  | some _ => return .inr ()

def promptExpect (fuel : Nat) (str : List Byte) : Prog (Stream σ) Unit :=
  Prog.loop (promptExpectTurn tty fuel str) fuel ()

def promptWriteTurn (cursor : List Byte) : Prog (Stream σ) (List Byte ⊕ Unit) := do
  let egress ← sys (tty.write cursor)
  let cursor := cursor.drop egress
  if cursor = [] then return .inr () else return .inl cursor

/-- `write` is called once at least. -/
def promptWrite (fuel : Nat) (buf : List Byte) : Prog (Stream σ) Unit :=
  Prog.loop (promptWriteTurn tty) fuel buf

def promptReadTurn (len : Nat) (output : List Byte) : Prog (Stream σ) (List Byte ⊕ List Byte) := do
  let ingress ← sys (tty.read (len - output.length))
  let output := output ++ ingress
  if output.length < len then return .inl output else return .inr output

/-- What is stored in `output`. `read` is called once at least. -/
def promptRead (fuel len : Nat) : Prog (Stream σ) (List Byte) :=
  Prog.loop (promptReadTurn tty len) fuel []

def promptRun (fuel : Nat) (ctx : Prompt) (cmd : List Char) : Prog (Stream σ) Unit := do
  promptWrite tty fuel (Text.toBytes cmd)
  promptWrite tty fuel (Text.toBytes ctx.eol)
  if ctx.haveEcho then
    let res ← fgets tty (cmd.length + ctx.eol.length)
    if res = [] then minusErrno ()

def promptRunExpect (fuel : Nat) (ctx : Prompt) (cmd : List Char) (prompt : List Byte) (len : Nat) :
    Prog (Stream σ) (List Byte × Option Nat) := do
  promptRun tty fuel ctx cmd
  promptExpectInto tty fuel prompt len

end

end Culvert
