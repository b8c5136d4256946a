import Culvert.Lib.Fd
import Culvert.Lib.Run
import Culvert.Lib.Total
import Culvert.Soc.Jtag

namespace Culvert
open Prog Bitbang

/-- The controller, what the client sends, and what it gets. -/
structure JtagClient (σ : Type) where
  soc : Faulty σ
  rx : Fd
  tx : Fd

namespace JtagClient
variable {σ α : Type}

def onSoc (m : Prog (Faulty σ) α) : Prog (JtagClient σ) α := zoom (fun s => s.soc) (fun s soc => { s with soc := soc }) m

def onRx (m : Prog Fd α) : Prog (JtagClient σ) α := zoom (fun s => s.rx) (fun s rx => { s with rx := rx }) m

def onTx (m : Prog Fd α) : Prog (JtagClient σ) α := zoom (fun s => s.tx) (fun s tx => { s with tx := tx }) m

end JtagClient

/-- Why the server is done with a client. -/
inductive BitbangEnd where
  | closed
  | quit
  | failed
  deriving DecidableEq, Repr

/-- A write to a client that is gone raises `SIGPIPE`, too. -/
def epipe : Errno := ⟨32, by decide, by decide⟩

/-- The letter as it is sent. -/
def letter (c : Char) : Byte := BitVec.ofNat 8 c.toNat

section
variable {σ : Type} (bus : Bus σ) (start : Word)

open JtagClient

/-- The switch over the command. `SIGPIPE` kills the process. -/
def bitbangCommand (command : Byte) : Prog (JtagClient σ) (Unit ⊕ BitbangEnd) :=
  if command = letter 'B' ∨ command = letter 'b' then return .inl ()
  else if command = letter 'R' then do
    match ← attempt (onSoc (jtagBitbangGet bus start)) with
    | .error _ => return .inr .failed
    | .ok tdo =>
      match ← attempt (onTx (Fd.write [tdo + letter '0'])) with
      | .error e => if e = epipe then throw .fault else return .inr .failed
      | .ok _ => return .inl ()
  else if command = letter 'Q' then return .inr .quit
  else if letter '0' ≤ command ∧ command ≤ letter '7' then do
    let state := command - letter '0'
    match ← attempt (onSoc (jtagBitbangSet bus start (state &&& 4) (state &&& 2) (state &&& 1))) with
    | .error _ => return .inr .failed
    | .ok () => return .inl ()
  else return .inl ()

def bitbangTurn (_ : Unit) : Prog (JtagClient σ) (Unit ⊕ BitbangEnd) := do
  match ← attempt (onRx (Fd.read 1)) with
  | .error _ | .ok [] => return .inr .closed
  | .ok (command :: _) => bitbangCommand bus start command

def bitbangClient (fuel : Nat) : Prog (JtagClient σ) BitbangEnd := loop (bitbangTurn bus start) fuel ()

end

/-- The server: the controller, the outcome of the calls on sockets, the connections that `accept` will give one after
the other, each with what its client sends and how it takes what it gets, the one that is served, and how many sockets
and connections are open. A client left in the backlog of a listener that is closed is none of them. -/
structure JtagServer (σ : Type) where
  soc : Faulty σ
  sockets : Nat → Option Errno
  calls : Nat
  waiting : List (Fd × (Nat → Except Errno Nat))
  client : Fd × Fd
  servers : Nat
  connections : Nat

namespace JtagServer
variable {σ α : Type}

def onClient (m : Prog (JtagClient σ) α) : Prog (JtagServer σ) α :=
  zoom (fun s => ⟨s.soc, s.client.1, s.client.2⟩) (fun s c => { s with soc := c.soc, client := (c.rx, c.tx) }) m

/-- `socket`, `bind`, `listen` or `accept`. -/
def socketCall : Prog (JtagServer σ) Unit := fun s =>
  match s.sockets s.calls with
  | some e => .error (.rc e) { s with calls := s.calls + 1 }
  | none => .ok () { s with calls := s.calls + 1 }

/-- It waits for a connection. -/
def acceptClient : Prog (JtagServer σ) Unit := do
  socketCall
  match (← get).waiting with
  | [] => throw .hang
  | (sends, takes) :: rest =>
    modify fun s => { s with client := (sends, ⟨[], takes, 0⟩), waiting := rest, connections := s.connections + 1 }

def openServer : Prog (JtagServer σ) Unit := do
  socketCall
  modify fun s => { s with servers := s.servers + 1 }
  socketCall
  socketCall
  acceptClient

end JtagServer

open JtagServer in
/-- `run_openocd_bitbang_server`. Its loop around `accept` does not come round. -/
def runOpenocdBitbangServer {σ : Type} (bus : Bus σ) (start : Word) (fuel : Nat) : Prog (JtagServer σ) Nat := do
  match ← attempt openServer with
  | .error _ => return 1
  | .ok () => do
    match ← onClient (bitbangClient bus start fuel) with
    | .closed => modify fun s => { s with servers := s.servers - 1 }
    | .quit => modify fun s => { s with servers := s.servers - 1, connections := s.connections - 1 }
    | .failed => pure ()
    return 1

/-! What a client asks for. -/

/-- The digits have the level of TCK, TMS and TDI as their bits. -/
def remoteCommand (b : Byte) : Command :=
  if letter '0' ≤ b ∧ b ≤ letter '7' then .drive (b.getLsbD 2) (b.getLsbD 1) (b.getLsbD 0)
  else if b = letter 'R' then .sample
  else .other

/-- The answer to an `R`. -/
def levelDigit (level : Bool) : Byte := if level then letter '1' else letter '0'

section
variable {σ π : Type} {bus : Bus σ} {start : Word} {pins : Pins π} {view : σ → π} {s s' s₁ : JtagClient σ}
variable {b : Byte} {played played' : List Byte} {fuel : Nat}

/-- The bytes `played` have come from the client and been carried out, and `s'` is left. -/
structure Plays (pins : Pins π) (view : σ → π) (played : List Byte) (s s' : JtagClient σ) : Prop where
  rx : s.rx.bytes = played ++ s'.rx.bytes
  tx : s'.tx.bytes = s.tx.bytes ++ (play pins (played.map remoteCommand) (view s.soc.dev)).1.map levelDigit
  dev : view s'.soc.dev = (play pins (played.map remoteCommand) (view s.soc.dev)).2
  fails : s'.soc.fails = s.soc.fails
  reads : s'.rx.answers = s.rx.answers
  writes : s'.tx.answers = s.tx.answers

theorem Plays.trans (first : Plays pins view played s s₁) (second : Plays pins view played' s₁ s') :
    Plays pins view (played ++ played') s s' where
  rx := by rw [first.rx, second.rx, List.append_assoc]
  tx := by rw [second.tx, first.tx, first.dev, List.map_append, play_append, List.map_append, List.append_assoc]
  dev := by rw [second.dev, first.dev, List.map_append, play_append]
  fails := second.fails.trans first.fails
  reads := second.reads.trans first.reads
  writes := second.writes.trans first.writes

theorem Plays.refl (s : JtagClient σ) : Plays pins view [] s s := ⟨rfl, by simp [play], rfl, rfl, rfl, rfl⟩

open JtagClient

end

/-! Sessions, one after the other. -/

/-- What a client has sent, what of it was not read, and what the client has got. -/
structure JtagSession where
  accepted : Bool
  sent : List Byte
  unread : List Byte
  got : List Byte

section
variable {σ π : Type} {bus : Bus σ} {start : Word} {pins : Pins π} {view : σ → π} {s s' : JtagServer σ} {fuel : Nat}

/-- A turn of the loop in `do_jtag`. -/
def JtagStep (bus : Bus σ) (start : Word) (fuel : Nat) (s : JtagServer σ) (e : JtagSession) (s' : JtagServer σ) : Prop :=
  (runOpenocdBitbangServer bus start fuel).run s = .ok 1 s' ∧
    (s'.waiting = s.waiting ∧ e = ⟨false, [], [], []⟩ ∨ ∃ client, s.waiting = client :: s'.waiting ∧
      e = ⟨true, client.1.bytes, s'.client.1.bytes, s'.client.2.bytes⟩)

/-- Nothing fails. -/
structure JtagServer.Calm (s : JtagServer σ) : Prop where
  sound : s.soc.Sound
  sockets : ∀ n, s.sockets n = none
  clients : ∀ client ∈ s.waiting, client.1.Works ∧ ∀ n, ∃ k, client.2 n = .ok k

namespace JtagServer

/-- The next client has been accepted. -/
structure Accepted (s s' : JtagServer σ) (client : Fd × (Nat → Except Errno Nat)) : Prop where
  soc : s'.soc = s.soc
  sockets : s'.sockets = s.sockets
  waiting : s.waiting = client :: s'.waiting
  client : s'.client = (client.1, ⟨[], client.2, 0⟩)
  connections : s'.connections = s.connections + 1

end JtagServer

/-- A session is what the server makes of its state. -/
theorem JtagStep.unique {e e' : JtagSession} {s₁ : JtagServer σ} (first : JtagStep bus start fuel s e s')
    (second : JtagStep bus start fuel s e' s₁) : e = e' ∧ s' = s₁ := by
  obtain ⟨run, is⟩ := first
  obtain ⟨run', is'⟩ := second
  rw [run] at run'
  cases run'
  refine ⟨?_, rfl⟩
  have longer {client : Fd × (Nat → Except Errno Nat)} (same : s'.waiting = s.waiting)
      (more : s.waiting = client :: s'.waiting) : False := by
    have length := congrArg List.length more
    rw [same, List.length_cons] at length
    omega
  rcases is with ⟨same, rfl⟩ | ⟨client, more, rfl⟩
  · rcases is' with ⟨_, rfl⟩ | ⟨_, more, _⟩
    · rfl
    · exact (longer same more).elim
  · rcases is' with ⟨same, _⟩ | ⟨client', more', rfl⟩
    · exact (longer same more).elim
    · rw [more] at more'
      cases more'
      rfl

end

end Culvert
