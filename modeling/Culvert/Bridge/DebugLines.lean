import Culvert.Bridge.DebugParse
import Culvert.Bridge.Serial
import Culvert.Lib.Total

/-! Lines read through `stdio` from a port that cuts up what it carries as it likes. -/

namespace Culvert
open Prog

/-- A line that `prompt_gets` takes in whole. -/
structure TextLine (len : Nat) (line : List Char) : Prop where
  ends : ∃ body, line = body ++ ['\n'] ∧ '\n' ∉ body
  noNul : ∀ c ∈ line, c.toNat ≠ 0
  narrow : Text.Narrow line
  fits : line.length < len

section
variable {τ : Type}

/-- The peer is in `t`, no call fails, and these are the bytes to come, read ahead or not. -/
structure At (errno : Option Errno) (t : τ) (incoming : List Byte) (s : Stream (Serial τ)) : Prop where
  peer : s.dev.peer = t
  works : s.dev.Works
  errno : s.errno = errno
  incoming : s.buffer ++ s.dev.out = incoming

variable {react : τ → Byte → τ × List Byte} {blksize fuel : Nat} {errno : Option Errno} {t : τ}
variable {rest incoming : List Byte} {line : List Char} {b : Byte}

theorem sys_read_at {count : Nat} {out : List Byte} {s : Stream (Serial τ)} (pos : 0 < count) (some' : out ≠ [])
    (start : At errno t out s) (empty : s.buffer = []) :
    ∃ bs s', (sys ((serialTty react blksize).read count)).run s = .ok bs s' ∧
      bs ≠ [] ∧ s'.buffer = [] ∧ s'.dev.peer = t ∧ s'.dev.Works ∧ s'.errno = errno ∧ bs ++ s'.dev.out = out := by
  have out' := start.incoming
  rw [empty, List.nil_append] at out'
  rcases @sys_read τ react blksize s count pos with ⟨bs, s', run, more, _, moved⟩ | ⟨none, _⟩ | ⟨broken, _⟩
  · exact ⟨bs, s', run, more, moved.buffer.trans empty, moved.peer.trans start.peer, moved.works start.works,
      moved.errno.trans start.errno, moved.prior.trans out'⟩
  · exact absurd (out'.symm.trans none) some'
  · exact absurd start.works broken

theorem getc_at (blk : 0 < blksize) : Total (At errno t (b :: rest)) (getc (serialTty react blksize))
    fun c s => c = some b ∧ At errno t rest s := by
  refine Total.get fun s start => ?_
  rintro s rfl
  have incoming := start.incoming
  cases ahead : s.buffer with
  | cons b' buffer =>
    rw [ahead, List.cons_append] at incoming
    obtain ⟨rfl, rfl⟩ := List.cons.inj incoming
    exact ⟨some b', { s with buffer := buffer }, rfl, rfl, start.peer, start.works, start.errno, rfl⟩
  | nil =>
    obtain ⟨bs, s', run, more, empty, peer, works, errno, out⟩ :=
      @sys_read_at τ react blksize errno t blksize (b :: rest) s blk (by simp) start ahead
    obtain ⟨b', buffer, rfl⟩ := List.exists_cons_of_ne_nil more
    obtain ⟨rfl, rfl⟩ := List.cons.inj out
    refine ⟨some b', { s' with buffer := buffer }, ?_, rfl, peer, works, errno, rfl⟩
    show EStateM.run (sys ((serialTty react blksize).read blksize) >>= _) s = _
    rw [run_bind_ok run]
    rfl

theorem fgets_at {room : Nat} {body : List Byte} (blk : 0 < blksize) (fresh : 10 ∉ body) (fits : body.length < room) :
    Total (At errno t (body ++ 10 :: rest)) (fgets (serialTty react blksize) room)
      fun chunk s => chunk = body ++ [10] ∧ At errno t rest s := by
  induction room generalizing body with
  | zero => exact absurd fits (Nat.not_lt_zero _)
  | succ room ih =>
    cases body with
    | nil =>
      refine (getc_at blk).bind fun c => ?_
      rintro s ⟨rfl, here⟩
      exact ⟨[10], s, rfl, rfl, here⟩
    | cons b body =>
      rw [List.mem_cons, not_or] at fresh
      refine (getc_at blk).bind fun c => ?_
      rintro s ⟨rfl, here⟩
      obtain ⟨chunk, s', run, rfl, there⟩ := ih fresh.2 (by simpa using fits) s here
      refine ⟨b :: (body ++ [10]), s', ?_, rfl, there⟩
      simp only [if_neg (Ne.symm fresh.1)]
      rw [run_bind_ok run]
      rfl

theorem promptGets_at {len : Nat} {old : Option (List Char)} (blk : 0 < blksize) (text : TextLine len line) (some' : 0 < fuel) :
    Total (At errno t (Text.toBytes line ++ rest)) (promptGets (serialTty react blksize) fuel len old)
      fun output s => output = some line ∧ At errno t rest s := by
  obtain ⟨⟨body, rfl, fresh⟩, noNul, narrow, fits⟩ := text
  obtain ⟨fuel, rfl⟩ : ∃ k, fuel = k + 1 := ⟨fuel - 1, by omega⟩
  have bytes : Text.toBytes (body ++ ['\n']) = Text.toBytes body ++ [10] := Text.toBytes_append body ['\n']
  have small : Text.Narrow body := fun c mem => narrow c (List.mem_append_left _ mem)
  have fresh' : (10 : Byte) ∉ Text.toBytes body := Text.not_mem_toBytes (c := '\n') small (by decide) fresh
  have length : (Text.toBytes body).length = body.length := List.length_map _
  rw [List.length_append, List.length_singleton] at fits
  have whole : Text.cString (Text.ofBytes (Text.toBytes body ++ [10])) = body ++ ['\n'] := by
    rw [← bytes, Text.ofBytes_toBytes narrow, Text.cString]
    exact List.takeWhile_eq_self_iff.mpr fun c mem => decide_eq_true (noNul c mem)
  rw [bytes, List.append_assoc]
  rw [promptGets, Prog.loop, promptGetsTurn, bind_assoc]
  refine (@fgets_at τ react blksize errno t rest (len - 1) (Text.toBytes body) blk fresh' (by omega)).bind fun chunk => ?_
  rintro s ⟨rfl, here⟩
  refine ⟨some (body ++ ['\n']), s, ?_, rfl, here⟩
  have some'' : ¬ Text.toBytes body ++ [10] = [] := by simp
  have room : ¬ (([] : List Char).length + (Text.toBytes body ++ [10]).length + 1 > len) := by
    rw [List.length_append, length, List.length_nil, List.length_singleton]
    omega
  simp only [if_neg some'', Option.getD_none, if_neg room, List.nil_append, whole]
  rw [if_pos (by simp)]
  rfl

theorem promptRun_at {cmd : List Char} {buffer : List Byte} (enough : cmd.length + 1 < fuel) :
    Total (fun s => At errno t incoming s ∧ s.buffer = buffer) (promptRun (serialTty react blksize) fuel debugPrompt cmd)
      fun _ s => At errno (feed react t (Text.toBytes cmd ++ [13])).1
        (incoming ++ (feed react t (Text.toBytes cmd ++ [13])).2) s ∧ s.buffer = buffer := by
  rintro s ⟨here, same⟩
  rcases @promptRun_serial τ react blksize fuel s cmd enough with ⟨s', run, moved⟩ | ⟨broken, _⟩
  · have out := moved.out
    rw [List.nil_append, here.peer] at out
    refine ⟨(), s', run, ⟨?_, moved.works here.works, moved.errno.trans here.errno, ?_⟩, moved.buffer.trans same⟩
    · rw [moved.peer, here.peer]
    · rw [moved.buffer, out, ← List.append_assoc, here.incoming]
  · exact absurd here.works broken

theorem promptRun_incoming {cmd : List Char} (enough : cmd.length + 1 < fuel) :
    Total (At errno t incoming) (promptRun (serialTty react blksize) fuel debugPrompt cmd)
      fun _ => At errno (feed react t (Text.toBytes cmd ++ [13])).1
        (incoming ++ (feed react t (Text.toBytes cmd ++ [13])).2) := by
  intro s here
  obtain ⟨_, s', run, there, _⟩ := @promptRun_at τ react blksize fuel errno t incoming cmd s.buffer enough s ⟨here, rfl⟩
  exact ⟨(), s', run, there⟩

/-- The prompt behind the noise is taken off. -/
theorem promptExpect_at {noise : List Byte} (enough : 100 < fuel)
    (first : Text.memmem debugShell (noise ++ debugShell) = some noise.length)
    (fits : noise.length + debugShell.length ≤ 100) :
    Total (fun s => At errno t (noise ++ debugShell) s ∧ s.buffer = [])
      (promptExpect (serialTty react blksize) fuel debugShell)
      fun _ => At errno t [] := by
  rintro s ⟨here, empty⟩
  have out := here.incoming
  rw [empty, List.nil_append] at out
  obtain ⟨s', run, none, moved⟩ := @promptExpect_whole τ react blksize fuel s debugShell noise here.works (by decide)
    enough out first fits
  refine ⟨(), s', run, moved.peer.trans here.peer, moved.works here.works, moved.errno.trans here.errno, ?_⟩
  rw [moved.buffer, empty, none]
  rfl

end

end Culvert
