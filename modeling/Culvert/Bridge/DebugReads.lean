import Culvert.Bridge.DumpShell
import Culvert.Lib.Overlay

namespace Culvert
open Prog ByteMem

/-- The peer with a record of the bytes it took. -/
def recorded {τ : Type} (react : τ → Byte → τ × List Byte) (t : τ × List Byte) (b : Byte) : (τ × List Byte) × List Byte :=
  (((react t.1 b).1, t.2 ++ [b]), (react t.1 b).2)

section
variable {τ : Type} {react : τ → Byte → τ × List Byte} {mem : Mem} {Ready Stuck : List (Option Garbled) → τ → Prop}

theorem feed_recorded (t : τ × List Byte) (bs : List Byte) :
    feed (recorded react) t bs = (((feed react t.1 bs).1, t.2 ++ bs), (feed react t.1 bs).2) := by
  induction bs generalizing t with
  | nil => simp [feed]
  | cons b bs ih => simp [feed, recorded, ih]

theorem DumpShell.recorded (shell : DumpShell react mem Ready Stuck) : DumpShell (recorded react) mem
    (fun script t => Ready script t.1) fun script t => Stuck script t.1 where
  dumps ready pos inRange whole := by
    simp only [feed_recorded]
    exact shell.dumps ready pos inRange whole
  garbles ready early inRange := by
    simp only [feed_recorded]
    exact shell.garbles ready early inRange
  resyncs stuck := by
    simp only [feed_recorded]
    exact shell.resyncs stuck

end

section
variable {τ : Type} {react : τ → Byte → τ × List Byte} {mem : Mem} {Ready Stuck : List (Option Garbled) → τ → Prop}
variable {script : List (Option Garbled)} {blksize fuel len : Nat} {errno : Option Errno} {t : τ} {lead : List Byte}
variable {phys : Word}

theorem debugRead_run {σ : Type} {tty : Tty σ} {buf buf' : Mem} {s s' : Stream σ} (least : 4 ≤ len) (most : len ≤ ssizeMax)
    (run : (loop (debugReadTurn tty fuel) fuel ⟨phys, len, 0, buf, none⟩).run s = .ok buf' s') :
    (debugRead tty fuel phys buf len).run s = .ok (len, buf') s' := by
  rw [debugRead, orMinusOne_ok]
  simp only [if_neg (show ¬ len > ssizeMax by omega), if_neg (show ¬ len < 4 by omega)]
  rw [run_bind_ok run]
  rfl

/-- A read returns, with the answers in the buffer one behind the other. -/
theorem debugRead_replay (shell : DumpShell react mem Ready Stuck) (blk : 0 < blksize)
    (enough : 2 ^ 16 + script.length + len < fuel) (rejects : Rejects errno script) (ready : Ready script t)
    (prompt : lead = [] ∨ lead = debugShell) (least : 4 ≤ len) (inRange : phys.toNat + len ≤ 2 ^ 32) (buf : Mem) :
    Total (At errno t lead) (debugRead (serialTty react blksize) fuel phys buf len) fun r st =>
      r = (len, replay errno mem script phys.toNat len 0 buf) ∧
      (script = [] → ∃ commands, st.dev.peer = (feed react t (commands.flatMap fun c => dCommand c.1 c.2)).1 ∧
        CommandsTile phys.toNat len commands) := by
  intro s start
  have most : len ≤ ssizeMax := by
    rw [ssizeMax]
    omega
  have page : 2 ^ 16 ≤ fuel := by omega
  have count : script.length + len < fuel := by omega
  obtain ⟨buf', s', run, rfl, sent⟩ := debugReadChunks_replay (s := ⟨phys, len, 0, buf, none⟩) shell blk page rejects
    ready prompt (show 0 < len by omega) inRange count s start
  exact ⟨_, s', debugRead_run least most run, rfl, sent⟩

/-- `debug_read` stores what it was asked for and nothing else, and the commands it sends tile the range. -/
def ReadsRange (mem : Mem) (phys : Word) (len : Nat) (log : List Byte)
    (read : Mem → EStateM.Result Stop (Stream (Serial (τ × List Byte))) (Nat × Mem)) : Prop :=
  ∀ buf, ∃ s commands, read buf = .ok (len, write buf 0 (ByteMem.read mem phys.toNat len)) s ∧
    s.dev.peer.2 = log ++ commands.flatMap (fun c => dCommand c.1 c.2) ∧ CommandsTile phys.toNat len commands

/-- The last word is stored whole. -/
theorem write_dumpWords_iff (phys : Nat) : (∀ buf, write buf 0 (ByteMem.read mem phys (4 * dumpWords len)) =
    write buf 0 (ByteMem.read mem phys len)) ↔ len % 4 = 0 := by
  constructor
  · intro same
    by_contra part
    have more : len < 4 * dumpWords len := by
      rw [dumpWords]
      omega
    have sets := @sets_write 0 len (ByteMem.read mem phys (4 * dumpWords len)) (by simpa using more)
    rw [Nat.zero_add] at sets
    refine sets.not_keeps fun buf => ?_
    simp only [same buf]
    exact write_above (by simp)
  · intro aligned buf
    have whole : 4 * dumpWords len = len := by
      rw [dumpWords]
      omega
    rw [whole]

/-- All the words that the range is in are stored. -/
theorem debugRead_words {log : List Byte} {s : Stream (Serial (τ × List Byte))} (shell : DumpShell react mem Ready Stuck)
    (blk : 0 < blksize) (enough : 2 ^ 16 + len < fuel) (ready : Ready [] t) (prompt : lead = [] ∨ lead = debugShell)
    (least : 4 ≤ len) (inRange : phys.toNat + len ≤ 2 ^ 32) (start : At errno (t, log) lead s) (buf : Mem) :
    ∃ s' commands, (debugRead (serialTty (recorded react) blksize) fuel phys buf len).run s =
      .ok (len, write buf 0 (ByteMem.read mem phys.toNat (4 * dumpWords len))) s' ∧
      s'.dev.peer.2 = log ++ commands.flatMap (fun c => dCommand c.1 c.2) ∧ CommandsTile phys.toNat len commands := by
  have rejects : Rejects errno [] := fun _ never => nomatch never
  obtain ⟨_, s', run, rfl, sent⟩ := debugRead_replay shell.recorded blk (by simpa using enough) rejects ready prompt least
    inRange buf s start
  obtain ⟨commands, peer, tiles⟩ := sent rfl
  exact ⟨s', commands, run, by rw [peer, feed_recorded], tiles⟩

/-- Over a shell that answers, `debug_read` stores its range with commands that tile it exactly if the length is a
multiple of four: an answer is stored in whole words, the last one too. -/
theorem debugRead_range_iff {log : List Byte} {s : Stream (Serial (τ × List Byte))} (shell : DumpShell react mem Ready Stuck)
    (blk : 0 < blksize) (enough : 2 ^ 16 + len < fuel) (ready : Ready [] t) (prompt : lead = [] ∨ lead = debugShell)
    (least : 4 ≤ len) (inRange : phys.toNat + len ≤ 2 ^ 32) (start : At errno (t, log) lead s) :
    ReadsRange mem phys len log (fun buf => (debugRead (serialTty (recorded react) blksize) fuel phys buf len).run s) ↔
      len % 4 = 0 := by
  have runs := debugRead_words shell blk enough ready prompt least inRange start
  rw [← @write_dumpWords_iff mem len phys.toNat]
  constructor
  · intro reads buf
    obtain ⟨s', commands, run, _⟩ := runs buf
    obtain ⟨s'', commands', run', _⟩ := reads buf
    have both := run.symm.trans run'
    injection both with value
    exact congrArg Prod.snd value
  · intro same buf
    obtain ⟨s', commands, run, sent, tiles⟩ := runs buf
    exact ⟨s', commands, same buf ▸ run, sent, tiles⟩

end

/-- A port that nothing has come on yet, and that moves as much at a time as it is asked to. -/
def freshStream {τ : Type} (t : τ) : Stream (Serial τ) := ⟨⟨t, [], fun _ => .ok 1024, 0⟩, [], none⟩

theorem freshStream_at {τ : Type} (t : τ) : At none t [] (freshStream t) := ⟨rfl, fun _ => ⟨1024, rfl⟩, rfl, rfl⟩

/-- Every byte holds the low byte of its address. -/
def countingMem : Mem := fun a => BitVec.ofNat 8 a

/-- Eight bytes of a memory that counts. -/
theorem debugRead_range_eight : ReadsRange countingMem 0x1000 8 [] fun buf =>
    (debugRead (serialTty (recorded (DebugPeer.react countingMem)) 1024) (2 ^ 17) 0x1000 buf 8).run
      (freshStream (⟨[], [], false⟩, [])) :=
  (debugRead_range_iff (debugPeer_shell countingMem) (by decide) (by decide) rfl (Or.inl rfl) (by decide) (by decide)
    (freshStream_at _)).mpr (by decide)

/-- Of five bytes the second word is stored whole, three bytes behind the buffer's end. -/
theorem debugRead_five : ¬ ReadsRange countingMem 0x1000 5 [] fun buf =>
    (debugRead (serialTty (recorded (DebugPeer.react countingMem)) 1024) (2 ^ 17) 0x1000 buf 5).run
      (freshStream (⟨[], [], false⟩, [])) := by
  intro reads
  obtain ⟨s', commands, run, _⟩ := reads fun _ => 0xff
  have inRange : (0x1000 : Word).toNat + 5 ≤ 2 ^ 32 := by decide
  obtain ⟨s'', commands', run', _⟩ := debugRead_words (debugPeer_shell countingMem) (by decide : 0 < 1024)
    (by decide : 2 ^ 16 + 5 < 2 ^ 17) rfl (Or.inl rfl) (by decide) inRange
    (freshStream_at ((⟨[], [], false⟩ : DebugPeer), [])) fun _ => 0xff
  have both := run'.symm.trans run
  injection both with value
  have byte := congrFun (congrArg Prod.snd value) 5
  exact absurd byte (by decide)

end Culvert
