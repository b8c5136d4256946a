import Culvert.Bridge.Debug
import Culvert.Bridge.DebugShell

namespace Culvert
open Prog

/-- The port with a record of the bytes it took. -/
def Tty.logged {σ : Type} (tty : Tty σ) : Tty (σ × List Byte) where
  read n := zoom Prod.fst (fun s d => (d, s.2)) (tty.read n)
  write bs := do
    let n ← zoom Prod.fst (fun s d => (d, s.2)) (tty.write bs)
    modify fun s => (s.1, s.2 ++ bs.take n)
    return n
  blksize := tty.blksize

def Stream.sent {σ : Type} (s : Stream (σ × List Byte)) : List Byte := s.dev.2

/-- The commands that store: `o A V`, and `u A N` with its bytes. -/
inductive ShellStore where
  | o (addr : Nat) (val : Byte)
  | u (addr : Nat) (bytes : List Byte)
  deriving DecidableEq

namespace ShellStore

/-- What is stored where, in order. -/
def stores : ShellStore → List (Byte × Nat)
  | .o addr val => [(val, addr)]
  | .u addr bytes => bytes.zipIdx addr

def size : ShellStore → Nat
  | .o _ _ => 1
  | .u _ bytes => bytes.length

def encode : ShellStore → List Byte
  | .o addr val => Text.toBytes ('o' :: commandArgs [addr, val.toNat]) ++ [13]
  | .u addr bytes => Text.toBytes ('u' :: commandArgs [addr, bytes.length]) ++ 13 :: bytes

def decode (stream : List Byte) : Option (ShellStore × List Byte) := do
  let (line, rest) ← cutLine stream
  match readCommand line with
  | some ('o', [addr, val]) => if val < 256 then some (.o addr (BitVec.ofNat 8 val), rest) else none
  | some ('u', [addr, n]) => if n ≤ rest.length then some (.u addr (rest.take n), rest.drop n) else none
  | _ => none

/-- The commands of a whole stream. -/
def decodeAll : Nat → List Byte → Option (List ShellStore)
  | _, [] => some []
  | 0, _ => none
  | fuel + 1, stream => do
    let (command, rest) ← decode stream
    let commands ← decodeAll fuel rest
    return command :: commands

end ShellStore

def storeAll (m : Mem) (stores : List (Byte × Nat)) : Mem := stores.foldl (fun m (b, a) => ByteMem.write m a [b]) m

section
variable {command : ShellStore} {commands : List ShellStore} {rest : List Byte} {m : Mem}

theorem ShellStore.decode_encode : decode (command.encode ++ rest) = some (command, rest) := by
  cases command with
  | o addr val =>
    rw [decode, encode, List.append_assoc, List.singleton_append, cutLine_command (by decide) (by decide)]
    simp only [Option.bind_eq_bind, Option.bind_some, readCommand_commandArgs]
    rw [if_pos val.isLt, BitVec.ofNat_toNat, BitVec.setWidth_eq]
  | u addr bytes =>
    rw [decode, encode, List.append_assoc, List.cons_append, cutLine_command (by decide) (by decide)]
    simp only [Option.bind_eq_bind, Option.bind_some, readCommand_commandArgs]
    rw [if_pos (by simp), List.take_left, List.drop_left]

theorem ShellStore.encode_o (addr : Nat) (val : Byte) : encode (.o addr val) =
    Text.toBytes ('o' :: ' ' :: Text.hex addr ++ ' ' :: Text.hex val.toNat) ++ [13] := by
  simp [encode, commandArgs]

theorem ShellStore.encode_u (addr : Nat) (bytes : List Byte) : encode (.u addr bytes) =
    Text.toBytes ('u' :: ' ' :: Text.hex addr ++ ' ' :: Text.hex bytes.length) ++ [13] ++ bytes := by
  simp [encode, commandArgs]

theorem ShellStore.encode_ne_nil : command.encode ≠ [] := by
  cases command <;> simp [encode, Text.toBytes]

theorem ShellStore.decodeAll_encode {fuel : Nat} (enough : commands.length ≤ fuel) :
    decodeAll fuel (commands.flatMap encode) = some commands := by
  induction commands generalizing fuel with
  | nil => cases fuel <;> rfl
  | cons command commands ih =>
    obtain ⟨fuel, rfl⟩ : ∃ k, fuel = k + 1 := ⟨fuel - 1, by simp only [List.length_cons] at enough; omega⟩
    have some' : command.encode ++ commands.flatMap encode ≠ [] := fun none =>
      encode_ne_nil (List.append_eq_nil_iff.mp none).1
    rw [List.flatMap_cons, decodeAll.eq_3 _ _ some', decode_encode]
    simp only [Option.bind_eq_bind, Option.bind_some]
    rw [ih (by simpa using enough)]
    rfl

theorem ShellStore.length_le_encode (commands : List ShellStore) : commands.length ≤ (commands.flatMap encode).length := by
  induction commands with
  | nil => exact Nat.le_refl 0
  | cons command commands ih =>
    have long : 0 < command.encode.length := List.length_pos_iff.mpr encode_ne_nil
    rw [List.flatMap_cons, List.length_append, List.length_cons]
    omega

theorem storeAll_zipIdx (bs : List Byte) (a : Nat) : storeAll m (bs.zipIdx a) = ByteMem.write m a bs := by
  induction bs generalizing a m with
  | nil => simp [storeAll]
  | cons b bs ih =>
    rw [ByteMem.write_cons, ← ih]
    rfl

end

section
variable {σ : Type} {tty : Tty σ} {fuel : Nat} {log : List Byte}

/-- Nothing is claimed of a program that stops without a value. -/
abbrev Unsaid {σ : Type} : Stop → σ → Prop := fun _ _ => True

theorem sys_logged_read (n : Nat) :
    Triple (fun s => s.sent = log) (sys (tty.logged.read n)) (fun _ s => s.sent = log) Unsaid := by
  rintro s rfl
  refine ⟨fun bs s' run => ?_, fun _ _ _ => trivial⟩
  simp only [sys, Tty.logged, zoom, EStateM.run] at run
  cases first : tty.read n s.dev.1 with
  | ok bs d =>
    rw [first] at run
    cases run
    rfl
  | error e d =>
    rw [first] at run
    cases e <;> cases run

theorem sys_logged_write (bs : List Byte) :
    Triple (fun s => s.sent = log) (sys (tty.logged.write bs)) (fun n s => s.sent = log ++ bs.take n) Unsaid := by
  rintro s rfl
  refine ⟨fun n s' run => ?_, fun _ _ _ => trivial⟩
  simp only [sys, Tty.logged, bind, EStateM.bind, zoom, EStateM.run] at run
  cases first : tty.write bs s.dev.1 with
  | ok n d =>
    rw [first] at run
    cases run
    rfl
  | error e d =>
    rw [first] at run
    cases e <;> cases run

theorem promptWrite_sent (buf : List Byte) : Triple (fun s => s.sent = log) (promptWrite tty.logged fuel buf)
    (fun _ s => s.sent = log ++ buf) Unsaid := by
  have turn (cursor : List Byte) : Triple (fun s => ∃ done, s.sent = log ++ done ∧ done ++ cursor = buf)
      (promptWriteTurn tty.logged cursor)
      (fun r s => r.elim (fun cursor => ∃ done, s.sent = log ++ done ∧ done ++ cursor = buf)
        fun _ => s.sent = log ++ buf) Unsaid := by
    rintro s ⟨done, sent, whole⟩
    refine (@sys_logged_write σ tty (log ++ done) cursor).bind (fun n => ?_) s sent
    by_cases last : cursor.drop n = []
    · rw [if_pos last]
      refine Triple.pure fun s post => ?_
      have all : cursor.take n = cursor := by
        rw [← List.append_nil (cursor.take n), ← last, List.take_append_drop]
      show s.sent = log ++ buf
      rw [post, all, List.append_assoc, whole]
    · rw [if_neg last]
      refine Triple.pure fun s post => ⟨done ++ cursor.take n, ?_, ?_⟩
      · rw [post, List.append_assoc]
      · rw [List.append_assoc, List.take_append_drop, whole]
  refine (Triple.loop (fun cursor s => ∃ done, s.sent = log ++ done ∧ done ++ cursor = buf) turn
    (fun _ _ _ => trivial) fuel buf).conseq (fun s sent => ⟨[], ?_, rfl⟩) (fun _ _ post => post) fun _ _ _ => trivial
  rw [sent, List.append_nil]

theorem promptExpectInto_sent (str : List Byte) (len : Nat) : Triple (fun s => s.sent = log)
    (promptExpectInto tty.logged fuel str len) (fun _ s => s.sent = log) Unsaid := by
  refine Triple.loop (fun _ (s : Stream (σ × List Byte)) => s.sent = log) (E := Unsaid)
    (fun prior => (sys_logged_read _).bind fun bs => ?_) (fun _ _ _ => trivial) fuel []
  cases found : Text.memmem str (prior ++ bs) with
  | some p =>
    simp only [found]
    exact Triple.pure fun _ post => post
  | none =>
    simp only [found]
    exact Triple.ite (Triple.pure fun _ post => post) (Triple.pure fun _ post => post)

theorem promptExpect_sent (str : List Byte) : Triple (fun s => s.sent = log) (promptExpect tty.logged fuel str)
    (fun _ s => s.sent = log) Unsaid := by
  refine Triple.loop (fun _ (s : Stream (σ × List Byte)) => s.sent = log) (E := Unsaid)
    (fun _ => (promptExpectInto_sent str 100).bind fun res => ?_) (fun _ _ _ => trivial) fuel ()
  obtain ⟨_, _ | _⟩ := res
  · exact Triple.pure fun _ post => post
  · exact Triple.pure fun _ post => post

theorem promptRun_sent (cmd : List Char) : Triple (fun s => s.sent = log) (promptRun tty.logged fuel debugPrompt cmd)
    (fun _ s => s.sent = log ++ (Text.toBytes cmd ++ [13])) Unsaid := by
  refine (promptWrite_sent _).bind fun _ => (promptWrite_sent _).bind fun _ => ?_
  refine Triple.pure fun s post => ?_
  rw [post, List.append_assoc]
  rfl

/-- The bytes of `buf` before the cursor have been sent, as commands that store them in order from `phys` on. -/
def StoresSent (log : List Byte) (phys : Word) (buf : List Byte) (now : Word) (cursor : List Byte)
    (s : Stream (σ × List Byte)) : Prop :=
  ∃ (done : List Byte) (commands : List ShellStore), done ++ cursor = buf ∧ now = phys + BitVec.ofNat 32 done.length ∧
    s.sent = log ++ commands.flatMap ShellStore.encode ∧
    commands.flatMap ShellStore.stores = done.zipIdx phys.toNat ∧ ∀ c ∈ commands, c.size ≤ debugCmdUMax

section
variable {phys now : Word} {buf cursor bs : List Byte} {s s' : Stream (σ × List Byte)}

theorem StoresSent.start (sent : s.sent = log) : StoresSent log phys buf phys buf s :=
  ⟨[], [], rfl, by simp, by simpa using sent, rfl, fun _ never => nomatch never⟩

/-- Another command for the next bytes. -/
theorem StoresSent.next (stored : StoresSent log phys buf now (bs ++ cursor) s)
    (inRange : phys.toNat + buf.length ≤ 2 ^ 32) (some' : bs ≠ []) (command : ShellStore) (stores : command.stores = bs.zipIdx now.toNat)
    (small : command.size ≤ debugCmdUMax) (sent : s'.sent = s.sent ++ command.encode) :
    StoresSent log phys buf (now + BitVec.ofNat 32 bs.length) cursor s' := by
  obtain ⟨done, commands, rfl, rfl, before, earlier, all⟩ := stored
  have long : 0 < bs.length := List.length_pos_iff.mpr some'
  have room : phys.toNat + done.length < 2 ^ 32 := by
    simp only [List.length_append] at inRange
    omega
  rw [Word.toNat_add_ofNat room] at stores
  refine ⟨done ++ bs, commands ++ [command], by simp, ?_, ?_, ?_, ?_⟩
  · rw [List.length_append, BitVec.add_assoc, ← BitVec.ofNat_add]
  · rw [sent, before]
    simp
  · rw [List.flatMap_append, earlier, List.flatMap_singleton, stores, List.zipIdx_append]
  · intro c mem
    rcases List.mem_append.mp mem with front | back
    · exact all c front
    · rw [List.mem_singleton.mp back]
      exact small

end

section
variable {phys : Word} {buf : List Byte}

theorem debugWriteByteTurn_stores (inRange : phys.toNat + buf.length ≤ 2 ^ 32) (p : Word × List Byte) :
    Triple (StoresSent log phys buf p.1 p.2) (debugWriteByteTurn tty.logged fuel p)
      (fun r s => r.elim (fun p => StoresSent log phys buf p.1 p.2 s) fun _ => ∃ now, StoresSent log phys buf now [] s)
      Unsaid := by
  obtain ⟨now, _ | ⟨b, cursor⟩⟩ := p
  · exact Triple.pure fun s stored => ⟨now, stored⟩
  · intro s stored
    refine ((orMinusOne_triple (@promptRun_sent σ tty fuel s.sent _)).bind fun _ =>
      (promptExpect_sent debugShell).bind fun _ => Triple.pure fun s' sent => ?_) s rfl
    have small : (ShellStore.o now.toNat b).size ≤ debugCmdUMax := by
      show 1 ≤ debugCmdUMax
      decide
    exact @StoresSent.next σ log phys now buf cursor [b] s s' stored inRange (by simp) (.o now.toNat b) rfl small
      (by rw [sent, ShellStore.encode_o])

theorem debugWriteTurn_stores (inRange : phys.toNat + buf.length ≤ 2 ^ 32) (p : Word × List Byte) :
    Triple (fun s => StoresSent log phys buf p.1 p.2 s ∧ p.2 ≠ []) (debugWriteTurn tty.logged fuel p)
      (fun r s => r.elim (fun p => StoresSent log phys buf p.1 p.2 s ∧ p.2 ≠ [])
        fun _ => ∃ now, StoresSent log phys buf now [] s) Unsaid := by
  obtain ⟨now, cursor⟩ := p
  rintro s ⟨stored, some'⟩
  generalize chunk : (if cursor.length > debugCmdUMax then debugCmdUMax else cursor.length) = egress
  have pos : 0 < cursor.length := List.length_pos_iff.mpr some'
  have size : egress ≤ debugCmdUMax ∧ egress ≤ cursor.length ∧ 0 < egress := by
    have := (by decide : 0 < debugCmdUMax)
    rw [← chunk]
    split <;> omega
  have length : (cursor.take egress).length = egress := List.length_take_of_le size.2.1
  have step (s' : Stream (σ × List Byte)) (sent : s'.sent = s.sent ++
      (Text.toBytes ('u' :: ' ' :: Text.hex now.toNat ++ ' ' :: Text.hex egress) ++ [13]) ++ cursor.take egress) :
      StoresSent log phys buf (now + BitVec.ofNat 32 egress) (cursor.drop egress) s' := by
    have whole : cursor.take egress ++ cursor.drop egress = cursor := List.take_append_drop egress cursor
    rw [← whole] at stored
    have some'' : cursor.take egress ≠ [] := by
      rw [← List.length_pos_iff, length]
      exact size.2.2
    have small : (ShellStore.u now.toNat (cursor.take egress)).size ≤ debugCmdUMax := by
      rw [ShellStore.size, length]
      exact size.1
    have more := @StoresSent.next σ log phys now buf (cursor.drop egress) (cursor.take egress) s s' stored inRange some''
      (.u now.toNat (cursor.take egress)) rfl small (by rw [sent, ShellStore.encode_u, length, List.append_assoc])
    rw [length] at more
    exact more
  rw [debugWriteTurn]
  simp only [chunk]
  refine ((@promptRun_sent σ tty fuel s.sent _).bind fun _ => (promptWrite_sent _).bind fun _ =>
    (promptExpect_sent debugShell).bind fun _ => ?_) s rfl
  by_cases last : cursor.drop egress = []
  · rw [if_pos last]
    refine Triple.pure fun s' sent => ⟨now + BitVec.ofNat 32 egress, ?_⟩
    have done := step s' sent
    rw [last] at done
    exact done
  · rw [if_neg last]
    exact Triple.pure fun s' sent => ⟨step s' sent, last⟩

theorem debugWrite_sent (inRange : phys.toNat + buf.length ≤ 2 ^ 32) : Triple (fun s => s.sent = log)
    (debugWrite tty.logged fuel phys buf)
    (fun n s => n = buf.length ∧ ∃ now, StoresSent log phys buf now [] s) Unsaid := by
  have bytes : Triple (fun s => s.sent = log) (loop (debugWriteByteTurn tty.logged fuel) fuel (phys, buf))
      (fun _ s => ∃ now, StoresSent log phys buf now [] s) Unsaid :=
    (Triple.loop (fun p s => StoresSent log phys buf p.1 p.2 s) (debugWriteByteTurn_stores inRange)
      (fun _ _ _ => trivial) fuel (phys, buf)).conseq (fun _ sent => .start sent) (fun _ _ post => post) fun _ _ _ => trivial
  have chunks (some' : buf ≠ []) : Triple (fun s => s.sent = log)
      (loop (debugWriteTurn tty.logged fuel) fuel (phys, buf)) (fun _ s => ∃ now, StoresSent log phys buf now [] s) Unsaid :=
    (Triple.loop (fun p s => StoresSent log phys buf p.1 p.2 s ∧ p.2 ≠ []) (debugWriteTurn_stores inRange)
      (fun _ _ _ => trivial) fuel (phys, buf)).conseq (fun _ sent => ⟨.start sent, some'⟩) (fun _ _ post => post)
      fun _ _ _ => trivial
  have body : Triple (fun s => s.sent = log) (do
      if buf.length ≤ 4 then do
        loop (debugWriteByteTurn tty.logged fuel) fuel (phys, buf)
        return buf.length
      orMinusOne (loop (debugWriteTurn tty.logged fuel) fuel (phys, buf))
      return buf.length) (fun n s => n = buf.length ∧ ∃ now, StoresSent log phys buf now [] s) Unsaid := by
    by_cases short : buf.length ≤ 4
    · rw [if_pos short]
      exact bytes.bind fun _ => Triple.pure fun _ post => ⟨rfl, post⟩
    · rw [if_neg short]
      have some' : buf ≠ [] := by
        rintro rfl
        exact short (by decide)
      exact (orMinusOne_triple (chunks some')).bind fun _ => Triple.pure fun _ post => ⟨rfl, post⟩
  exact Triple.ite ((Triple.fail (Q := fun _ s => s.sent = log) fun _ _ => trivial).bind fun _ => body) body

/-- Whatever the port answers, a write that returns has sent commands that store the buffer in order from `phys` on. -/
theorem debugWrite_stores {fuel n : Nat} {s s' : Stream (σ × List Byte)} (inRange : phys.toNat + buf.length ≤ 2 ^ 32)
    (run : (debugWrite tty.logged fuel phys buf).run s = .ok n s') :
    n = buf.length ∧ ∃ stream commands, s'.sent = s.sent ++ stream ∧
      ShellStore.decodeAll stream.length stream = some commands ∧
      commands.flatMap ShellStore.stores = buf.zipIdx phys.toNat ∧
      (∀ m, storeAll m (commands.flatMap ShellStore.stores) = ByteMem.write m phys.toNat buf) ∧
      ∀ addr bytes, .u addr bytes ∈ commands → bytes.length ≤ 128 := by
  obtain ⟨good, _⟩ := @debugWrite_sent σ tty fuel s.sent phys buf inRange s rfl
  obtain ⟨count, now, done, commands, whole, _, sent, stores, small⟩ := good n s' run
  rw [List.append_nil] at whole
  subst whole
  refine ⟨count, commands.flatMap ShellStore.encode, commands, sent, ShellStore.decodeAll_encode ?_, stores, fun m => ?_,
    fun addr bytes mem => small _ mem⟩
  · exact ShellStore.length_le_encode commands
  · rw [stores, storeAll_zipIdx]

end

end

/-- A port that takes everything and always has a prompt to read. -/
def promptingTty : Tty Unit where
  read n := pure (debugShell.take n)
  write bs := pure bs.length
  blksize := 1024

/-- Five bytes, the last of which is a carriage return. -/
theorem debugWrite_stores_five : ∃ s', (debugWrite promptingTty.logged 8 0x1e720000 [1, 2, 3, 4, 13]).run
      ⟨((), []), [], none⟩ = .ok 5 s' ∧
    ∃ commands, ShellStore.decodeAll s'.sent.length s'.sent = some commands ∧
      commands.flatMap ShellStore.stores = [1, 2, 3, 4, 13].zipIdx 0x1e720000 := by
  obtain ⟨s', run⟩ : ∃ s', (debugWrite promptingTty.logged 8 0x1e720000 [1, 2, 3, 4, 13]).run
    ⟨((), []), [], none⟩ = .ok 5 s' := ⟨_, rfl⟩
  obtain ⟨_, stream, commands, sent, decoded, stores, _⟩ := debugWrite_stores (by decide) run
  obtain rfl : s'.sent = stream := sent
  exact ⟨s', run, commands, decoded, stores⟩

end Culvert
