import Culvert.Bridge.DebugDump

namespace Culvert
open Prog

/-- A debug shell: the answers it will garble, what it has of a command, and whether it is stuck. -/
structure DebugPeer where
  script : List (Option Garbled)
  line : List Byte
  stuck : Bool

/-- `%08x`. -/
def hexWord (w : Word) : List Char := (Text.hex w.toNat).leftpad 8 '0'

/-- One word on a line. -/
def wordLine (mem : Mem) (addr : Nat) : List Char :=
  Text.hex addr ++ ':' :: hexWord (ByteMem.readWord mem addr) ++ ['\r', '\n']

def wordLines (mem : Mem) : Nat → Nat → List (List Char)
  | _, 0 => []
  | addr, n + 1 => wordLine mem addr :: wordLines mem (addr + 4) n

/-- A command is carried out at its carriage return, a garbled answer left at its last line. -/
def DebugPeer.react (mem : Mem) (t : DebugPeer) (b : Byte) : DebugPeer × List Byte :=
  if b ≠ 13 then ({ t with line := t.line ++ [b] }, [])
  else if t.stuck then (⟨t.script, [], false⟩, debugShell)
  else
    match readCommand (Text.ofBytes t.line) with
    | some ('d', [addr, len]) =>
      match garbledIn t.script len with
      | some g =>
        (⟨t.script.tail, [], true⟩, t.line ++ [13, 10] ++ (sentLines (wordLines mem addr g.words) ++ Text.toBytes g.line))
      | none =>
        (⟨t.script.tail, [], false⟩, t.line ++ [13, 10] ++ (sentLines (wordLines mem addr (dumpWords len)) ++ debugShell))
    | _ => (⟨t.script, [], false⟩, debugShell)

section
variable {mem : Mem} {addr n : Nat} {w : Word}

/-- The zeros in front do not count. -/
theorem hexWord_digits (w : Word) :
    (∀ c ∈ hexWord w, Text.isHex c) ∧ (Text.digits 16 0 (hexWord w)).1 = w.toNat := by
  have zeros (k : Nat) : ∀ c ∈ List.replicate k '0', (Text.digitIn 16 c).isSome := fun c mem => by
    rw [(List.mem_replicate.mp mem).2]
    rfl
  have value (k : Nat) : (Text.digits 16 0 (List.replicate k '0')).1 = 0 := by
    induction k with
    | zero => rfl
    | succ k ih =>
      have zero : Text.digitIn 16 '0' = some 0 := rfl
      rw [List.replicate_succ, Text.digits, zero]
      exact ih
  refine ⟨fun c mem => ?_, ?_⟩
  · rcases List.mem_append.mp mem with front | back
    · exact zeros _ c front
    · exact Text.isHex_of_mem_hex back
  · rw [hexWord, List.leftpad, Text.digits_append (zeros _), value, (Text.hex_digits _).2]

theorem hexWord_data (w : Word) : DataWord (hexWord w) ∧ dataWord (hexWord w) = w := by
  have short : (Text.hex w.toNat).length ≤ 8 := Text.hex_length (by decide) w.isLt
  refine ⟨⟨?_, (hexWord_digits w).1⟩, ?_⟩
  · rw [hexWord, List.leftpad, List.length_append, List.length_replicate]
    omega
  · rw [dataWord, (hexWord_digits w).2, BitVec.ofNat_toNat, BitVec.setWidth_eq]

theorem hex_not_mem {c : Char} (other : Text.isHex c = false) (n : Nat) : c ∉ Text.hex n := fun mem => by
  rw [Text.isHex_of_mem_hex mem] at other
  cases other

theorem wordLine_data (mem : Mem) (addr : Nat) : DataLine (wordLine mem addr) [hexWord (ByteMem.readWord mem addr)] := by
  obtain ⟨data, _⟩ := hexWord_data (ByteMem.readWord mem addr)
  have fresh : ' ' ∉ hexWord (ByteMem.readWord mem addr) ++ ['\r', '\n'] := fun mem => by
    rcases List.mem_append.mp mem with digit | end'
    · exact absurd (data.2 ' ' digit) (by decide)
    · exact absurd end' (by decide)
  refine ⟨fun w mem => ?_, Text.hex addr, hexWord (ByteMem.readWord mem addr) ++ ['\r', '\n'], [],
    hexWord (ByteMem.readWord mem addr), ['\r', '\n'], by simp [wordLine], hex_not_mem (by decide) addr, rfl, by decide, ?_⟩
  · rw [List.mem_singleton.mp mem]
    exact data
  · rw [Text.tokens, List.splitOn_eq_singleton fresh]
    simp

theorem wordLine_text (mem : Mem) (small : addr < 16 ^ 9) : TextLine debugLineLen (wordLine mem addr) := by
  obtain ⟨⟨eight, all⟩, _⟩ := hexWord_data (ByteMem.readWord mem addr)
  have short : (Text.hex addr).length ≤ 9 := Text.hex_length (by decide) small
  have chars (c : Char) (mem' : c ∈ wordLine mem addr) : Text.isHex c ∨ c ∈ [':', '\r', '\n'] := by
    rcases List.mem_append.mp mem' with front | back
    · rcases List.mem_append.mp front with digit | digit
      · exact Or.inl (Text.isHex_of_mem_hex digit)
      · rcases List.mem_cons.mp digit with rfl | digit
        · exact Or.inr (by decide)
        · exact Or.inl (all c digit)
    · exact Or.inr (List.mem_cons_of_mem _ back)
  have others : ∀ c ∈ [':', '\r', '\n'], c.toNat ≠ 0 ∧ c.toNat < 256 := by simp
  refine ⟨⟨Text.hex addr ++ ':' :: hexWord (ByteMem.readWord mem addr) ++ ['\r'], by simp [wordLine], fun mem' => ?_⟩,
    fun c mem' => ?_, fun c mem' => ?_, ?_⟩
  · simp only [List.mem_append, List.mem_cons, List.not_mem_nil, or_false] at mem'
    rcases mem' with (digit | colon | digit) | return'
    · exact hex_not_mem (by decide) addr digit
    · exact absurd colon (by decide)
    · exact absurd (all _ digit) (by decide)
    · exact absurd return' (by decide)
  · rcases chars c mem' with digit | other
    · intro nul
      rw [show c = Char.ofNat 0 by rw [← nul, Char.ofNat_toNat]] at digit
      exact absurd digit (by decide)
    · exact (others c other).1
  · rcases chars c mem' with digit | other
    · have := Text.toNat_lt_of_isHex digit
      omega
    · exact (others c other).2
  · simp only [wordLine, List.length_append, List.length_cons, List.length_nil, debugLineLen, eight]
    omega

theorem wordLines_dump (mem : Mem) (small : addr + 4 * n ≤ 16 ^ 9) : Dump mem addr n (wordLines mem addr n) := by
  induction n generalizing addr with
  | zero => exact .nil addr
  | succ n ih =>
    obtain ⟨_, value⟩ := hexWord_data (ByteMem.readWord mem addr)
    rw [wordLines, Nat.add_comm n 1]
    refine .cons (wordLine_text mem (by omega)) (wordLine_data mem addr) (by simp) ?_ (ih ?_)
    · simp [dataBytes, value, ByteMem.bytes_readWord]
    · simp only [List.length_singleton]
      omega

end

section
variable {mem : Mem} {t : DebugPeer} {script : List (Option Garbled)} {bs : List Byte} {addr len : Nat}

theorem dCommand_args (addr len : Nat) : dCommand addr len = Text.toBytes ('d' :: commandArgs [addr, len]) ++ [13] := by
  simp [dCommand, commandArgs]

theorem narrow_dCommand (addr len : Nat) : Text.Narrow ('d' :: commandArgs [addr, len]) := fun c mem => by
  rcases List.mem_cons.mp mem with rfl | arg
  · decide
  · exact narrow_commandArgs _ c arg

theorem return_not_mem_dCommand (addr len : Nat) : '\r' ∉ 'd' :: commandArgs [addr, len] := fun mem => by
  rcases List.mem_cons.mp mem with never | arg
  · exact absurd never (by decide)
  · exact return_not_mem_commandArgs _ arg

theorem feed_line (fresh : (13 : Byte) ∉ bs) :
    feed (DebugPeer.react mem) t bs = ({ t with line := t.line ++ bs }, []) := by
  induction bs generalizing t with
  | nil => simp [feed]
  | cons b bs ih =>
    rw [List.mem_cons, not_or] at fresh
    have one : DebugPeer.react mem t b = ({ t with line := t.line ++ [b] }, []) := by
      rw [DebugPeer.react, if_pos (Ne.symm fresh.1)]
    simp [feed, one, ih fresh.2]

theorem feed_dCommand (script : List (Option Garbled)) (addr len : Nat) :
    feed (DebugPeer.react mem) ⟨script, [], false⟩ (dCommand addr len) =
      DebugPeer.react mem ⟨script, Text.toBytes ('d' :: commandArgs [addr, len]), false⟩ 13 := by
  have fresh : (13 : Byte) ∉ Text.toBytes ('d' :: commandArgs [addr, len]) :=
    Text.not_mem_toBytes (c := '\r') (narrow_dCommand addr len) (by decide) (return_not_mem_dCommand addr len)
  rw [dCommand_args, feed_append, feed_line fresh]
  simp [feed]

theorem react_dCommand (script : List (Option Garbled)) (addr len : Nat) :
    DebugPeer.react mem ⟨script, Text.toBytes ('d' :: commandArgs [addr, len]), false⟩ 13 =
      match garbledIn script len with
      | some g => (⟨script.tail, [], true⟩, Text.toBytes ('d' :: commandArgs [addr, len] ++ ['\r', '\n']) ++
          (sentLines (wordLines mem addr g.words) ++ Text.toBytes g.line))
      | none => (⟨script.tail, [], false⟩, Text.toBytes ('d' :: commandArgs [addr, len] ++ ['\r', '\n']) ++
          (sentLines (wordLines mem addr (dumpWords len)) ++ debugShell)) := by
  have text : Text.ofBytes (Text.toBytes ('d' :: commandArgs [addr, len])) = 'd' :: commandArgs [addr, len] :=
    Text.ofBytes_toBytes (narrow_dCommand addr len)
  rw [DebugPeer.react, if_neg (by decide)]
  simp only [text, readCommand_commandArgs, Text.toBytes_append, Bool.false_eq_true, if_false]
  rfl

theorem dCommand_echo (small : addr < 16 ^ 9) (small' : len < 16 ^ 9) :
    EchoLine ('d' :: commandArgs [addr, len] ++ ['\r', '\n']) := by
  have first : (Text.hex addr).length ≤ 9 := Text.hex_length (by decide) small
  have second : (Text.hex len).length ≤ 9 := Text.hex_length (by decide) small'
  have chars (c : Char) (mem : c ∈ 'd' :: commandArgs [addr, len]) : Text.isHex c ∨ c = ' ' := by
    rcases List.mem_cons.mp mem with rfl | arg
    · exact Or.inl (by decide)
    · obtain ⟨n, _, digit⟩ := List.mem_flatMap.mp arg
      rcases List.mem_cons.mp digit with rfl | digit
      · exact Or.inr rfl
      · exact Or.inl (Text.isHex_of_mem_hex digit)
  refine ⟨⟨⟨'d' :: commandArgs [addr, len] ++ ['\r'], by simp, fun mem => ?_⟩, fun c mem => ?_, ?_, ?_⟩, ?_, ?_⟩
  · rcases List.mem_append.mp mem with front | back
    · rcases chars _ front with digit | space
      · exact absurd digit (by decide)
      · exact absurd space (by decide)
    · exact absurd back (by decide)
  · rcases List.mem_append.mp mem with front | back
    · rcases chars c front with digit | rfl
      · intro nul
        rw [show c = Char.ofNat 0 by rw [← nul, Char.ofNat_toNat]] at digit
        exact absurd digit (by decide)
      · decide
    · have others : ∀ c ∈ ['\r', '\n'], c.toNat ≠ 0 := by simp
      exact others c back
  · refine Text.narrow_append.mpr ⟨narrow_dCommand addr len, ?_⟩
    have others : ∀ c ∈ ['\r', '\n'], c.toNat < 256 := by simp
    exact others
  · have prompt : debugShell.length = 2 := rfl
    simp only [commandArgs, List.flatMap_cons, List.flatMap_nil, List.length_append, List.length_cons, List.length_nil,
      debugLineLen, prompt]
    omega
  · simp
  · simp

/-- It answers as a shell does. -/
theorem debugPeer_shell (mem : Mem) : DumpShell (DebugPeer.react mem) mem (fun script t => t = ⟨script, [], false⟩)
    fun script t => t = ⟨script, [], true⟩ where
  dumps := by
    rintro script _ addr len rfl pos inRange whole
    have clean : garbledIn script len = none := by
      rw [← Option.not_isSome_iff_eq_none]
      intro breaks
      obtain ⟨g, some'⟩ := Option.isSome_iff_exists.mp breaks
      obtain ⟨rest, rfl, early⟩ := garbledIn_some some'
      have := whole g rfl
      omega
    have covers : 4 * dumpWords len < len + 4 := by
      rw [dumpWords]
      omega
    refine ⟨_, _, @dCommand_echo addr len (by omega) (by omega), wordLines_dump mem ?_, ?_, ?_⟩
    · have : 2 ^ 32 + 4 ≤ 16 ^ 9 := by decide
      omega
    · rw [feed_dCommand, react_dCommand, clean]
    · rw [feed_dCommand, react_dCommand, clean]
  garbles := by
    rintro g script _ addr len rfl early inRange
    have breaks : garbledIn (some g :: script) len = some g := by
      simp [garbledIn, early]
    refine ⟨_, _, @dCommand_echo addr len (by omega) (by omega), wordLines_dump mem ?_, ?_, ?_⟩
    · have : 2 ^ 32 ≤ 16 ^ 9 := by decide
      omega
    · rw [feed_dCommand, react_dCommand, breaks]
    · rw [feed_dCommand, react_dCommand, breaks]
      rfl
  resyncs := by
    rintro script _ rfl
    exact ⟨[], by simp [feed, DebugPeer.react], rfl, by decide, by simp [feed, DebugPeer.react]⟩

end

end Culvert
