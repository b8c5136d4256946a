import Culvert.Bridge.Debug
import Culvert.Bridge.Serial
import Culvert.Lib.Numeral

namespace Culvert
open Prog

/-- What comes before the first prompt, as a string, where that prompt is in the first 100 bytes. -/
def Prompted (response : List Byte) (text : List Char) : Prop := ∃ p, Text.memmem debugShell response = some p ∧
  p + debugShell.length ≤ 100 ∧ text = Text.cString (Text.ofBytes (response.take p))

/-- An echoed command line, and behind it the number `z`. -/
def Echoed (text : List Char) (z : Int) : Prop :=
  ∃ echo rest, text = echo ++ '\r' :: rest ∧ '\r' ∉ echo ∧ Text.Numeral rest z

/-- The response has a prompt that fits the buffer, and a number of 32 bits after the echo. -/
def RespondsWith (response : List Byte) (val : Word) : Prop :=
  ∃ text, Prompted response text ∧ Echoed text val.toNat

/-- `debug_readl` stores through the prompt pointer only where there is a prompt, returns only the number that was
sent, and an error where there is none. -/
def ReadlSound {σ : Type} (response : List Byte) (result : EStateM.Result Stop σ Word) : Prop :=
  (∀ s', result ≠ .error .fault s') ∧ (∀ val s', result = .ok val s' → RespondsWith response val) ∧
  ((¬ ∃ val, RespondsWith response val) → ∃ e s', result = .error (.rc e) s')

/-- There is a prompt that fits the buffer, and before it there is no end of an echoed line, or a number follows that
which has 32 bits, or more than 64. -/
def ReadlFits (response : List Byte) : Prop := ∃ text, Prompted response text ∧
  ('\r' ∉ text ∨ ∃ z, Echoed text z ∧ (0 ≤ z ∧ z < 2 ^ 32 ∨ 2 ^ 64 ≤ z.natAbs))

section
variable {τ : Type} {react : τ → Byte → τ × List Byte} {blksize fuel : Nat} {s : Stream (Serial τ)} {phys : Word}

/-- All that there is to read once the command has been sent. -/
def readlResponse (react : τ → Byte → τ × List Byte) (s : Stream (Serial τ)) (phys : Word) : List Byte :=
  s.dev.out ++ (feed react s.dev.peer (Text.toBytes ('r' :: ' ' :: Text.hex phys.toNat) ++ [13])).2

theorem hex_length_le (w : Word) : (Text.hex w.toNat).length ≤ 8 := Text.hex_length (by decide) w.isLt

theorem debugReadl_outcome (enough : 100 < fuel) :
    (¬ s.dev.Works ∧ ∃ e s', (debugReadl (serialTty react blksize) fuel phys).run s = .error (.rc e) s') ∨
    ((¬ ∃ text, Prompted (readlResponse react s phys) text) ∧
      ∃ e s', (∀ r, e ≠ Stop.rc r) ∧ (debugReadl (serialTty react blksize) fuel phys).run s = .error e s') ∨
    ∃ text, Prompted (readlResponse react s phys) text ∧
      (('\r' ∉ text ∧ ∃ e s', (debugReadl (serialTty react blksize) fuel phys).run s = .error (.rc e) s') ∨
      ∃ echo rest, text = echo ++ '\r' :: rest ∧ '\r' ∉ echo ∧
        ((Text.strtoulRange 16 ('\r' :: rest) = true ∧
          ∃ e s', (debugReadl (serialTty react blksize) fuel phys).run s = .error (.rc e) s') ∨
        (Text.strtoulRange 16 ('\r' :: rest) = false ∧ ∃ s', (debugReadl (serialTty react blksize) fuel phys).run s =
          .ok (BitVec.ofNat 32 (Text.strtoul 16 ('\r' :: rest)).1) s'))) := by
  have short : ('r' :: ' ' :: Text.hex phys.toNat).length + 1 < fuel := by
    have := hex_length_le phys
    simp only [List.length_cons]
    omega
  have known : ¬ ¬ ('r' = 'i' ∨ 'r' = 'r') := fun not => not (Or.inr rfl)
  have some' : debugShell ≠ [] := by decide
  rw [debugReadl, debugReadFixed, if_neg known]
  rcases @promptRun_serial τ react blksize fuel s _ short with ⟨s₁, sends, moved⟩ | ⟨broken, e, s₁, fails⟩
  · have response : s₁.dev.out = readlResponse react s phys := moved.out
    have outcome := @promptExpectInto_serial τ react blksize fuel s₁ debugShell 100 some' (by decide) enough
    have reads : (promptRunExpect (serialTty react blksize) fuel debugPrompt ('r' :: ' ' :: Text.hex phys.toNat)
        debugShell 100).run s = (promptExpectInto (serialTty react blksize) fuel debugShell 100).run s₁ := by
      rw [promptRunExpect, run_bind_ok sends]
    rw [← response]
    match run : (promptExpectInto (serialTty react blksize) fuel debugShell 100).run s₁, outcome with
    | .ok (prior, some p) s₂, ⟨found, inside, fits, moved'⟩ =>
      rw [run] at reads
      have front : prior.take p = s₁.dev.out.take p := by
        rw [← moved'.prior, List.take_append_of_le_length (by omega)]
      refine Or.inr (Or.inr ⟨Text.cString (Text.ofBytes (prior.take p)), ⟨p, found, by omega, by rw [front]⟩, ?_⟩)
      cases echoed : Text.strchr (Text.cString (Text.ofBytes (prior.take p))) '\r' with
      | none =>
        refine Or.inl ⟨Text.strchr_none.mp echoed, eio, s₂, ?_⟩
        rw [run_bind_ok reads]
        simp only [debugPrompt, List.head?_cons, Option.bind_some, echoed]
        rfl
      | some response =>
        obtain ⟨echo, rest, shape, fresh, rfl⟩ := Text.strchr_some echoed
        refine Or.inr ⟨echo, rest, shape, fresh, ?_⟩
        cases range : Text.strtoulRange 16 ('\r' :: rest) with
        | true =>
          obtain ⟨z, numeral⟩ := Text.numeral_of_range range
          obtain ⟨big, value⟩ := Text.strtoul_numeral numeral
          rw [range, eq_comm, decide_eq_true_eq] at big
          rw [if_pos big] at value
          refine Or.inl ⟨rfl, erange, { s₂ with errno := some erange }, ?_⟩
          rw [run_bind_ok reads]
          simp only [debugPrompt, List.head?_cons, Option.bind_some, echoed, range, value]
          rfl
        | false =>
          refine Or.inr ⟨rfl, { s₂ with errno := none }, ?_⟩
          rw [run_bind_ok reads]
          simp only [debugPrompt, List.head?_cons, Option.bind_some, echoed, range]
          rfl
    | .ok (prior, none) s₂, ⟨missing, full, moved'⟩ =>
      rw [run] at reads
      refine Or.inr (Or.inl ⟨?_, .fault, s₂, (by simp), ?_⟩)
      · rintro ⟨text, p, found, fits, _⟩
        have here : Text.memmem debugShell (s₁.dev.out.take 100) = some p := (Text.memmem_take some').mpr ⟨found, fits⟩
        rw [← moved'.prior, ← full, List.take_left, missing] at here
        cases here
      · rw [run_bind_ok reads]
        rfl
    | .error .hang s₂, ⟨missing, _⟩ =>
      rw [run] at reads
      refine Or.inr (Or.inl ⟨?_, .hang, s₂, (by simp), ?_⟩)
      · rintro ⟨text, p, found, _⟩
        rw [missing] at found
        cases found
      · rw [run_bind_error reads]
    | .error (.rc e) s₂, broken =>
      rw [run] at reads
      exact Or.inl ⟨fun works => broken (moved.works works), e, s₂, by rw [run_bind_error reads]⟩
    | .error .fault _, never => exact never.elim
  · have reads : (promptRunExpect (serialTty react blksize) fuel debugPrompt ('r' :: ' ' :: Text.hex phys.toNat)
        debugShell 100).run s = .error (.rc e) s₁ := by
      rw [promptRunExpect, run_bind_error fails]
    exact Or.inl ⟨broken, e, s₁, by rw [run_bind_error reads]⟩

theorem prompted_unique {response : List Byte} {text text' : List Char} (first : Prompted response text)
    (second : Prompted response text') : text' = text := by
  obtain ⟨p, found, _, rfl⟩ := first
  obtain ⟨p', found', _, rfl⟩ := second
  rw [found] at found'
  cases found'
  rfl

/-- An error code is always sound. -/
theorem readlSound_rc {response : List Byte} {σ : Type} {s' : σ} {e : Errno} : ReadlSound response (.error (.rc e) s') :=
  ⟨fun _ never => (nomatch never), fun _ _ never => (nomatch never), fun _ => ⟨e, s', rfl⟩⟩

/-- Whatever comes and however it is cut up, `debug_readl` is sound where the response fits; where no call on the port
fails it is sound nowhere else. -/
theorem debugReadl_sound_iff (react : τ → Byte → τ × List Byte) (blksize : Nat) (s : Stream (Serial τ)) (phys : Word) :
    (ReadlFits (readlResponse react s phys) → ∀ fuel > 100, ReadlSound (readlResponse react s phys)
      ((debugReadl (serialTty react blksize) fuel phys).run s)) ∧
    (s.dev.Works → ((∀ fuel > 100, ReadlSound (readlResponse react s phys)
      ((debugReadl (serialTty react blksize) fuel phys).run s)) ↔ ReadlFits (readlResponse react s phys))) := by
  have back (blank : Text.isSpace '\r' = true) {rest : List Char} {z : Int} :
      Text.Numeral ('\r' :: rest) z ↔ Text.Numeral rest z := Text.numeral_cons_space blank
  have enough (fits : ReadlFits (readlResponse react s phys)) (fuel : Nat) (enough : fuel > 100) :
      ReadlSound (readlResponse react s phys) ((debugReadl (serialTty react blksize) fuel phys).run s) := by
    obtain ⟨text, prompted, what⟩ := fits
    rcases @debugReadl_outcome τ react blksize fuel s phys enough with
      ⟨_, e, s', run⟩ | ⟨missing, _⟩ | ⟨text', prompted', ⟨_, e, s', run⟩ | ⟨echo, rest, shape, fresh, reads⟩⟩
    · rw [run]
      exact readlSound_rc
    · exact absurd ⟨text, prompted⟩ missing
    · rw [run]
      exact readlSound_rc
    · rcases reads with ⟨_, e, s', run⟩ | ⟨range, s', run⟩
      · rw [run]
        exact readlSound_rc
      · rw [prompted_unique prompted prompted'] at shape
        rcases what with none | ⟨z, ⟨echo', rest', shape', fresh', numeral⟩, size⟩
        · exact absurd (shape ▸ by simp) none
        · have same : rest' = rest := by
            have tail := Text.strchr_append rest fresh
            rw [← shape, shape', Text.strchr_append rest' fresh'] at tail
            exact (List.cons.inj (Option.some.inj tail)).2
          rw [same] at numeral shape'
          obtain ⟨big, value⟩ := Text.strtoul_numeral ((back (by decide)).mpr numeral)
          have small : ¬ 2 ^ 64 ≤ z.natAbs := by
            rw [range, eq_comm, decide_eq_false_iff_not] at big
            exact big
          obtain ⟨nonneg, lt⟩ := size.resolve_right small
          rw [if_neg small] at value
          have answer : RespondsWith (readlResponse react s phys) (BitVec.ofNat 32 (Text.strtoul 16 ('\r' :: rest)).1) := by
            refine ⟨text, prompted, echo', rest, shape', fresh', ?_⟩
            have exact' : ((BitVec.ofNat 32 (Text.strtoul 16 ('\r' :: rest)).1).toNat : Int) = z := by
              rw [value, BitVec.toNat_ofNat]
              omega
            rw [exact']
            exact numeral
          rw [run]
          refine ⟨fun _ never => (nomatch never), fun val s'' same => ?_, fun none => absurd ⟨_, answer⟩ none⟩
          cases same
          exact answer
  refine ⟨enough, fun works => ⟨fun sound => ?_, enough⟩⟩
  have sound := sound 101 (by decide)
  rcases @debugReadl_outcome τ react blksize 101 s phys (by decide) with
    ⟨broken, _⟩ | ⟨missing, e, s', stop, run⟩ | ⟨text, prompted, ⟨none, _⟩ | ⟨echo, rest, shape, fresh, reads⟩⟩
  · exact absurd works broken
  · rw [run] at sound
    obtain ⟨e', s'', same⟩ := sound.2.2 fun ⟨val, text, prompted, _⟩ => missing ⟨text, prompted⟩
    cases same
    exact absurd rfl (stop e')
  · exact ⟨text, prompted, Or.inl none⟩
  · rcases reads with ⟨range, _⟩ | ⟨range, s', run⟩
    · obtain ⟨z, numeral⟩ := Text.numeral_of_range range
      obtain ⟨big, _⟩ := Text.strtoul_numeral numeral
      rw [range, eq_comm, decide_eq_true_eq] at big
      exact ⟨text, prompted, Or.inr ⟨z, ⟨echo, rest, shape, fresh, (back (by decide)).mp numeral⟩, Or.inr big⟩⟩
    · rw [run] at sound
      obtain ⟨text', prompted', echoed⟩ := sound.2.1 _ s' rfl
      rw [prompted_unique prompted prompted'] at echoed
      exact ⟨text, prompted, Or.inr ⟨_, echoed, Or.inl ⟨Int.natCast_nonneg _, Int.ofNat_lt.mpr (BitVec.isLt _)⟩⟩⟩

end

/-- A peer that says nothing more. -/
def silent (_ : Unit) (_ : Byte) : Unit × List Byte := ((), [])

/-- A stream on which there is this to read, as much at a time as is asked for. -/
def pendingStream (out : List Byte) : Stream (Serial Unit) := ⟨⟨(), out, fun _ => .ok 1024, 0⟩, [], none⟩

set_option maxRecDepth 4000 in
/-- The echo, the number and the prompt. -/
theorem debugReadl_sound_number : ReadlSound (Text.toBytes "r 1e6e2000\r\n00000303\r\n$ ".toList)
    ((debugReadl (serialTty silent 1024) 101 0x1e6e2000).run
      (pendingStream (Text.toBytes "r 1e6e2000\r\n00000303\r\n$ ".toList))) := by
  refine (debugReadl_sound_iff silent 1024
    (pendingStream (Text.toBytes "r 1e6e2000\r\n00000303\r\n$ ".toList)) 0x1e6e2000).1 ?_ 101 (by decide)
  refine ⟨"r 1e6e2000\r\n00000303\r\n".toList, ⟨22, rfl, by decide, rfl⟩, Or.inr ⟨0x303, ?_, by decide⟩⟩
  refine ⟨"r 1e6e2000".toList, "\n00000303\r\n".toList, rfl, by decide, ['\n'], [], [], "00000303".toList, ['\r', '\n'],
    rfl, List.all_eq_true.mp rfl, by decide, by decide, by decide, List.all_eq_true.mp rfl, ?_, ?_, rfl⟩
  · rintro _ ⟨⟩
    decide
  · exact fun _ never => absurd never (by decide)

set_option maxRecDepth 4000 in
/-- A hundred bytes without a prompt: the write through the prompt pointer is through a null pointer. -/
theorem debugReadl_no_prompt : ¬ ReadlSound (List.replicate 100 0x78)
    ((debugReadl (serialTty silent 1024) 101 0x1e6e2000).run (pendingStream (List.replicate 100 0x78))) :=
  fun sound => sound.1 _ rfl

end Culvert
