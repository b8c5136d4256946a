import Culvert.Bridge.Debug

/-! A serial port with a peer that answers each byte it gets. -/

namespace Culvert
open Prog

/-- The peer, what it has sent and is still to be read, and how much each call on the port moves, by its number. -/
structure Serial (τ : Type) where
  peer : τ
  out : List Byte
  answers : Nat → Except Errno Nat
  calls : Nat

section
variable {τ : Type} (react : τ → Byte → τ × List Byte)

/-- What becomes of the peer, and what it sends. -/
def feed (peer : τ) : List Byte → τ × List Byte
  | [] => (peer, [])
  | b :: bs =>
    let (peer, sent) := react peer b
    let (peer, more) := feed peer bs
    (peer, sent ++ more)

/-- A transfer of up to `count` bytes moves one at least, and no more than were asked for. -/
def transferred (count answer : Nat) : Nat := min count (max 1 answer)

def serialWrite (bs : List Byte) : Prog (Serial τ) Nat := fun s =>
  match s.answers s.calls with
  | .error e => .error (.rc e) { s with calls := s.calls + 1 }
  | .ok k =>
    let n := transferred bs.length k
    let (peer, sent) := feed react s.peer (bs.take n)
    .ok n { s with peer, out := s.out ++ sent, calls := s.calls + 1 }

/-- A read waits for as long as there is nothing to read. -/
def serialRead (count : Nat) : Prog (Serial τ) (List Byte) := fun s =>
  match s.answers s.calls with
  | .error e => .error (.rc e) { s with calls := s.calls + 1 }
  | .ok k =>
    if s.out = [] then .error .hang s
    else
      let n := transferred count k
      .ok (s.out.take n) { s with out := s.out.drop n, calls := s.calls + 1 }

def serialTty (blksize : Nat) : Tty (Serial τ) where
  read := serialRead
  write := serialWrite react
  blksize := blksize

end

/-- No call fails. -/
def Serial.Works {τ : Type} (s : Serial τ) : Prop := ∀ n, ∃ k, s.answers n = .ok k

/-- The bytes `sent` have gone to the peer and the bytes `got` have come from it, past the stream's buffer. -/
structure Moved {τ : Type} (react : τ → Byte → τ × List Byte) (s : Stream (Serial τ)) (sent got : List Byte)
    (s' : Stream (Serial τ)) : Prop where
  peer : s'.dev.peer = (feed react s.dev.peer sent).1
  out : got ++ s'.dev.out = s.dev.out ++ (feed react s.dev.peer sent).2
  buffer : s'.buffer = s.buffer
  errno : s'.errno = s.errno
  answers : s'.dev.answers = s.dev.answers

section
variable {τ : Type} {react : τ → Byte → τ × List Byte} {blksize fuel : Nat}
variable {s s₁ s' : Stream (Serial τ)} {sent sent' got got' : List Byte}

theorem feed_append (peer : τ) (bs cs : List Byte) : feed react peer (bs ++ cs) =
    ((feed react (feed react peer bs).1 cs).1, (feed react peer bs).2 ++ (feed react (feed react peer bs).1 cs).2) := by
  induction bs generalizing peer with
  | nil => rfl
  | cons b bs ih => simp [feed, ih]

theorem Moved.refl (s : Stream (Serial τ)) : Moved react s [] [] s :=
  ⟨rfl, by simp [feed], rfl, rfl, rfl⟩

theorem Moved.trans (first : Moved react s sent got s₁) (second : Moved react s₁ sent' got' s') :
    Moved react s (sent ++ sent') (got ++ got') s' where
  peer := by rw [second.peer, first.peer, feed_append]
  out := by rw [List.append_assoc, second.out, feed_append, ← first.peer, ← List.append_assoc, first.out, List.append_assoc]
  buffer := second.buffer.trans first.buffer
  errno := second.errno.trans first.errno
  answers := second.answers.trans first.answers

theorem Moved.works (moved : Moved react s sent got s') (works : s.dev.Works) : s'.dev.Works := by
  rw [Serial.Works, moved.answers]
  exact works

theorem sys_write (bs : List Byte) :
    (∃ n s', (sys ((serialTty react blksize).write bs)).run s = .ok n s' ∧ n ≤ bs.length ∧ (bs ≠ [] → 0 < n) ∧
      Moved react s (bs.take n) [] s') ∨
    ¬ s.dev.Works ∧ ∃ e s', (sys ((serialTty react blksize).write bs)).run s = .error (.rc e) s' := by
  cases answer : s.dev.answers s.dev.calls with
  | error e =>
    refine Or.inr ⟨fun works => ?_, e, { s with dev := { s.dev with calls := s.dev.calls + 1 }, errno := some e }, ?_⟩
    · obtain ⟨k, ok⟩ := works s.dev.calls
      rw [ok] at answer
      cases answer
    · simp only [sys, serialTty, serialWrite, EStateM.run, answer]
  | ok k =>
    have long (some' : bs ≠ []) : 0 < bs.length := List.length_pos_iff.mpr some'
    refine Or.inl ⟨transferred bs.length k, { s with dev := { s.dev with
      peer := (feed react s.dev.peer (bs.take (transferred bs.length k))).1
      out := s.dev.out ++ (feed react s.dev.peer (bs.take (transferred bs.length k))).2
      calls := s.dev.calls + 1 } }, ?_, ?_, ?_, ⟨rfl, rfl, rfl, rfl, rfl⟩⟩
    · simp only [sys, serialTty, serialWrite, EStateM.run, answer]
    · exact Nat.min_le_left _ _
    · intro some'
      have := long some'
      rw [transferred]
      omega

theorem sys_read {count : Nat} (pos : 0 < count) :
    (∃ bs s', (sys ((serialTty react blksize).read count)).run s = .ok bs s' ∧ bs ≠ [] ∧ bs.length ≤ count ∧
      Moved react s [] bs s') ∨
    (s.dev.out = [] ∧ (sys ((serialTty react blksize).read count)).run s = .error .hang s) ∨
    ¬ s.dev.Works ∧ ∃ e s', (sys ((serialTty react blksize).read count)).run s = .error (.rc e) s' := by
  cases answer : s.dev.answers s.dev.calls with
  | error e =>
    refine Or.inr (Or.inr ⟨fun works => ?_, e, { s with dev := { s.dev with calls := s.dev.calls + 1 }, errno := some e }, ?_⟩)
    · obtain ⟨k, ok⟩ := works s.dev.calls
      rw [ok] at answer
      cases answer
    · simp only [sys, serialTty, serialRead, EStateM.run, answer]
  | ok k =>
    by_cases empty : s.dev.out = []
    · refine Or.inr (Or.inl ⟨empty, ?_⟩)
      simp only [sys, serialTty, serialRead, EStateM.run, answer, if_pos empty]
    · refine Or.inl ⟨s.dev.out.take (transferred count k), { s with dev := { s.dev with
        out := s.dev.out.drop (transferred count k), calls := s.dev.calls + 1 } }, ?_, ?_, ?_, rfl, ?_, rfl, rfl, rfl⟩
      · simp only [sys, serialTty, serialRead, EStateM.run, answer, if_neg empty]
      · have some' : 0 < s.dev.out.length := List.length_pos_iff.mpr empty
        rw [← List.length_pos_iff, List.length_take, transferred]
        omega
      · rw [List.length_take, transferred]
        omega
      · simp [feed]

/-- Either everything is written, or a call has failed. -/
theorem promptWrite_serial {buf : List Byte} (enough : buf.length < fuel) :
    (∃ s', (promptWrite (serialTty react blksize) fuel buf).run s = .ok () s' ∧ Moved react s buf [] s') ∨
    ¬ s.dev.Works ∧ ∃ e s', (promptWrite (serialTty react blksize) fuel buf).run s = .error (.rc e) s' := by
  induction fuel generalizing buf s with
  | zero => exact absurd enough (Nat.not_lt_zero _)
  | succ fuel ih =>
    rw [promptWrite, Prog.loop, promptWriteTurn, bind_assoc]
    rcases @sys_write τ react blksize s buf with ⟨n, s₁, run, le, pos, moved⟩ | ⟨broken, e, s₁, run⟩
    · rw [run_bind_ok run]
      by_cases last : buf.drop n = []
      · have all : buf.take n = buf := by
          rw [← List.append_nil (buf.take n), ← last, List.take_append_drop]
        rw [all] at moved
        simp only [if_pos last, pure_bind]
        exact Or.inl ⟨s₁, rfl, moved⟩
      · have some' : buf ≠ [] := by
          rintro rfl
          exact last List.drop_nil
        have progress := pos some'
        simp only [if_neg last, pure_bind]
        have shorter : (buf.drop n).length < fuel := by
          rw [List.length_drop]
          omega
        rcases ih (s := s₁) shorter with ⟨s', rest, moved'⟩ | ⟨broken, e, s', rest⟩
        · have both := moved.trans moved'
          rw [List.take_append_drop] at both
          exact Or.inl ⟨s', rest, both⟩
        · exact Or.inr ⟨fun works => broken (moved.works works), e, s', rest⟩
    · exact Or.inr ⟨broken, e, s₁, run_bind_error run⟩

/-- A command goes out with a carriage return. -/
theorem promptRun_serial {cmd : List Char} (enough : cmd.length + 1 < fuel) :
    (∃ s', (promptRun (serialTty react blksize) fuel debugPrompt cmd).run s = .ok () s' ∧
      Moved react s (Text.toBytes cmd ++ [13]) [] s') ∨
    ¬ s.dev.Works ∧ ∃ e s', (promptRun (serialTty react blksize) fuel debugPrompt cmd).run s = .error (.rc e) s' := by
  have first : (Text.toBytes cmd).length < fuel := by
    rw [Text.toBytes, List.length_map]
    omega
  have last : (Text.toBytes debugPrompt.eol).length < fuel := by
    show 1 < fuel
    omega
  rw [promptRun]
  rcases @promptWrite_serial τ react blksize fuel s _ first with ⟨s₁, run, moved⟩ | ⟨broken, e, s₁, run⟩
  · rw [run_bind_ok run]
    rcases @promptWrite_serial τ react blksize fuel s₁ _ last with ⟨s', run', moved'⟩ | ⟨broken, e, s', run'⟩
    · rw [run_bind_ok run']
      exact Or.inl ⟨s', rfl, moved.trans moved'⟩
    · exact Or.inr ⟨fun works => broken (moved.works works), e, s', run_bind_error run'⟩
  · exact Or.inr ⟨broken, e, s₁, run_bind_error run⟩

/-- How looking for `str` in what comes can end, with room for `len` bytes. -/
def Expected (react : τ → Byte → τ × List Byte) (str : List Byte) (len : Nat) (s : Stream (Serial τ)) :
    EStateM.Result Stop (Stream (Serial τ)) (List Byte × Option Nat) → Prop
  | .ok (prior, some p) s' => Text.memmem str s.dev.out = some p ∧ p + str.length ≤ prior.length ∧ prior.length ≤ len ∧
    Moved react s [] prior s'
  | .ok (prior, none) s' => Text.memmem str prior = none ∧ prior.length = len ∧ Moved react s [] prior s'
  | .error .hang _ => Text.memmem str s.dev.out = none ∧ s.dev.out.length < len
  | .error (.rc _) _ => ¬ s.dev.Works
  | .error .fault _ => False

theorem Moved.prior (moved : Moved react s [] got s') : got ++ s'.dev.out = s.dev.out := by
  rw [moved.out, feed, List.append_nil]

/-- It is found where it is first. Otherwise the buffer is filled, or the read waits for good. -/
theorem promptExpectInto_serial {str : List Byte} {len : Nat} (some' : str ≠ []) (pos : 0 < len) (enough : len < fuel) :
    Expected react str len s ((promptExpectInto (serialTty react blksize) fuel str len).run s) := by
  have turns (fuel : Nat) (prior : List Byte) (s₁ : Stream (Serial τ)) (room : prior.length < len)
      (enough : len - prior.length < fuel) (moved : Moved react s [] prior s₁) (fresh : Text.memmem str prior = none) :
      Expected react str len s
        ((loop (promptExpectIntoTurn (serialTty react blksize) str len) fuel prior).run s₁) := by
    induction fuel generalizing prior s₁ with
    | zero => exact absurd enough (Nat.not_lt_zero _)
    | succ fuel ih =>
      rw [loop, promptExpectIntoTurn, bind_assoc]
      rcases @sys_read τ react blksize s₁ (len - prior.length) (by omega) with
        ⟨bs, s₂, run, more, le, moved'⟩ | ⟨empty, run⟩ | ⟨broken, e, s₂, run⟩
      · have long : 0 < bs.length := List.length_pos_iff.mpr more
        have both : Moved react s [] (prior ++ bs) s₂ := moved.trans moved'
        have length : (prior ++ bs).length ≤ len := by
          rw [List.length_append]
          omega
        have front : s.dev.out.take (prior ++ bs).length = prior ++ bs := by
          rw [← both.prior, List.take_left]
        rw [run_bind_ok run]
        cases found : Text.memmem str (prior ++ bs) with
        | some p =>
          simp only [found, pure_bind]
          have whole := found
          rw [← front, Text.memmem_take some'] at whole
          exact ⟨whole.1, whole.2, length, both⟩
        | none =>
          by_cases left : (prior ++ bs).length < len
          · simp only [found, if_pos left, pure_bind]
            refine ih (prior ++ bs) s₂ left ?_ both found
            rw [List.length_append] at left ⊢
            omega
          · simp only [found, if_neg left, pure_bind]
            exact ⟨found, by omega, both⟩
      · rw [run_bind_error run]
        have whole := moved.prior
        rw [empty, List.append_nil] at whole
        exact ⟨whole ▸ fresh, whole ▸ room⟩
      · rw [run_bind_error run]
        exact fun works => broken (moved.works works)
  have fresh : Text.memmem str [] = none := by rw [Text.memmem, if_neg some']
  exact turns fuel [] s pos (by simpa using enough) (Moved.refl s) fresh

/-- A text that comes and fits is found. -/
theorem promptExpectInto_found {str : List Byte} {len p : Nat} (works : s.dev.Works) (some' : str ≠ []) (enough : len < fuel)
    (found : Text.memmem str s.dev.out = some p) (fits : p + str.length ≤ len) :
    ∃ prior s', (promptExpectInto (serialTty react blksize) fuel str len).run s = .ok (prior, some p) s' ∧
      p + str.length ≤ prior.length ∧ Moved react s [] prior s' := by
  have long : 0 < str.length := List.length_pos_iff.mpr some'
  have outcome := @promptExpectInto_serial τ react blksize fuel s str len some' (by omega) enough
  match run : (promptExpectInto (serialTty react blksize) fuel str len).run s, outcome with
  | .ok (prior, some q) s', ⟨there, inside, _, moved⟩ =>
    rw [found] at there
    cases there
    exact ⟨prior, s', rfl, inside, moved⟩
  | .ok (prior, none) s', ⟨missing, full, moved⟩ =>
    have here : Text.memmem str (s.dev.out.take len) = some p := (Text.memmem_take some').mpr ⟨found, fits⟩
    rw [← moved.prior, ← full, List.take_left, missing] at here
    cases here
  | .error .hang _, ⟨missing, _⟩ =>
    rw [found] at missing
    cases missing
  | .error (.rc _) _, broken => exact absurd works broken
  | .error .fault _, never => exact never.elim

/-- What is read is all there is, where that ends with the text. -/
theorem promptExpectInto_whole {str noise : List Byte} {len : Nat} (works : s.dev.Works) (some' : str ≠ [])
    (enough : len < fuel) (out : s.dev.out = noise ++ str)
    (first : Text.memmem str (noise ++ str) = some noise.length) (fits : noise.length + str.length ≤ len) :
    ∃ s', (promptExpectInto (serialTty react blksize) fuel str len).run s = .ok (noise ++ str, some noise.length) s' ∧
      s'.dev.out = [] ∧ Moved react s [] (noise ++ str) s' := by
  rw [← out] at first
  obtain ⟨prior, s', run, long, moved⟩ := @promptExpectInto_found τ react blksize fuel s str len noise.length works some'
    enough first fits
  have whole := moved.prior
  rw [out] at whole
  have none : s'.dev.out = [] := by
    have length := congrArg List.length whole
    rw [List.length_append, List.length_append] at length
    exact List.length_eq_zero_iff.mp (by omega)
  rw [none, List.append_nil] at whole
  rw [whole] at run moved
  exact ⟨s', run, none, moved⟩

/-- A prompt that comes within one buffer's worth is taken off. -/
theorem promptExpect_whole {str noise : List Byte} (works : s.dev.Works) (some' : str ≠ []) (enough : 100 < fuel)
    (out : s.dev.out = noise ++ str) (first : Text.memmem str (noise ++ str) = some noise.length)
    (fits : noise.length + str.length ≤ 100) :
    ∃ s', (promptExpect (serialTty react blksize) fuel str).run s = .ok () s' ∧ s'.dev.out = [] ∧
      Moved react s [] (noise ++ str) s' := by
  obtain ⟨s', run, none, moved⟩ := @promptExpectInto_whole τ react blksize fuel s str noise 100 works some' enough out
    first fits
  obtain ⟨fuel, rfl⟩ : ∃ k, fuel = k + 1 := ⟨fuel - 1, by omega⟩
  refine ⟨s', ?_, none, moved⟩
  rw [promptExpect, Prog.loop, promptExpectTurn, bind_assoc, run_bind_ok run]
  rfl

end

end Culvert
