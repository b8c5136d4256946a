import Culvert.Lib.Hoare
import Culvert.Lib.ByteMem

/-- A file descriptor that is only written or only read: the bytes written so far, or those still to be
read, and what each call answers, by its number. -/
structure Fd where
  bytes : List Byte
  answers : Nat → Except Errno Nat
  calls : Nat

namespace Fd

/-- A transfer of up to `count` bytes moves one at least, and no more than were asked for. -/
def clamp (count answer : Nat) : Nat := min count (max 1 answer)

theorem clamp_le (count answer : Nat) : clamp count answer ≤ count := Nat.min_le_left _ _

theorem clamp_pos {count : Nat} (some : 0 < count) (answer : Nat) : 0 < clamp count answer := by
  rw [clamp]
  omega

/-- The next call, whose answer is not an error, moves `n` bytes. -/
def answer (fd : Fd) (count : Nat) : Except Errno Nat := (fd.answers fd.calls).map (clamp count)

def write (bs : List Byte) : Prog Fd Nat := fun fd =>
  match fd.answer bs.length with
  | .ok n => .ok n { fd with bytes := fd.bytes ++ bs.take n, calls := fd.calls + 1 }
  | .error e => .error (.rc e) { fd with calls := fd.calls + 1 }

/-- At the end of the bytes the list read is empty. -/
def read (count : Nat) : Prog Fd (List Byte) := fun fd =>
  match fd.answer count with
  | .ok n => .ok (fd.bytes.take n) { fd with bytes := fd.bytes.drop n, calls := fd.calls + 1 }
  | .error e => .error (.rc e) { fd with calls := fd.calls + 1 }

/-- `while (n)` over a `write` of what is left. -/
def writeAll (fuel : Nat) (bs : List Byte) : Prog Fd Unit :=
  Prog.loop (fun cursor => do
    if cursor = [] then return .inr ()
    let n ← write cursor
    return .inl (cursor.drop n)) fuel bs

/-- No call fails. -/
def Works (fd : Fd) : Prop := ∀ n, ∃ k, fd.answers n = .ok k

/-- Another state of the same descriptor. -/
def SameAnswers (fd fd' : Fd) : Prop := fd'.answers = fd.answers

section
variable {fd fd' : Fd}

theorem Works.of_same (works : fd.Works) (same : fd.SameAnswers fd') : fd'.Works := by
  rw [Works, same]
  exact works

theorem Works.answer (works : fd.Works) {count : Nat} (some : 0 < count) :
    ∃ n, fd.answer count = .ok n ∧ 0 < n ∧ n ≤ count := by
  obtain ⟨k, ok⟩ := works fd.calls
  exact ⟨clamp count k, by rw [Fd.answer, ok]; rfl, clamp_pos some k, clamp_le count k⟩

theorem write_works (works : fd.Works) {bs : List Byte} (some : bs ≠ []) : ∃ n fd', (write bs).run fd = .ok n fd' ∧
    0 < n ∧ n ≤ bs.length ∧ fd'.bytes = fd.bytes ++ bs.take n ∧ fd.SameAnswers fd' := by
  obtain ⟨n, ok, pos, le⟩ := works.answer (List.length_pos_iff.mpr some)
  refine ⟨n, { fd with bytes := fd.bytes ++ bs.take n, calls := fd.calls + 1 }, ?_, pos, le, rfl, rfl⟩
  simp only [write, EStateM.run, ok]

/-- What is read comes off the front, and something is unless nothing is left or asked for. -/
theorem read_works (works : fd.Works) (count : Nat) : ∃ n fd', (read count).run fd = .ok (fd.bytes.take n) fd' ∧
    n ≤ count ∧ n ≤ fd.bytes.length ∧ (n = 0 → count = 0 ∨ fd.bytes = []) ∧
    fd'.bytes = fd.bytes.drop n ∧ fd.SameAnswers fd' := by
  obtain ⟨k, ok⟩ := works fd.calls
  have moves : fd.answer count = .ok (clamp count k) := by
    rw [Fd.answer, ok]
    rfl
  have asked : clamp count k ≤ count := clamp_le count k
  have zero : clamp count k = 0 → count = 0 := fun none => by
    by_contra some
    have pos : 0 < clamp count k := clamp_pos (Nat.pos_of_ne_zero some) k
    omega
  by_cases short : clamp count k ≤ fd.bytes.length
  · refine ⟨clamp count k, { fd with bytes := fd.bytes.drop (clamp count k), calls := fd.calls + 1 }, ?_, asked, short,
      fun none => Or.inl (zero none), rfl, rfl⟩
    simp only [read, EStateM.run, moves]
  · refine ⟨fd.bytes.length, { fd with bytes := [], calls := fd.calls + 1 }, ?_, by omega, Nat.le_refl _,
      fun none => Or.inr (List.length_eq_zero_iff.mp none), (List.drop_length (l := fd.bytes)).symm, rfl⟩
    simp only [read, EStateM.run, moves, List.take_length]
    rw [List.take_of_length_le (by omega), List.drop_of_length_le (by omega)]

theorem Works.read_not_error (works : fd.Works) {count : Nat} {e : Stop} : (read count).run fd ≠ .error e fd' := by
  intro run
  obtain ⟨k, _, ok, _⟩ := read_works works count
  rw [ok] at run
  cases run

theorem Works.of_read (works : fd.Works) {count : Nat} {bs : List Byte} (run : (read count).run fd = .ok bs fd') :
    fd'.Works := by
  obtain ⟨k, fd₁, ok, _, _, _, _, same⟩ := read_works works count
  rw [ok] at run
  cases run
  exact works.of_same same

/-- The front of the bytes is written, and some of it, unless the call fails. -/
theorem write_front (fd : Fd) (bs : List Byte) : ∃ fd', fd.SameAnswers fd' ∧
    ((∃ n, (write bs).run fd = .ok n fd' ∧ fd'.bytes = fd.bytes ++ bs.take n ∧ (bs ≠ [] → bs.take n ≠ [])) ∨
      ¬ fd.Works ∧ fd'.bytes = fd.bytes ∧ ∃ e, (write bs).run fd = .error (.rc e) fd') := by
  cases answered : fd.answers fd.calls with
  | ok k =>
    have moves : fd.answer bs.length = .ok (clamp bs.length k) := by
      rw [answer, answered]
      rfl
    refine ⟨{ fd with bytes := fd.bytes ++ bs.take (clamp bs.length k), calls := fd.calls + 1 }, rfl,
      Or.inl ⟨clamp bs.length k, ?_, rfl, fun more none => ?_⟩⟩
    · simp only [write, EStateM.run, moves]
    · have pos := clamp_pos (List.length_pos_iff.mpr more) k
      rcases List.take_eq_nil_iff.mp none with zero | empty
      · omega
      · exact more empty
  | error e =>
    have fails : fd.answer bs.length = .error e := by
      rw [answer, answered]
      rfl
    refine ⟨{ fd with calls := fd.calls + 1 }, rfl, Or.inr ⟨fun works => ?_, rfl, e, ?_⟩⟩
    · obtain ⟨k, ok⟩ := works fd.calls
      rw [answered] at ok
      cases ok
    · simp only [write, EStateM.run, fails]

/-- Every byte is written once, in order, however few each call takes. -/
theorem writeAll_works {fuel : Nat} {bs : List Byte} (works : fd.Works) (enough : bs.length < fuel) :
    ∃ fd', (writeAll fuel bs).run fd = .ok () fd' ∧ fd'.bytes = fd.bytes ++ bs ∧ fd.SameAnswers fd' := by
  induction fuel generalizing fd bs with
  | zero => exact absurd enough (Nat.not_lt_zero _)
  | succ fuel ih =>
    rw [writeAll, Prog.loop]
    by_cases done : bs = []
    · subst done
      exact ⟨fd, rfl, (List.append_nil _).symm, rfl⟩
    · obtain ⟨n, fd₁, run, pos, le, bytes, same⟩ := write_works works done
      have shorter : (bs.drop n).length < fuel := by
        rw [List.length_drop]
        omega
      obtain ⟨fd', rest, bytes', same'⟩ := ih (works.of_same same) shorter
      refine ⟨fd', ?_, ?_, Eq.trans same' same⟩
      · rw [if_neg done, bind_assoc, Prog.run_bind_ok run]
        exact rest
      · rw [bytes', bytes, List.append_assoc, List.take_append_drop]

end

section
variable {bytes : List Byte}

theorem read_triple (count : Nat) : Prog.Triple (fun fd => fd.bytes = bytes) (read count)
    (fun bs fd => bs ++ fd.bytes = bytes) (fun _ fd => fd.bytes = bytes) := by
  intro fd here
  cases answered : fd.answer count with
  | ok n =>
    refine ⟨fun bs fd' run => ?_, fun e fd' run => ?_⟩
    · simp only [read, EStateM.run, answered] at run
      cases run
      rw [← here]
      exact List.take_append_drop n fd.bytes
    · simp only [read, EStateM.run, answered] at run
      cases run
  | error e =>
    refine ⟨fun bs fd' run => ?_, fun e fd' run => ?_⟩
    · simp only [read, EStateM.run, answered] at run
      cases run
    · simp only [read, EStateM.run, answered] at run
      cases run
      exact here

/-- Nothing is read where nothing is left or asked for. -/
theorem read_outcome (count : Nat) : Prog.Triple (fun fd => fd.bytes = bytes) (read count)
    (fun bs fd => bs ++ fd.bytes = bytes ∧ bs.length ≤ count ∧ (bs = [] → count = 0 ∨ bytes = []))
    (fun _ fd => fd.bytes = bytes) := by
  intro fd here
  obtain ⟨split, kept⟩ := @read_triple bytes count fd here
  refine ⟨fun bs fd' run => ⟨split bs fd' run, ?_⟩, kept⟩
  cases answered : fd.answers fd.calls with
  | ok k =>
    have moves : fd.answer count = .ok (clamp count k) := by
      rw [answer, answered]
      rfl
    simp only [read, EStateM.run, moves] at run
    cases run
    rw [here]
    refine ⟨(List.length_take_le _ _).trans (clamp_le count k), fun none => ?_⟩
    rcases List.take_eq_nil_iff.mp none with zero | ended
    · refine Or.inl ?_
      by_contra some
      exact absurd (clamp_pos (Nat.pos_of_ne_zero some) k) (by omega)
    · exact Or.inr ended
  | error e =>
    have fails : fd.answer count = .error e := by
      rw [answer, answered]
      rfl
    simp only [read, EStateM.run, fails] at run
    cases run

theorem write_triple (bs : List Byte) : Prog.Triple (fun fd => fd.bytes = bytes) (write bs)
    (fun n fd => fd.bytes = bytes ++ bs.take n) (fun _ fd => fd.bytes = bytes) := by
  intro fd here
  cases answered : fd.answer bs.length with
  | ok n =>
    refine ⟨fun m fd' run => ?_, fun e fd' run => ?_⟩
    · simp only [write, EStateM.run, answered] at run
      cases run
      rw [← here]
    · simp only [write, EStateM.run, answered] at run
      cases run
  | error e =>
    refine ⟨fun m fd' run => ?_, fun e fd' run => ?_⟩
    · simp only [write, EStateM.run, answered] at run
      cases run
    · simp only [write, EStateM.run, answered] at run
      cases run
      exact here

/-- Where the writes stop early, by an error or otherwise, the bytes not written are the last ones. -/
theorem writeAll_triple (fuel : Nat) (bs : List Byte) : Prog.Triple (fun fd => fd.bytes = bytes) (writeAll fuel bs)
    (fun _ fd => fd.bytes = bytes ++ bs) (fun _ fd => ∃ done left, fd.bytes = bytes ++ done ∧ done ++ left = bs) := by
  have turn (cursor : List Byte) : Prog.Triple (fun fd => ∃ done, fd.bytes = bytes ++ done ∧ done ++ cursor = bs) (do
      if cursor = [] then return .inr ()
      let n ← write cursor
      return .inl (cursor.drop n))
      (fun (r : List Byte ⊕ Unit) fd => r.elim
        (fun cursor => ∃ done, fd.bytes = bytes ++ done ∧ done ++ cursor = bs) fun _ => fd.bytes = bytes ++ bs)
      (fun _ fd => ∃ done left, fd.bytes = bytes ++ done ∧ done ++ left = bs) := by
    by_cases empty : cursor = []
    · rw [if_pos empty]
      refine Prog.Triple.pure fun fd inv => ?_
      obtain ⟨done, here, whole⟩ := inv
      rw [empty, List.append_nil] at whole
      rw [← whole]
      exact here
    · rw [if_neg empty]
      intro fd inv
      obtain ⟨done, here, whole⟩ := inv
      refine ((@write_triple (bytes ++ done) cursor).conseq (fun _ pre => pre) (fun _ _ post => post)
        fun _ fd' same => ⟨done, cursor, same, whole⟩).bind (fun n => Prog.Triple.pure fun fd' post => ?_) fd here
      refine ⟨done ++ cursor.take n, ?_, ?_⟩
      · rw [post, List.append_assoc]
      · rw [List.append_assoc, List.take_append_drop]
        exact whole
  refine (Prog.Triple.loop (fun cursor fd => ∃ done, fd.bytes = bytes ++ done ∧ done ++ cursor = bs) turn
    (fun cursor fd inv => ?_) fuel bs).conseq (fun fd here => ⟨[], ?_, rfl⟩) (fun _ _ post => post) fun _ _ stop => stop
  · obtain ⟨done, here, whole⟩ := inv
    exact ⟨done, cursor, here, whole⟩
  · rw [here, List.append_nil]

end

end Fd
