import Culvert.Bridge.PromptFeed

/-! What waits for more once the other side has closed the stream. -/

namespace Culvert
open Prog

/-- What waits for the stream, with what it waits for. -/
inductive PromptCall where
  | expect (str : List Byte)
  | expectInto (str : List Byte) (len : Nat) (pos : 0 < len)
  | read (len : Nat)

/-- A value in `Q` comes back, or an error. -/
def Returned {σ α : Type} (Q : α → σ → Prop) : EStateM.Result Stop σ α → Prop
  | .ok a s' => Q a s'
  | .error (.rc _) _ => True
  | .error _ _ => False

/-- The call comes back, and with an error unless it has received what it waits for. -/
def PromptCall.Ends (f : Feed) (blksize : Nat) (s : Stream (List (List Byte))) : PromptCall → Prop
  | expect str => ComesTo (fun fuel => promptExpect (feedTty f blksize) fuel str) s
    (Returned fun _ s' => str <:+: s'.dev.flatten)
  | expectInto str len _ => ComesTo (fun fuel => promptExpectInto (feedTty f blksize) fuel str len) s
    (Returned fun _ _ => True)
  | read len => ComesTo (fun fuel => promptRead (feedTty f blksize) fuel len) s
    (Returned fun output s' => output.length = len ∧ s'.dev.flatten = output)

/-- What the call waits for is in the text, where the call sees it. -/
def PromptCall.Served (text : List Byte) : PromptCall → Prop
  | expect str => ∃ q, str <+: text.drop q ∧ q % 100 + str.length ≤ 100
  | expectInto str len _ => len ≤ text.length ∨ str <:+: text
  | read len => len ≤ text.length

section
variable {f : Feed} {blksize fuel len start : Nat} {str text : List Byte} {s s' : Stream (List (List Byte))}
variable {cuts : Nat → Bool}

theorem sys_front (count : Nat) : Triple (fun s : Stream (List (List Byte)) => f.Front s.dev)
    (sys ((feedTty f blksize).read count)) (fun _ s => f.Front s.dev) fun _ _ => True := by
  intro s front
  refine ⟨fun bs s' run => ?_, fun _ _ _ => trivial⟩
  cases first : (f.read count).run s.dev with
  | ok bs' handed =>
    rw [feedTty_read, sys_ok first] at run
    cases run
    exact (Feed.read_front count s.dev front).1 bs handed first
  | error e handed =>
    have here : f.read count s.dev = .error e handed := first
    simp only [sys, feedTty_read, EStateM.run, here] at run
    cases e <;> cases run

theorem promptExpect_front : Triple (fun s : Stream (List (List Byte)) => f.Front s.dev)
    (promptExpect (feedTty f blksize) fuel str) (fun _ s => f.Front s.dev) fun _ _ => True := by
  have into : Triple (fun s : Stream (List (List Byte)) => f.Front s.dev)
      (promptExpectInto (feedTty f blksize) fuel str 100) (fun _ s => f.Front s.dev) fun _ _ => True := by
    refine Triple.loop (fun _ (s : Stream (List (List Byte))) => f.Front s.dev) (E := fun _ _ => True)
      (fun prior => (sys_front _).bind fun bs => ?_) (fun _ _ _ => trivial) fuel []
    cases found : Text.memmem str (prior ++ bs) with
    | some p =>
      simp only [found]
      exact Triple.pure fun _ post => post
    | none =>
      simp only [found]
      exact Triple.ite (Triple.pure fun _ post => post) (Triple.pure fun _ post => post)
  refine Triple.loop (fun _ (s : Stream (List (List Byte))) => f.Front s.dev) (E := fun _ _ => True)
    (fun _ => into.bind fun r => ?_) (fun _ _ _ => trivial) fuel ()
  obtain ⟨_, _ | _⟩ := r
  · exact Triple.pure fun _ post => post
  · exact Triple.pure fun _ post => post

/-- An empty text is found in whatever the first read brings. -/
theorem promptExpectInto_empty (closed : f.closed = true) (some' : 0 < fuel) (pos : 0 < len) :
    ∃ prior s', (promptExpectInto (feedTty f blksize) fuel [] len).run s = .ok (prior, some 0) s' := by
  have found (hay : List Byte) : Text.memmem [] hay = some 0 := by
    cases hay with
    | nil => rfl
    | cons b hay => rw [Text.memmem, if_pos List.nil_prefix]
  obtain ⟨bs, handed, run⟩ : ∃ bs handed, (f.read len).run s.dev = .ok bs handed := by
    by_cases more : f.Has (s.dev.flatten.length + 1)
    · obtain ⟨n, _, run⟩ := Feed.read_some pos more
      exact ⟨_, _, run⟩
    · obtain ⟨z, size, less⟩ := Feed.ends_before more
      exact ⟨_, _, Feed.read_end size (by omega) closed⟩
  obtain ⟨fuel, rfl⟩ : ∃ k, fuel = k + 1 := ⟨fuel - 1, by omega⟩
  rw [promptExpectInto, loop, promptExpectIntoTurn, bind_assoc, feedTty_read, List.length_nil, Nat.sub_zero,
    run_bind_ok (sys_ok run)]
  simp only [found, pure_bind]
  exact ⟨bs, { s with dev := handed }, rfl⟩

theorem promptExpect_empty (closed : f.closed = true) (some' : 0 < fuel) :
    ∃ s', (promptExpect (feedTty f blksize) fuel []).run s = .ok () s' := by
  obtain ⟨fuel, rfl⟩ : ∃ k, fuel = k + 1 := ⟨fuel - 1, by omega⟩
  obtain ⟨prior, s', run⟩ := @promptExpectInto_empty f blksize (fuel + 1) 100 s closed some' (by omega)
  rw [promptExpect, loop, promptExpectTurn, bind_assoc, run_bind_ok run]
  exact ⟨s', rfl⟩

theorem inBuffer_ofText_iff {q : Nat} (some' : str ≠ []) :
    InBuffer (.ofText text cuts) str q ↔ str <+: text.drop q ∧ q % 100 + str.length ≤ 100 := by
  have long : 0 < str.length := List.length_pos_iff.mpr some'
  constructor
  · rintro ⟨occurs, has, fits⟩
    exact ⟨(Feed.occurs_ofText (Feed.has_ofText.mp has)).mp occurs, fits⟩
  · rintro ⟨here, fits⟩
    have le := here.length_le
    rw [List.length_drop] at le
    have inside : q + str.length ≤ text.length := by omega
    exact ⟨(Feed.occurs_ofText inside).mpr here, Feed.has_ofText.mpr inside, fits⟩

/-- How a read of `len` bytes can end. -/
def Reading (f : Feed) (len : Nat) : EStateM.Result Stop (Stream (List (List Byte))) (List Byte) → Prop
  | .ok output s' => output.length = len ∧ s'.dev.flatten = output ∧ f.Has len
  | .error .hang _ => ∃ z, f.size = some z ∧ z < len
  | .error _ _ => False

/-- Nothing is read again and again. -/
theorem promptReadTurn_end {output : List Byte} {z : Nat} (size : f.size = some z) (done : z ≤ s.dev.flatten.length)
    (room : output.length < len) :
    ∃ s', (loop (promptReadTurn (feedTty f blksize) len) fuel output).run s = .error .hang s' := by
  refine loop_stuck (fun p (s : Stream (List (List Byte))) => p = output ∧ z ≤ s.dev.flatten.length)
    (fun p s here => ?_) fuel ⟨rfl, done⟩
  obtain ⟨rfl, done⟩ := here
  rw [promptReadTurn, feedTty_read]
  rcases @Feed.read_done f (len - p.length) s.dev z size done (by omega) with waits | ends
  · exact Or.inl ⟨_, run_bind_error (sys_hang waits)⟩
  · refine Or.inr ⟨p, { s with dev := s.dev ++ [[]] }, ?_, rfl, ?_⟩
    · rw [run_bind_ok (sys_ok ends)]
      simp only [List.append_nil, if_pos room]
      rfl
    · rw [List.flatten_append, List.length_append]
      exact done.trans (Nat.le_add_right _ _)

theorem promptRead_turns {output : List Byte} (le : output.length ≤ len) (enough : len - output.length < fuel)
    (here : s.dev.flatten = output) (has : f.Has output.length) :
    Reading f len ((loop (promptReadTurn (feedTty f blksize) len) fuel output).run s) := by
  induction fuel generalizing output s with
  | zero => exact absurd enough (Nat.not_lt_zero _)
  | succ fuel ih =>
    by_cases full : output.length = len
    · rw [loop, promptReadTurn, bind_assoc, feedTty_read, full, Nat.sub_self, run_bind_ok (sys_ok Feed.read_nothing)]
      simp only [List.append_nil, full, if_neg (Nat.lt_irrefl len), pure_bind]
      refine ⟨full, ?_, full ▸ has⟩
      rw [List.flatten_append, here]
      exact List.append_nil output
    by_cases more : f.Has (s.dev.flatten.length + 1)
    · obtain ⟨n, reads, run⟩ := @Feed.read_some f (len - output.length) s.dev (by omega) more
      have some' := reads.some'
      have fits := reads.fits
      have has' := reads.has
      have long : (output ++ ByteMem.read f.bytes s.dev.flatten.length n).length = output.length + n := by
        rw [List.length_append, ByteMem.read_length]
      have taken : (s.dev ++ [ByteMem.read f.bytes s.dev.flatten.length n]).flatten =
          output ++ ByteMem.read f.bytes s.dev.flatten.length n := by
        rw [List.flatten_append, List.flatten_singleton, here]
      rw [here, ← long] at has'
      rw [loop, promptReadTurn, bind_assoc, feedTty_read, run_bind_ok (sys_ok run)]
      by_cases left : (output ++ ByteMem.read f.bytes s.dev.flatten.length n).length < len
      · simp only [if_pos left, pure_bind]
        rw [here] at taken has' left long ⊢
        exact ih (by omega) (by omega) taken has'
      · simp only [if_neg left, pure_bind]
        have all : (output ++ ByteMem.read f.bytes s.dev.flatten.length n).length = len := by omega
        exact ⟨all, taken, all ▸ here ▸ has'⟩
    · obtain ⟨z, size, less⟩ := Feed.ends_before more
      obtain ⟨s', run⟩ := @promptReadTurn_end f blksize (fuel + 1) len s output z size (by omega) (by omega)
      rw [run]
      rw [here] at less
      exact ⟨z, size, by omega⟩

theorem Caught.infix {before : List (List Byte)} {n : Nat} (caught : Caught f str before n)
    (front : f.Front (before ++ [ByteMem.read f.bytes before.flatten.length n])) :
    str <:+: (before ++ [ByteMem.read f.bytes before.flatten.length n]).flatten := by
  obtain ⟨q, inBuffer, come⟩ := caught.found
  rw [front, Feed.infix_read_iff, Nat.zero_add]
  refine ⟨q, Nat.zero_le q, ?_, inBuffer.occurs⟩
  rw [List.flatten_append, List.length_append, List.flatten_singleton, ByteMem.read_length]
  exact come

theorem expect_ends_iff (closed : f.closed = true) (new : s.dev = []) :
    (PromptCall.expect str).Ends f blksize s ↔ str = [] ∨ ∃ q, InBuffer f str q := by
  constructor
  · intro ends
    by_cases some' : str = []
    · exact Or.inl some'
    obtain ⟨r, returned, stop, outcome⟩ : ∃ r, Returned _ r ∧ ∃ stop, Expecting f str stop r :=
      ComesTo.both ends ⟨101, fun fuel enough => ⟨_, promptExpect_feed some' enough new⟩⟩
    cases r with
    | ok u s' =>
      obtain ⟨before, n, caught, _⟩ := outcome
      obtain ⟨q, inBuffer, _⟩ := caught.found
      exact Or.inr ⟨q, inBuffer⟩
    | error e s' =>
      cases e with
      | rc e => exact outcome.elim
      | fault => exact returned.elim
      | hang => exact returned.elim
  · intro served
    by_cases some' : str = []
    · subst some'
      refine ⟨1, fun fuel enough => ?_⟩
      obtain ⟨s', run⟩ := @promptExpect_empty f blksize fuel s closed enough
      rw [run]
      exact List.nil_infix
    obtain ⟨q, inBuffer⟩ := served.resolve_left some'
    have fresh : f.Front s.dev := by rw [new]; rfl
    refine ⟨101 + q, fun fuel enough => ?_⟩
    have outcome := @promptExpect_feed f blksize fuel str s some' (by omega) new
    rcases run : (promptExpect (feedTty f blksize) fuel str).run s with ⟨u, s'⟩ | ⟨e | _ | _, s'⟩
    · rw [run] at outcome
      obtain ⟨before, n, caught, handed⟩ := outcome
      have front : f.Front s'.dev := (promptExpect_front s fresh).1 u s' run
      rw [handed] at front
      show str <:+: s'.dev.flatten
      rw [handed]
      exact caught.infix front
    · trivial
    · rw [run] at outcome
      exact outcome
    · rw [run] at outcome
      have beyond := outcome q inBuffer
      omega

theorem expectInto_ends_iff (closed : f.closed = true) {z : Nat} (size : f.size = some z) (pos : 0 < len) (new : s.dev = []) :
    (PromptCall.expectInto str len pos).Ends f blksize s ↔ len ≤ z ∨ f.Within str 0 z ∨ str = [] := by
  have start : s.dev.flatten.length = 0 := by rw [new]; rfl
  have has : f.Has s.dev.flatten.length := fun z _ => by rw [start]; exact Nat.zero_le z
  constructor
  · intro ends
    by_cases some' : str = []
    · exact Or.inr (Or.inr some')
    obtain ⟨r, returned, outcome⟩ : ∃ r, Returned _ r ∧ LookedFor f str s.dev.flatten.length len r :=
      ComesTo.both ends ⟨len + 1, fun fuel enough => promptExpectInto_feed some' pos enough has⟩
    rw [start] at outcome
    rcases r with ⟨⟨prior, none | p⟩, s'⟩ | ⟨e | _ | _, s'⟩
    · have full := outcome.2.1 z size
      exact Or.inl (by omega)
    · obtain ⟨before, n, brings, _⟩ := outcome
      exact Or.inr (Or.inl (brings.found.mono (brings.reads.has z size)))
    · exact outcome.elim
    · exact returned.elim
    · exact returned.elim
  · intro served
    by_cases some' : str = []
    · subst some'
      refine ⟨1, fun fuel enough => ?_⟩
      obtain ⟨prior, s', run⟩ := @promptExpectInto_empty f blksize fuel len s closed enough pos
      rw [run]
      trivial
    refine ⟨len + 1, fun fuel enough => ?_⟩
    have outcome := @promptExpectInto_feed f blksize fuel len str s some' pos enough has
    rw [start] at outcome
    rcases run : (promptExpectInto (feedTty f blksize) fuel str len).run s with ⟨r, s'⟩ | ⟨e | _ | _, s'⟩
    · trivial
    · trivial
    · rw [run] at outcome
      exact outcome
    · rw [run] at outcome
      obtain ⟨z', size', less, away⟩ := outcome
      obtain rfl : z = z' := Option.some.inj (size.symm.trans size')
      rcases served with full | within | none
      · omega
      · exact absurd within away
      · exact absurd none some'

theorem read_ends_iff {z : Nat} (size : f.size = some z) (new : s.dev = []) :
    (PromptCall.read len).Ends f blksize s ↔ len ≤ z := by
  have start : s.dev.flatten = [] := by rw [new]; rfl
  have outcome (fuel : Nat) (enough : len + 1 ≤ fuel) : Reading f len ((promptRead (feedTty f blksize) fuel len).run s) :=
    promptRead_turns (Nat.zero_le len) enough start fun z _ => Nat.zero_le z
  constructor
  · intro ends
    obtain ⟨r, returned, reading⟩ := ComesTo.both ends ⟨len + 1, outcome⟩
    rcases r with ⟨output, s'⟩ | ⟨e | _ | _, s'⟩
    · exact reading.2.2 z size
    · exact reading.elim
    · exact returned.elim
    · exact returned.elim
  · intro le
    refine ⟨len + 1, fun fuel enough => ?_⟩
    have reading := outcome fuel enough
    rcases run : (promptRead (feedTty f blksize) fuel len).run s with ⟨output, s'⟩ | ⟨e | _ | _, s'⟩
    · rw [run] at reading
      exact ⟨reading.1, reading.2.1⟩
    · trivial
    · rw [run] at reading
      exact reading
    · rw [run] at reading
      obtain ⟨z', size', less⟩ := reading
      obtain rfl : z = z' := Option.some.inj (size.symm.trans size')
      omega

end

/-- Once the other side has closed the stream, what still waits for more never comes back. -/
theorem promptCall_ends_iff (text : List Byte) (cuts : Nat → Bool) (blksize : Nat) (buffer : List Byte)
    (errno : Option Errno) (call : PromptCall) :
    call.Ends (.ofText text cuts) blksize ⟨[], buffer, errno⟩ ↔ call.Served text := by
  cases call with
  | expect str =>
    rw [expect_ends_iff rfl rfl]
    by_cases some' : str = []
    · subst some'
      exact ⟨fun _ => ⟨0, List.nil_prefix, Nat.zero_le 100⟩, fun _ => Or.inl rfl⟩
    · rw [or_iff_right some']
      exact exists_congr fun q => inBuffer_ofText_iff some'
  | expectInto str len pos =>
    rw [expectInto_ends_iff rfl rfl pos rfl]
    have within : (Feed.ofText text cuts).Within str 0 text.length ↔ str <:+: text := by
      conv_rhs => rw [← @Feed.read_ofText_all text cuts, Feed.infix_read_iff, Nat.zero_add]
    rw [within]
    refine or_congr_right (or_iff_left_of_imp ?_)
    rintro rfl
    exact List.nil_infix
  | read len => exact read_ends_iff rfl rfl

/-- A console that is closed before there is a prompt. -/
theorem promptCall_never_ends : ¬ ∀ (text : List Byte) (cuts : Nat → Bool) (blksize : Nat) (buffer : List Byte)
    (errno : Option Errno) (call : PromptCall), call.Ends (.ofText text cuts) blksize ⟨[], buffer, errno⟩ := by
  intro all
  rcases (expect_ends_iff rfl rfl).mp (all [] (fun _ => false) 4096 [] none (.expect debugShell)) with none | ⟨q, inBuffer⟩
  · cases none
  · have within := inBuffer.has 0 rfl
    rw [show debugShell.length = 2 from rfl] at within
    omega

end Culvert
