import Culvert.Bridge.Debug
import Culvert.Lib.Feed
import Culvert.Lib.Settles

/-! `prompt_expect` on a stream that comes in pieces. -/

namespace Culvert
open Prog

/-- A port that only hands over what comes in. -/
def feedTty (f : Feed) (blksize : Nat) : Tty (List (List Byte)) where
  read := f.read
  write bs := pure bs.length
  blksize := blksize

/-- The text occurs where `prompt_expect` can see all of it at once. -/
structure InBuffer (f : Feed) (str : List Byte) (q : Nat) : Prop where
  occurs : f.Occurs str q
  has : f.Has (q + str.length)
  fits : q % 100 + str.length ≤ 100

section
variable {f : Feed} {blksize fuel len start : Nat} {str : List Byte} {s s' : Stream (List (List Byte))}
variable {handed : List (List Byte)} {bs : List Byte} {α : Type} {m : Prog (List (List Byte)) α} {a : α}

theorem sys_ok (run : m.run s.dev = .ok a handed) : (sys m).run s = .ok a { s with dev := handed } := by
  have here : m s.dev = .ok a handed := run
  simp only [sys, EStateM.run, here]

theorem sys_hang (run : m.run s.dev = .error .hang handed) : (sys m).run s = .error .hang { s with dev := handed } := by
  have here : m s.dev = .error .hang handed := run
  simp only [sys, EStateM.run, here]

theorem feedTty_read (f : Feed) (blksize : Nat) : (feedTty f blksize).read = f.read := rfl

/-- The text came with the last read, of which there are `n` bytes, and not before. -/
structure Brings (f : Feed) (str : List Byte) (start len : Nat) (before : List (List Byte)) (n : Nat) : Prop where
  edge : before.flatten.length = start ∨ f.cuts before.flatten.length = true
  within : start ≤ before.flatten.length
  fresh : ¬ f.Within str start before.flatten.length
  reads : f.Reads before.flatten.length (start + len - before.flatten.length) n
  found : f.Within str start (before.flatten.length + n)

/-- How looking for `str` in the `len` bytes from `start` on can end. -/
def LookedFor (f : Feed) (str : List Byte) (start len : Nat) :
    EStateM.Result Stop (Stream (List (List Byte))) (List Byte × Option Nat) → Prop
  | .ok (_, some _) s' => ∃ before n, Brings f str start len before n ∧
    s'.dev = before ++ [ByteMem.read f.bytes before.flatten.length n]
  | .ok (_, none) s' => ¬ f.Within str start (start + len) ∧ f.Has (start + len) ∧ s'.dev.flatten.length = start + len
  | .error .hang _ => ∃ z, f.size = some z ∧ z < start + len ∧ ¬ f.Within str start z
  | .error _ _ => False

/-- What has come is looked through again and again. -/
theorem promptExpectIntoTurn_end {prior : List Byte} {z : Nat} (size : f.size = some z) (done : z ≤ s.dev.flatten.length)
    (room : prior.length < len) (missing : Text.memmem str prior = none) :
    ∃ s', (loop (promptExpectIntoTurn (feedTty f blksize) str len) fuel prior).run s = .error .hang s' := by
  refine loop_stuck (fun p (s : Stream (List (List Byte))) => p = prior ∧ z ≤ s.dev.flatten.length)
    (fun p s here => ?_) fuel ⟨rfl, done⟩
  obtain ⟨rfl, done⟩ := here
  rw [promptExpectIntoTurn, feedTty_read]
  rcases @Feed.read_done f (len - p.length) s.dev z size done (by omega) with waits | ends
  · exact Or.inl ⟨_, run_bind_error (sys_hang waits)⟩
  · refine Or.inr ⟨p, { s with dev := s.dev ++ [[]] }, ?_, rfl, ?_⟩
    · rw [run_bind_ok (sys_ok ends)]
      simp only [List.append_nil, missing, if_pos room]
      rfl
    · rw [List.flatten_append, List.length_append]
      exact done.trans (Nat.le_add_right _ _)

theorem promptExpectInto_turns {prior : List Byte} (room : prior.length < len) (enough : len - prior.length < fuel)
    (front : prior = ByteMem.read f.bytes start prior.length) (here : s.dev.flatten.length = start + prior.length)
    (has : f.Has (start + prior.length)) (fresh : ¬ f.Within str start (start + prior.length))
    (edge : f.Has (start + prior.length + 1) → prior = [] ∨ f.cuts (start + prior.length) = true) :
    LookedFor f str start len ((loop (promptExpectIntoTurn (feedTty f blksize) str len) fuel prior).run s) := by
  have missing (n : Nat) : Text.memmem str (ByteMem.read f.bytes start n) = none ↔ ¬ f.Within str start (start + n) :=
    Text.memmem_none_iff.trans (not_congr Feed.infix_read_iff)
  induction fuel generalizing prior s with
  | zero => exact absurd enough (Nat.not_lt_zero _)
  | succ fuel ih =>
    by_cases more : f.Has (start + prior.length + 1)
    · obtain ⟨n, reads, run⟩ := @Feed.read_some f (len - prior.length) s.dev (by omega) (by rw [here]; exact more)
      have some' := reads.some'
      have fits := reads.fits
      have long : (prior ++ ByteMem.read f.bytes s.dev.flatten.length n).length = prior.length + n := by
        rw [List.length_append, ByteMem.read_length]
      have front' : prior ++ ByteMem.read f.bytes s.dev.flatten.length n = ByteMem.read f.bytes start (prior.length + n) := by
        rw [ByteMem.read_add, ← front, here]
      rw [loop, promptExpectIntoTurn, bind_assoc, feedTty_read, run_bind_ok (sys_ok run)]
      cases found : Text.memmem str (prior ++ ByteMem.read f.bytes s.dev.flatten.length n) with
      | some p =>
        simp only [found, pure_bind]
        refine ⟨s.dev, n, ⟨?_, by omega, here ▸ fresh, ?_, ?_⟩, rfl⟩
        · rw [here]
          exact (edge more).imp_left fun none => by rw [none]; rfl
        · rwa [here, Nat.add_sub_add_left, ← here]
        · rw [here, Nat.add_assoc]
          by_contra away
          rw [front', (missing _).mpr away] at found
          cases found
      | none =>
        have away : ¬ f.Within str start (start + (prior.length + n)) := by
          rw [← missing, ← front']
          exact found
        have has' : f.Has (start + (prior.length + n)) := by
          rw [← Nat.add_assoc, ← here]
          exact reads.has
        have taken : (s.dev ++ [ByteMem.read f.bytes s.dev.flatten.length n]).flatten.length = start + (prior.length + n) := by
          rw [List.flatten_append, List.length_append, List.flatten_singleton, ByteMem.read_length, here, Nat.add_assoc]
        by_cases left : (prior ++ ByteMem.read f.bytes s.dev.flatten.length n).length < len
        · simp only [found, if_pos left, pure_bind]
          refine ih left ?_ ?_ ?_ ?_ ?_ ?_
          · omega
          · rw [long]
            exact front'
          · rw [long]
            exact taken
          · rw [long]
            exact has'
          · rw [long]
            exact away
          · rw [long, ← Nat.add_assoc, ← here]
            rw [long] at left
            exact fun further => Or.inr (reads.ends (by omega) further)
        · simp only [found, if_neg left, pure_bind]
          rw [long] at left
          obtain rfl : prior.length + n = len := by omega
          exact ⟨away, has', taken⟩
    · obtain ⟨z, size, less⟩ := Feed.ends_before more
      have least := has z size
      have nothing : Text.memmem str prior = none := by
        rw [front, missing]
        exact fresh
      obtain ⟨s', run⟩ := @promptExpectIntoTurn_end f blksize (fuel + 1) len str s prior z size (by omega) room nothing
      rw [run]
      exact ⟨z, size, by omega, fun found => fresh (found.mono (by omega))⟩

theorem promptExpectInto_feed (some' : str ≠ []) (pos : 0 < len) (enough : len < fuel) (has : f.Has s.dev.flatten.length) :
    LookedFor f str s.dev.flatten.length len ((promptExpectInto (feedTty f blksize) fuel str len).run s) := by
  refine promptExpectInto_turns pos enough rfl rfl has ?_ fun _ => Or.inl rfl
  rintro ⟨q, after, before, _⟩
  have long : 0 < str.length := List.length_pos_iff.mpr some'
  rw [List.length_nil] at before
  omega

/-- The last read has brought the text where it can be seen, and none before it had. -/
structure Caught (f : Feed) (str : List Byte) (before : List (List Byte)) (n : Nat) : Prop where
  edge : before.flatten.length % 100 = 0 ∨ f.cuts before.flatten.length = true
  first : ∀ q, InBuffer f str q → before.flatten.length < q + str.length
  found : ∃ q, InBuffer f str q ∧ q + str.length ≤ before.flatten.length + n
  whole : ∀ x, before.flatten.length < x → x < before.flatten.length + n → f.cuts x = false ∧ x % 100 ≠ 0

/-- How looking for `str` can end, where the buffers that are looked at end at `stop`. -/
def Expecting (f : Feed) (str : List Byte) (stop : Nat) : EStateM.Result Stop (Stream (List (List Byte))) Unit → Prop
  | .ok () s' => ∃ before n, Caught f str before n ∧ s'.dev = before ++ [ByteMem.read f.bytes before.flatten.length n]
  | .error .hang _ => ∀ q, InBuffer f str q → stop ≤ q
  | .error _ _ => False

theorem Brings.caught {i n : Nat} {before : List (List Byte)} (brings : Brings f str (100 * i) 100 before n)
    (early : ∀ q, InBuffer f str q → 100 * i ≤ q) : Caught f str before n where
  edge := brings.edge.imp_left fun start => by rw [start, Nat.mul_mod_right]
  first q here := by
    by_contra come
    exact brings.fresh ⟨q, early q here, by omega, here.occurs⟩
  found := by
    obtain ⟨q, after, before', here⟩ := brings.found
    have more := brings.reads.some'
    have fits := brings.reads.fits
    exact ⟨q, ⟨here, brings.reads.has.mono before', by omega⟩, before'⟩
  whole x after before' := by
    have fits := brings.reads.fits
    have within := brings.within
    exact ⟨brings.reads.whole x after before', by omega⟩

/-- A buffer at a time. -/
theorem promptExpect_turns (some' : str ≠ []) (enough : 100 < fuel) {turns i : Nat} (here : s.dev.flatten.length = 100 * i)
    (has : f.Has (100 * i)) (early : ∀ q, InBuffer f str q → 100 * i ≤ q) :
    Expecting f str (100 * (i + turns)) ((loop (promptExpectTurn (feedTty f blksize) fuel str) turns ()).run s) := by
  induction turns generalizing i s with
  | zero => exact early
  | succ turns ih =>
    have long : 0 < str.length := List.length_pos_iff.mpr some'
    have outcome := @promptExpectInto_feed f blksize fuel 100 str s some' (by omega) enough (here ▸ has)
    rw [here] at outcome
    rw [loop, promptExpectTurn, bind_assoc]
    cases run : (promptExpectInto (feedTty f blksize) fuel str 100).run s with
    | ok r s₁ =>
      obtain ⟨prior, res⟩ := r
      rw [run] at outcome
      rw [run_bind_ok run]
      cases res with
      | some p =>
        obtain ⟨before, n, brings, handed⟩ := outcome
        exact ⟨before, n, brings.caught early, handed⟩
      | none =>
        obtain ⟨away, has', here'⟩ := outcome
        have later : ∀ q, InBuffer f str q → 100 * (i + 1) ≤ q := by
          intro q inBuffer
          have after := early q inBuffer
          have fits := inBuffer.fits
          by_contra before
          exact away ⟨q, after, by omega, inBuffer.occurs⟩
        have rest := ih (here'.trans (by omega)) has' later
        rw [Nat.add_assoc, Nat.add_comm 1] at rest
        exact rest
    | error e s₁ =>
      rw [run] at outcome
      rw [run_bind_error run]
      cases e with
      | rc e => exact outcome
      | fault => exact outcome
      | hang =>
        obtain ⟨z, size, less, away⟩ := outcome
        intro q inBuffer
        exact absurd ⟨q, early q inBuffer, inBuffer.has z size, inBuffer.occurs⟩ away

/-- The first buffer with the text in it is as far as `prompt_expect` reads. Without one it goes on for good. -/
theorem promptExpect_feed (some' : str ≠ []) (enough : 100 < fuel) (new : s.dev = []) :
    Expecting f str (100 * fuel) ((promptExpect (feedTty f blksize) fuel str).run s) := by
  have start := @promptExpect_turns f blksize fuel str s some' enough fuel 0 (by rw [new]; rfl)
    (fun z _ => Nat.zero_le z) fun q _ => Nat.zero_le q
  rwa [Nat.zero_add] at start

/-- The first place where the text occurs is `p`. -/
structure FirstAt (f : Feed) (str : List Byte) (p : Nat) : Prop where
  occurs : f.Occurs str p
  has : f.Has (p + str.length)
  first : ∀ q < p, ¬ f.Occurs str q

/-- It is found, with the read that brings its last byte. -/
def FindsAt (str : List Byte) (p : Nat) : EStateM.Result Stop (Stream (List (List Byte))) Unit → Prop
  | .ok () s' => ∃ before last, s'.dev = before ++ [last] ∧ before.flatten.length < p + str.length ∧
    p + str.length ≤ s'.dev.flatten.length
  | .error _ _ => False

/-- The text is seen by the time the read that brings its last byte is done: there, or again a little later. -/
def SeenBy (f : Feed) (str : List Byte) (p : Nat) : Prop :=
  ∃ q, InBuffer f str q ∧ ∀ x, p + str.length ≤ x → x < q + str.length → f.cuts x = false ∧ x % 100 ≠ 0

variable {p n : Nat} {before : List (List Byte)}

theorem Caught.seenBy (caught : Caught f str before n) (late : before.flatten.length < p + str.length) :
    SeenBy f str p := by
  obtain ⟨q, inBuffer, come⟩ := caught.found
  exact ⟨q, inBuffer, fun x after before' => caught.whole x (by omega) (by omega)⟩

theorem Caught.late (caught : Caught f str before n) (seen : SeenBy f str p) :
    before.flatten.length < p + str.length := by
  obtain ⟨q, inBuffer, uncut⟩ := seen
  have pending := caught.first q inBuffer
  by_contra early
  obtain ⟨cut, odd⟩ := uncut before.flatten.length (by omega) pending
  rcases caught.edge with full | cut'
  · exact odd full
  · rw [cut] at cut'
    cases cut'

theorem promptExpect_seen (some' : str ≠ []) (new : s.dev = [])
    (finds : ComesTo (fun fuel => promptExpect (feedTty f blksize) fuel str) s (FindsAt str p)) : SeenBy f str p := by
  obtain ⟨r, found, outcome⟩ : ∃ r, FindsAt str p r ∧ ∃ stop, Expecting f str stop r :=
    finds.both ⟨101, fun fuel enough => ⟨_, promptExpect_feed some' enough new⟩⟩
  obtain ⟨stop, outcome⟩ := outcome
  cases r with
  | error e s' => exact found.elim
  | ok u s' =>
    obtain ⟨before, last, handed, late, _⟩ := found
    obtain ⟨before', n, caught, handed'⟩ := outcome
    obtain ⟨rfl, _⟩ := List.append_inj' (handed.symm.trans handed') rfl
    exact caught.seenBy late

theorem promptExpect_finds (some' : str ≠ []) (new : s.dev = []) (first : FirstAt f str p) (seen : SeenBy f str p) :
    ComesTo (fun fuel => promptExpect (feedTty f blksize) fuel str) s (FindsAt str p) := by
  obtain ⟨q, inBuffer, _⟩ := id seen
  refine ⟨101 + q, fun fuel enough => ?_⟩
  have outcome := @promptExpect_feed f blksize fuel str s some' (by omega) new
  cases run : (promptExpect (feedTty f blksize) fuel str).run s with
  | error e s' =>
    rw [run] at outcome
    cases e with
    | rc e => exact outcome
    | fault => exact outcome
    | hang =>
      have beyond := outcome q inBuffer
      omega
  | ok u s' =>
    rw [run] at outcome
    obtain ⟨before, n, caught, handed⟩ := outcome
    obtain ⟨q', inBuffer', come⟩ := caught.found
    have later : p ≤ q' := by
      by_contra earlier
      exact first.first q' (by omega) inBuffer'.occurs
    refine ⟨before, _, handed, caught.late seen, ?_⟩
    rw [handed, List.flatten_append, List.length_append, List.flatten_singleton, ByteMem.read_length]
    omega

end

/-- What `prompt_expect` waits for is found where it comes first, unless a buffer ends in the middle of it there. -/
theorem promptExpect_finds_iff (f : Feed) (blksize : Nat) (str : List Byte) (p : Nat) (buffer : List Byte)
    (errno : Option Errno) (some' : str ≠ []) (first : FirstAt f str p) :
    ComesTo (fun fuel => promptExpect (feedTty f blksize) fuel str) ⟨[], buffer, errno⟩ (FindsAt str p) ↔
      SeenBy f str p :=
  ⟨promptExpect_seen some' rfl, promptExpect_finds some' rfl first⟩

/-- So many letters, and a prompt. -/
def noisyPrompt (n : Nat) : Feed := .ofText (List.replicate n 0x78 ++ debugShell) fun _ => false

theorem noisyPrompt_first (n : Nat) : FirstAt (noisyPrompt n) debugShell n where
  occurs := by
    have at' (i : Nat) : (List.replicate n (0x78 : Byte) ++ debugShell).getD (n + i) 0 = debugShell.getD i 0 := by
      rw [List.getD_append_right _ _ _ _ (by simp), List.length_replicate, Nat.add_sub_cancel_left]
    show [_, _] = _
    simp only [noisyPrompt, Feed.ofText]
    rw [at' 0, at' 1]
    rfl
  has := by
    rintro z ⟨⟩
    simp
  first q less here := by
    have head : (List.replicate n (0x78 : Byte) ++ debugShell).getD q 0 = 0x24 := by
      rw [Feed.Occurs, show debugShell.length = 2 from rfl, ByteMem.read_succ] at here
      exact (List.cons.inj here).1
    rw [List.getD_append _ _ _ _ (by simpa using less), List.getD_replicate _ less] at head
    cases head

theorem promptExpect_finds_late : ComesTo (fun fuel => promptExpect (feedTty (noisyPrompt 98) 4096) fuel debugShell)
    ⟨[], [], none⟩ (FindsAt debugShell 98) ↔ SeenBy (noisyPrompt 98) debugShell 98 :=
  promptExpect_finds_iff (noisyPrompt 98) 4096 debugShell 98 [] none (by decide) (noisyPrompt_first 98)

/-- A prompt behind 99 other bytes is missed. -/
theorem promptExpect_misses : ¬ ∀ (f : Feed) (blksize : Nat) (str : List Byte) (p : Nat) (buffer : List Byte)
    (errno : Option Errno), str ≠ [] → str.length ≤ 100 → FirstAt f str p →
    ComesTo (fun fuel => promptExpect (feedTty f blksize) fuel str) ⟨[], buffer, errno⟩ (FindsAt str p) := by
  intro all
  have finds := all (noisyPrompt 99) 4096 debugShell 99 [] none (by decide) (by decide) (noisyPrompt_first 99)
  obtain ⟨q, inBuffer, _⟩ := promptExpect_seen (by decide) rfl finds
  have within := inBuffer.has 101 rfl
  have fits := inBuffer.fits
  have late : ¬ q < 99 := fun early => (noisyPrompt_first 99).first q early inBuffer.occurs
  rw [show debugShell.length = 2 from rfl] at within fits
  omega

end Culvert
