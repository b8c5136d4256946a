import Culvert.Bridge.PromptFeed
import Culvert.Lib.Total

/-! Lines read through `stdio` from a text that ends. -/

namespace Culvert
open Prog

/-- What `fgets` takes of a text, with room for so many bytes. -/
def lineOf : Nat → List Byte → List Byte
  | 0, _ => []
  | _ + 1, [] => []
  | room + 1, b :: text => if b = 10 then [b] else b :: lineOf room text

/-- No call fails and this much of the text is still to be read, whether it has been read ahead or not. -/
structure Unread (text : List Byte) (errno : Option Errno) (rest : List Byte) (s : Stream (List (List Byte))) : Prop where
  errno : s.errno = errno
  rest : s.buffer ++ text.drop s.dev.flatten.length = rest

/-- The text runs out while lines are read behind the first `prior` bytes of a buffer for `len`, each up to a NUL
if there is one: all that `fgets` takes fits, and no line comes that ends and has no NUL. -/
inductive RunsOut (len : Nat) : Nat → List Byte → Prop
  | done (prior : Nat) : RunsOut len prior []
  | next {prior : Nat} {rest : List Byte} (some' : rest ≠ []) (fits : prior + (lineOf (len - 1) rest).length < len)
      (broken : 10 ∈ lineOf (len - 1) rest → 0 ∈ lineOf (len - 1) rest)
      (later : RunsOut len (prior + ((lineOf (len - 1) rest).takeWhile (· ≠ 0)).length)
        (rest.drop (lineOf (len - 1) rest).length)) : RunsOut len prior rest

/-- The text starts with a line that can be read whole. -/
def WholeLine (len : Nat) (text body rest : List Byte) : Prop :=
  text = body ++ 10 :: rest ∧ 10 ∉ body ∧ 0 ∉ body ∧ body.length + 2 ≤ len

/-- A line, and nothing but the line, or an error. -/
def GetsLine (text : List Byte) (len : Nat) :
    EStateM.Result Stop (Stream (List (List Byte))) (Option (List Char)) → Prop
  | .ok output s' => ∃ body rest, WholeLine len text body rest ∧ output = some (Text.ofBytes (body ++ [10])) ∧
    s'.buffer ++ text.drop s'.dev.flatten.length = rest
  | .error (.rc _) _ => True
  | .error _ _ => False

section
variable {text rest : List Byte} {cuts : Nat → Bool} {blksize fuel len room : Nat} {errno : Option Errno} {b : Byte}
variable {s : Stream (List (List Byte))}

theorem lineOf_ne_nil (some' : rest ≠ []) (pos : 0 < room) : lineOf room rest ≠ [] := by
  obtain ⟨room, rfl⟩ : ∃ k, room = k + 1 := ⟨room - 1, by omega⟩
  obtain ⟨b, rest, rfl⟩ := List.exists_cons_of_ne_nil some'
  rw [lineOf]
  split <;> exact List.cons_ne_nil _ _

/-- A newline can only be last. -/
theorem lineOf_newline (room : Nat) (rest : List Byte) :
    ∃ body, 10 ∉ body ∧ (lineOf room rest = body ∨ lineOf room rest = body ++ [10]) := by
  induction room generalizing rest with
  | zero => exact ⟨[], List.not_mem_nil, Or.inl rfl⟩
  | succ room ih =>
    cases rest with
    | nil => exact ⟨[], List.not_mem_nil, Or.inl rfl⟩
    | cons b rest =>
      rw [lineOf]
      by_cases newline : b = 10
      · rw [if_pos newline, newline]
        exact ⟨[], List.not_mem_nil, Or.inr rfl⟩
      · rw [if_neg newline]
        obtain ⟨body, fresh, same⟩ := ih rest
        refine ⟨b :: body, ?_, same.imp (congrArg (b :: ·)) (congrArg (b :: ·))⟩
        rw [List.mem_cons, not_or]
        exact ⟨Ne.symm newline, fresh⟩

theorem lineOf_line {body : List Byte} (fresh : 10 ∉ body) (fits : body.length < room) :
    lineOf room (body ++ 10 :: rest) = body ++ [10] := by
  induction body generalizing room with
  | nil =>
    obtain ⟨room, rfl⟩ : ∃ k, room = k + 1 := ⟨room - 1, by omega⟩
    rfl
  | cons b body ih =>
    obtain ⟨room, rfl⟩ : ∃ k, room = k + 1 := ⟨room - 1, by omega⟩
    rw [List.mem_cons, not_or] at fresh
    rw [List.cons_append, lineOf, if_neg (Ne.symm fresh.1), ih fresh.2 (Nat.lt_of_succ_lt_succ fits)]
    rfl

theorem getc_unread (blk : 0 < blksize) : Total (Unread text errno (b :: rest)) (getc (feedTty (.ofText text cuts) blksize))
    fun c s => c = some b ∧ Unread text errno rest s := by
  refine Total.get fun s unread => ?_
  rintro s rfl
  have whole := unread.rest
  cases ahead : s.buffer with
  | cons b' buffer =>
    rw [ahead, List.cons_append] at whole
    obtain ⟨rfl, rfl⟩ := List.cons.inj whole
    exact ⟨some b', { s with buffer := buffer }, rfl, rfl, unread.errno, rfl⟩
  | nil =>
    rw [ahead, List.nil_append] at whole
    have more : s.dev.flatten.length < text.length := by
      by_contra done
      rw [List.drop_eq_nil_of_le (by omega)] at whole
      cases whole
    obtain ⟨n, reads, run⟩ := @Feed.read_some (.ofText text cuts) blksize s.dev blk (Feed.has_ofText.mpr more)
    have inside := Feed.has_ofText.mp reads.has
    rw [Feed.read_ofText inside, whole] at run
    obtain ⟨k, rfl⟩ : ∃ k, n = k + 1 := ⟨n - 1, by have := reads.some'; omega⟩
    rw [List.take_succ_cons] at run
    refine ⟨some b, { s with dev := s.dev ++ [b :: rest.take k], buffer := rest.take k }, ?_, rfl, unread.errno, ?_⟩
    · show EStateM.run (sys ((feedTty (.ofText text cuts) blksize).read blksize) >>= _) s = _
      rw [feedTty_read, run_bind_ok (sys_ok run)]
      rfl
    · have taken : (s.dev ++ [b :: rest.take k]).flatten.length = s.dev.flatten.length + (k + 1) := by
        have short : k ≤ rest.length := by
          have length := congrArg List.length whole
          rw [List.length_drop, List.length_cons] at length
          omega
        rw [List.flatten_append, List.length_append, List.flatten_singleton, List.length_cons, List.length_take,
          Nat.min_eq_left short]
      show rest.take k ++ text.drop (s.dev ++ [b :: rest.take k]).flatten.length = rest
      rw [taken, ← List.drop_drop, whole, List.drop_succ_cons, List.take_append_drop]

theorem getc_end : Total (Unread text errno []) (getc (feedTty (.ofText text cuts) blksize))
    fun c s => c = none ∧ Unread text errno [] s := by
  refine Total.get fun s unread => ?_
  rintro s rfl
  obtain ⟨handed, buffer, errno'⟩ := s
  obtain ⟨rfl, nothing⟩ := List.append_eq_nil_iff.mp unread.rest
  have done := List.drop_eq_nil_iff.mp nothing
  have run := @Feed.read_end (.ofText text cuts) blksize handed text.length rfl done rfl
  refine ⟨none, ⟨handed ++ [[]], [], errno'⟩, ?_, rfl, unread.errno, ?_⟩
  · show EStateM.run (sys ((feedTty (.ofText text cuts) blksize).read blksize) >>= _) _ = _
    rw [feedTty_read, run_bind_ok (sys_ok run)]
    rfl
  · show text.drop (handed ++ [[]]).flatten.length = []
    apply List.drop_eq_nil_of_le
    rw [List.flatten_append, List.length_append]
    exact done.trans (Nat.le_add_right _ _)

/-- However the text comes in. -/
theorem fgets_unread (blk : 0 < blksize) (room : Nat) (rest : List Byte) :
    Total (Unread text errno rest) (fgets (feedTty (.ofText text cuts) blksize) room)
      fun chunk s => chunk = lineOf room rest ∧ Unread text errno (rest.drop chunk.length) s := by
  induction room generalizing rest with
  | zero => exact Total.pure fun s unread => ⟨rfl, unread⟩
  | succ room ih =>
    cases rest with
    | nil =>
      refine getc_end.bind fun c => ?_
      rintro s ⟨rfl, unread⟩
      exact ⟨[], s, rfl, rfl, unread⟩
    | cons b rest =>
      refine (getc_unread blk).bind fun c => ?_
      rintro s ⟨rfl, unread⟩
      by_cases newline : b = 10
      · simp only [if_pos newline]
        refine ⟨[b], s, rfl, ?_, unread⟩
        rw [lineOf, if_pos newline]
      · simp only [if_neg newline]
        obtain ⟨chunk, s', run, rfl, unread'⟩ := ih rest s unread
        refine ⟨b :: lineOf room rest, s', ?_, ?_, unread'⟩
        · rw [run_bind_ok run]
          rfl
        · rw [lineOf, if_neg newline]

theorem newline_mem_iff (bs : List Byte) : '\n' ∈ Text.ofBytes bs ↔ 10 ∈ bs := @Text.mem_ofBytes bs 10

/-- A newline that can be seen is one that no NUL comes before. -/
theorem newline_seen_iff (room : Nat) (rest : List Byte) :
    '\n' ∈ Text.ofBytes ((lineOf room rest).takeWhile (· ≠ 0)) ↔ 10 ∈ lineOf room rest ∧ 0 ∉ lineOf room rest := by
  rw [newline_mem_iff]
  obtain ⟨body, fresh, same⟩ := lineOf_newline room rest
  constructor
  · intro seen
    have mem := (List.takeWhile_sublist _).subset seen
    refine ⟨mem, fun nul => ?_⟩
    rcases same with same | same
    · rw [same] at mem
      exact fresh mem
    · rw [same, List.mem_append] at nul
      have inside : 0 ∈ body := nul.resolve_right (by decide)
      rw [same, List.takeWhile_append, if_neg] at seen
      · exact fresh ((List.takeWhile_sublist _).subset seen)
      · intro all
        have clear := List.takeWhile_eq_self_iff.mp ((List.takeWhile_prefix _).eq_of_length all) 0 inside
        exact absurd rfl (of_decide_eq_true clear)
  · rintro ⟨mem, clear⟩
    rwa [List.takeWhile_eq_self_iff.mpr]
    intro b here
    exact decide_eq_true fun nul => clear (nul ▸ here)

variable {old output : Option (List Char)} {e : Stop} {s' : Stream (List (List Byte))}

theorem minusErrno_run {α : Type} (a : α) : (minusErrno a).run s = s.errno.elim (.ok a s) fun r => .error (.rc r) s := by
  obtain ⟨handed, buffer, errno⟩ := s
  cases errno with
  | none => rfl
  | some r => rfl

/-- `fgets` returns `NULL`. -/
theorem promptGetsTurn_end (wide : 2 ≤ len) (unread : Unread text errno [] s) : ∃ s₁,
    (promptGetsTurn (feedTty (.ofText text cuts) blksize) len old output).run s =
      errno.elim (.ok (.inr (output.or old)) s₁) fun r => .error (.rc r) s₁ := by
  obtain ⟨room, length⟩ : ∃ k, len - 1 = k + 1 := ⟨len - 2, by omega⟩
  obtain ⟨_, s₁, run, rfl, unread'⟩ := @getc_end text cuts blksize errno s unread
  have chunk : (fgets (feedTty (.ofText text cuts) blksize) (len - 1)).run s = .ok [] s₁ := by
    rw [length, fgets, run_bind_ok run]
    rfl
  refine ⟨s₁, ?_⟩
  have stop := minusErrno_run (s := s₁) (output.or old)
  rw [unread'.errno] at stop
  rw [promptGetsTurn, run_bind_ok chunk, if_pos rfl]
  cases errno with
  | none => exact run_bind_ok stop
  | some r => exact run_bind_error stop

/-- `fgets` stores what it takes behind what is there, and what is in front of a NUL is all that can be seen of it. -/
theorem promptGetsTurn_line (blk : 0 < blksize) (wide : 2 ≤ len) (some' : rest ≠ []) (unread : Unread text errno rest s) :
    ∃ s₁, Unread text errno (rest.drop (lineOf (len - 1) rest).length) s₁ ∧
      (promptGetsTurn (feedTty (.ofText text cuts) blksize) len old output).run s =
        if (output.getD []).length + (lineOf (len - 1) rest).length + 1 > len then .error .fault s₁
        else if '\n' ∈ output.getD [] ++ Text.ofBytes ((lineOf (len - 1) rest).takeWhile (· ≠ 0)) then
          .ok (.inr (some (output.getD [] ++ Text.ofBytes ((lineOf (len - 1) rest).takeWhile (· ≠ 0))))) s₁
        else .ok (.inl (some (output.getD [] ++ Text.ofBytes ((lineOf (len - 1) rest).takeWhile (· ≠ 0))))) s₁ := by
  obtain ⟨chunk, s₁, run, rfl, unread'⟩ := @fgets_unread text cuts blksize errno blk (len - 1) rest s unread
  refine ⟨s₁, unread', ?_⟩
  rw [promptGetsTurn, run_bind_ok run, if_neg (lineOf_ne_nil some' (by omega))]
  by_cases beyond : (output.getD []).length + (lineOf (len - 1) rest).length + 1 > len
  · simp only [if_pos beyond]
    rfl
  · simp only [if_neg beyond, Text.cString_ofBytes]
    split <;> rfl

/-- An error comes from an old `errno`, when the text has run out. -/
theorem promptGets_error (blk : 0 < blksize) (wide : 2 ≤ len) {r : Errno} (clear : '\n' ∉ output.getD [])
    (unread : Unread text errno rest s)
    (run : (loop (promptGetsTurn (feedTty (.ofText text cuts) blksize) len old) fuel output).run s = .error (.rc r) s') :
    errno ≠ none ∧ RunsOut len (output.getD []).length rest := by
  induction fuel generalizing output rest s with
  | zero => cases run
  | succ fuel ih =>
    rw [loop] at run
    by_cases some' : rest = []
    · subst some'
      obtain ⟨s₁, turn⟩ := @promptGetsTurn_end text cuts blksize len errno s old output wide unread
      refine ⟨?_, .done _⟩
      rintro rfl
      rw [run_bind_ok turn] at run
      cases run
    · obtain ⟨s₁, unread', turn⟩ := @promptGetsTurn_line text rest cuts blksize len errno s old output blk wide some' unread
      by_cases beyond : (output.getD []).length + (lineOf (len - 1) rest).length + 1 > len
      · rw [if_pos beyond] at turn
        rw [run_bind_error turn] at run
        cases run
      · rw [if_neg beyond] at turn
        by_cases line : '\n' ∈ output.getD [] ++ Text.ofBytes ((lineOf (len - 1) rest).takeWhile (· ≠ 0))
        · rw [if_pos line] at turn
          rw [run_bind_ok turn] at run
          cases run
        · rw [if_neg line] at turn
          rw [run_bind_ok turn] at run
          obtain ⟨set, later⟩ := ih (show '\n' ∉ Option.getD (some _) [] from line) unread' run
          refine ⟨set, .next some' (by omega) (fun newline => ?_) ?_⟩
          · by_contra clear
            exact line (List.mem_append_right _ ((newline_seen_iff _ _).mpr ⟨newline, clear⟩))
          · rwa [Option.getD_some, List.length_append, Text.ofBytes, List.length_map] at later

theorem promptGets_runsOut (blk : 0 < blksize) (wide : 2 ≤ len) {r : Errno} {prior : Nat} (out : RunsOut len prior rest)
    (clear : '\n' ∉ output.getD []) (length : (output.getD []).length = prior) (unread : Unread text (some r) rest s) :
    ∃ enough, ∀ turns, enough ≤ turns → ∃ s',
      (loop (promptGetsTurn (feedTty (.ofText text cuts) blksize) len old) turns output).run s = .error (.rc r) s' := by
  induction out generalizing output s with
  | done prior =>
    obtain ⟨s₁, turn⟩ := @promptGetsTurn_end text cuts blksize len (some r) s old output wide unread
    refine ⟨1, fun turns some' => ⟨s₁, ?_⟩⟩
    obtain ⟨turns, rfl⟩ : ∃ k, turns = k + 1 := ⟨turns - 1, by omega⟩
    rw [loop, run_bind_error turn]
  | @next prior rest some' fits broken later ih =>
    obtain ⟨s₁, unread', turn⟩ :=
      @promptGetsTurn_line text rest cuts blksize len (some r) s old output blk wide some' unread
    have line : '\n' ∉ output.getD [] ++ Text.ofBytes ((lineOf (len - 1) rest).takeWhile (· ≠ 0)) := by
      rw [List.mem_append, not_or]
      refine ⟨clear, fun seen => ?_⟩
      obtain ⟨newline, whole⟩ := (newline_seen_iff _ _).mp seen
      exact whole (broken newline)
    rw [if_neg (by omega), if_neg line] at turn
    obtain ⟨enough, rest'⟩ := @ih s₁ (some _) line
      (by rw [Option.getD_some, List.length_append, Text.ofBytes, List.length_map, length]) unread'
    refine ⟨enough + 1, fun turns le => ?_⟩
    obtain ⟨turns, rfl⟩ : ∃ k, turns = k + 1 := ⟨turns - 1, by omega⟩
    obtain ⟨s', run⟩ := rest' turns (by omega)
    exact ⟨s', by rw [loop, run_bind_ok turn]; exact run⟩

theorem promptGets_whole {body : List Byte} (blk : 0 < blksize) (wide : 2 ≤ len) (line : WholeLine len text body rest)
    (unread : Unread text errno text s) : ∃ s', Unread text errno rest s' ∧ ∀ turns, 1 ≤ turns →
      (promptGets (feedTty (.ofText text cuts) blksize) turns len old).run s =
        .ok (some (Text.ofBytes (body ++ [10]))) s' := by
  obtain ⟨rfl, fresh, clear, fits⟩ := line
  obtain ⟨s₁, unread', turn⟩ := @promptGetsTurn_line (body ++ 10 :: rest) (body ++ 10 :: rest) cuts blksize len errno s old
    none blk wide (by simp) unread
  have taken : lineOf (len - 1) (body ++ 10 :: rest) = body ++ [10] := lineOf_line fresh (by omega)
  have whole : (body ++ [10]).takeWhile (fun b : Byte => decide (b ≠ 0)) = body ++ [10] := by
    refine List.takeWhile_eq_self_iff.mpr fun b mem => decide_eq_true ?_
    rintro rfl
    rcases List.mem_append.mp mem with before | newline
    · exact clear before
    · exact absurd newline (by decide)
  have long : (body ++ [10]).length = body.length + 1 := List.length_append
  rw [taken, whole, Option.getD_none, List.length_nil, long, if_neg (by omega), List.nil_append,
    if_pos ((newline_mem_iff _).mpr (List.mem_append_right body (List.mem_singleton.mpr rfl)))] at turn
  have split : body ++ 10 :: rest = (body ++ [10]) ++ rest := by rw [List.append_assoc, List.singleton_append]
  have left : (body ++ 10 :: rest).drop (body ++ [10]).length = rest := by rw [split, List.drop_left]
  rw [taken, left] at unread'
  refine ⟨s₁, unread', fun turns some' => ?_⟩
  obtain ⟨turns, rfl⟩ : ∃ k, turns = k + 1 := ⟨turns - 1, by omega⟩
  rw [promptGets, loop, run_bind_ok turn]
  rfl

theorem unread_start : Unread text errno text ⟨[], [], errno⟩ := ⟨rfl, rfl⟩

theorem promptGets_covered (blk : 0 < blksize) (wide : 2 ≤ len)
    (gets : ComesTo (fun fuel => promptGets (feedTty (.ofText text cuts) blksize) fuel len old) ⟨[], [], errno⟩
      (GetsLine text len)) : (∃ body rest, WholeLine len text body rest) ∨ errno ≠ none ∧ RunsOut len 0 text := by
  obtain ⟨enough, gets⟩ := gets
  have outcome := gets enough (Nat.le_refl enough)
  rcases run : (promptGets (feedTty (.ofText text cuts) blksize) enough len old).run ⟨[], [], errno⟩ with
    ⟨output, s'⟩ | ⟨r | _ | _, s'⟩
  · rw [run] at outcome
    obtain ⟨body, rest, line, _⟩ := outcome
    exact Or.inl ⟨body, rest, line⟩
  · exact Or.inr (@promptGets_error text text cuts blksize enough len errno _ old none s' blk wide r List.not_mem_nil
      unread_start run)
  · rw [run] at outcome
    exact outcome.elim
  · rw [run] at outcome
    exact outcome.elim

end

/-- `prompt_gets` does as it should with a whole line that fits, and where an old error is reported once the text
has run out. -/
theorem promptGets_line_iff (text : List Byte) (cuts : Nat → Bool) (blksize len : Nat) (old : Option (List Char))
    (errno : Option Errno) (blk : 0 < blksize) (wide : 2 ≤ len) :
    ComesTo (fun fuel => promptGets (feedTty (.ofText text cuts) blksize) fuel len old) ⟨[], [], errno⟩
      (GetsLine text len) ↔ (∃ body rest, WholeLine len text body rest) ∨ errno ≠ none ∧ RunsOut len 0 text := by
  refine ⟨promptGets_covered blk wide, ?_⟩
  rintro (⟨body, rest, line⟩ | ⟨set, out⟩)
  · obtain ⟨s', unread, run⟩ := @promptGets_whole text rest cuts blksize len errno ⟨[], [], errno⟩ old body blk wide line
      unread_start
    refine ⟨1, fun fuel some' => ?_⟩
    rw [run fuel some']
    exact ⟨body, rest, line, rfl, unread.rest⟩
  · obtain ⟨r, rfl⟩ := Option.ne_none_iff_exists'.mp set
    obtain ⟨enough, runs⟩ := @promptGets_runsOut text text cuts blksize len ⟨[], [], some r⟩ old none blk wide r 0 out
      List.not_mem_nil rfl unread_start
    refine ⟨enough, fun fuel le => ?_⟩
    obtain ⟨s', run⟩ := runs fuel le
    show GetsLine text len ((loop (promptGetsTurn (feedTty (.ofText text cuts) blksize) len old) fuel none).run _)
    rw [run]
    trivial

/-- A line of two characters. -/
theorem promptGets_line_hi : ComesTo
    (fun fuel => promptGets (feedTty (.ofText [0x68, 0x69, 0x0a] fun _ => true) 4096) fuel 256 none) ⟨[], [], none⟩
      (GetsLine [0x68, 0x69, 0x0a] 256) ↔
    (∃ body rest, WholeLine 256 [0x68, 0x69, 0x0a] body rest) ∨
      (none : Option Errno) ≠ none ∧ RunsOut 256 0 [0x68, 0x69, 0x0a] :=
  promptGets_line_iff [0x68, 0x69, 0x0a] (fun _ => true) 4096 256 none none (by decide) (by decide)

/-- With nothing to read and no error before it returns 0. -/
theorem promptGets_no_line : ¬ ∀ (text : List Byte) (cuts : Nat → Bool) (blksize len : Nat) (old : Option (List Char))
    (errno : Option Errno), 0 < blksize → 2 ≤ len →
    ComesTo (fun fuel => promptGets (feedTty (.ofText text cuts) blksize) fuel len old) ⟨[], [], errno⟩
      (GetsLine text len) := by
  intro all
  have gets := all [] (fun _ => false) 4096 256 none none (by decide) (by decide)
  rcases promptGets_covered (by decide) (by decide) gets with ⟨body, rest, line, _⟩ | ⟨set, _⟩
  · cases body <;> cases line
  · exact set rfl

end Culvert
