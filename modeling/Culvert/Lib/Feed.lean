import Culvert.Lib.ByteMem
import Culvert.Lib.Hoare

/-! A descriptor that hands over a stream in pieces, and keeps what it has handed over. -/

/-- The bytes that come in, how many there are if they end, and where they are cut. At the end a read waits
for good, unless the other side has closed the stream. -/
structure Feed where
  bytes : Mem
  size : Option Nat
  cuts : Nat → Bool
  closed : Bool

namespace Feed

/-- A text, and then the end of the file. -/
def ofText (text : List Byte) (cuts : Nat → Bool) : Feed where
  bytes i := text.getD i 0
  size := some text.length
  cuts := cuts
  closed := true

/-- So many bytes come at least. -/
def Has (f : Feed) (n : Nat) : Prop := ∀ z ∈ f.size, n ≤ z

/-- How long a piece is that starts at `pos`, with room for so many bytes. -/
def piece (f : Feed) (pos : Nat) : Nat → Nat
  | 0 => 0
  | room + 1 => if f.cuts (pos + 1) then 1 else f.piece (pos + 1) room + 1

def avail (f : Feed) (pos count : Nat) : Nat := f.size.elim count fun z => min count (z - pos)

def read (f : Feed) (count : Nat) : Prog (List (List Byte)) (List Byte) := fun handed =>
  let n := f.piece handed.flatten.length (f.avail handed.flatten.length count)
  if n = 0 ∧ count ≠ 0 ∧ f.closed = false then .error .hang handed
  else
    let bs := ByteMem.read f.bytes handed.flatten.length n
    .ok bs (handed ++ [bs])

/-- A read at `pos` with room for `count` bytes may hand over `n`. -/
structure Reads (f : Feed) (pos count n : Nat) : Prop where
  some' : 0 < n
  fits : n ≤ count
  has : f.Has (pos + n)
  whole : ∀ x, pos < x → x < pos + n → f.cuts x = false
  ends : n < count → f.Has (pos + n + 1) → f.cuts (pos + n) = true

variable {f : Feed} {pos room count n : Nat} {handed : List (List Byte)}

theorem Has.mono (has : f.Has n) (le : pos ≤ n) : f.Has pos := fun z mem => le.trans (has z mem)

theorem ends_before (less : ¬ f.Has n) : ∃ z, f.size = some z ∧ z < n := by
  simpa only [Has, not_forall, Option.mem_def, Nat.not_le, exists_prop] using less

theorem piece_le (f : Feed) (pos room : Nat) : f.piece pos room ≤ room := by
  induction room generalizing pos with
  | zero => exact Nat.le_refl 0
  | succ room ih =>
    rw [piece]
    split
    · exact Nat.succ_le_succ (Nat.zero_le room)
    · exact Nat.succ_le_succ (ih (pos + 1))

theorem piece_pos (f : Feed) (pos : Nat) (some' : 0 < room) : 0 < f.piece pos room := by
  obtain ⟨room, rfl⟩ : ∃ k, room = k + 1 := ⟨room - 1, by omega⟩
  rw [piece]
  split
  · exact Nat.one_pos
  · exact Nat.succ_pos _

/-- A piece stops at the first cut. -/
theorem piece_whole {x : Nat} (after : pos < x) (before : x < pos + f.piece pos room) : f.cuts x = false := by
  induction room generalizing pos with
  | zero =>
    rw [piece] at before
    omega
  | succ room ih =>
    rw [piece] at before
    split at before
    · omega
    case isFalse uncut =>
      by_cases first : x = pos + 1
      · rw [first]
        exact Bool.eq_false_iff.mpr uncut
      · exact @ih (pos + 1) (by omega) (by omega)

theorem piece_ends (short : f.piece pos room < room) : f.cuts (pos + f.piece pos room) = true := by
  induction room generalizing pos with
  | zero => exact absurd short (Nat.not_lt_zero _)
  | succ room ih =>
    rw [piece] at short ⊢
    split at short
    case isTrue cut => rw [if_pos cut, cut]
    case isFalse uncut =>
      rw [if_neg uncut, ← Nat.add_assoc, Nat.add_right_comm]
      exact ih (Nat.lt_of_succ_lt_succ short)

theorem avail_le (f : Feed) (pos count : Nat) : f.avail pos count ≤ count := by
  rw [avail]
  cases f.size with
  | none => exact Nat.le_refl count
  | some z => exact Nat.min_le_left count (z - pos)

theorem avail_has (here : f.Has pos) : f.Has (pos + f.avail pos count) := by
  intro z mem
  have least := here z mem
  rw [avail, Option.mem_def.mp mem, Option.elim_some]
  omega

theorem avail_pos (some' : 0 < count) (has : f.Has (pos + 1)) : 0 < f.avail pos count := by
  rw [avail]
  cases size : f.size with
  | none => exact some'
  | some z =>
    have more := has z size
    rw [Option.elim_some]
    omega

theorem avail_more (short : n < count) (has : f.Has (pos + n + 1)) : n < f.avail pos count := by
  rw [avail]
  cases size : f.size with
  | none => exact short
  | some z =>
    have more := has z size
    rw [Option.elim_some]
    omega

/-- While bytes are to come a read hands over some of them. -/
theorem read_some (some' : 0 < count) (has : f.Has (handed.flatten.length + 1)) :
    ∃ n, f.Reads handed.flatten.length count n ∧
      (f.read count).run handed = .ok (ByteMem.read f.bytes handed.flatten.length n)
        (handed ++ [ByteMem.read f.bytes handed.flatten.length n]) := by
  have pos : 0 < f.piece handed.flatten.length (f.avail handed.flatten.length count) :=
    f.piece_pos handed.flatten.length (avail_pos some' has)
  have le := f.piece_le handed.flatten.length (f.avail handed.flatten.length count)
  refine ⟨f.piece handed.flatten.length (f.avail handed.flatten.length count),
    ⟨pos, le.trans (f.avail_le _ _), (@avail_has f _ count (has.mono (Nat.le_succ _))).mono (by omega),
      fun x after before => piece_whole after before, fun short more => piece_ends (avail_more short more)⟩, ?_⟩
  exact if_neg fun stuck => absurd stuck.1 (by omega)

/-- At the end there is nothing more. -/
theorem read_end {z : Nat} (size : f.size = some z) (done : z ≤ handed.flatten.length) (closed : f.closed = true) :
    (f.read count).run handed = .ok [] (handed ++ [[]]) := by
  have none : f.avail handed.flatten.length count = 0 := by
    rw [avail, size, Option.elim_some]
    omega
  show (if _ then _ else _) = _
  rw [if_neg, none, piece, ByteMem.read_zero]
  rintro ⟨_, _, waits⟩
  rw [closed] at waits
  cases waits

theorem read_waits {z : Nat} (size : f.size = some z) (done : z ≤ handed.flatten.length) (some' : 0 < count)
    (waits : f.closed = false) : (f.read count).run handed = .error .hang handed := by
  have none : f.avail handed.flatten.length count = 0 := by
    rw [avail, size, Option.elim_some]
    omega
  show (if _ then _ else _) = _
  rw [if_pos]
  rw [none, piece]
  exact ⟨rfl, by omega, waits⟩

/-- Once everything has come a read waits, or hands over nothing. -/
theorem read_done {z : Nat} (size : f.size = some z) (done : z ≤ handed.flatten.length) (some' : 0 < count) :
    (f.read count).run handed = .error .hang handed ∨ (f.read count).run handed = .ok [] (handed ++ [[]]) := by
  cases closed : f.closed with
  | false => exact Or.inl (read_waits size done some' closed)
  | true => exact Or.inr (read_end size done closed)

theorem read_nothing : (f.read 0).run handed = .ok [] (handed ++ [[]]) := by
  have none : f.avail handed.flatten.length 0 = 0 := Nat.le_zero.mp (f.avail_le _ 0)
  show (if _ then _ else _) = _
  rw [if_neg (fun stuck => stuck.2.1 rfl), none, piece, ByteMem.read_zero]

/-! Where a text occurs in what comes. -/

def Occurs (f : Feed) (str : List Byte) (q : Nat) : Prop := ByteMem.read f.bytes q str.length = str

/-- The text occurs in the bytes from `start` up to `stop`. -/
def Within (f : Feed) (str : List Byte) (start stop : Nat) : Prop :=
  ∃ q, start ≤ q ∧ q + str.length ≤ stop ∧ f.Occurs str q

instance (f : Feed) (str : List Byte) (q : Nat) : Decidable (f.Occurs str q) :=
  inferInstanceAs (Decidable (_ = _))

variable {str : List Byte} {start stop : Nat}

theorem Within.mono (within : f.Within str start stop) {stop' : Nat} (le : stop ≤ stop') : f.Within str start stop' := by
  obtain ⟨q, after, before, here⟩ := within
  exact ⟨q, after, before.trans le, here⟩

theorem infix_read_iff : str <:+: ByteMem.read f.bytes start n ↔ f.Within str start (start + n) := by
  constructor
  · rintro ⟨before, after, whole⟩
    have length := congrArg List.length whole
    rw [List.length_append, List.length_append, ByteMem.read_length] at length
    refine ⟨start + before.length, Nat.le_add_right _ _, by omega, ?_⟩
    rw [← length, ByteMem.read_add, ByteMem.read_add] at whole
    have front := (List.append_inj whole (by simp)).1
    exact (List.append_inj front (by simp)).2.symm
  · rintro ⟨q, after, before, here⟩
    refine ⟨ByteMem.read f.bytes start (q - start), ByteMem.read f.bytes (q + str.length) (start + n - (q + str.length)), ?_⟩
    have split : n = q - start + str.length + (start + n - (q + str.length)) := by omega
    have first : start + (q - start) = q := by omega
    have last : start + (q - start + str.length) = q + str.length := by omega
    conv_rhs => rw [split, ByteMem.read_add, ByteMem.read_add, first, last, here]

/-- What has been handed over is the front of the stream. -/
def Front (f : Feed) (handed : List (List Byte)) : Prop :=
  handed.flatten = ByteMem.read f.bytes 0 handed.flatten.length

theorem Front.read (front : f.Front handed) : f.Front (handed ++ [ByteMem.read f.bytes handed.flatten.length n]) := by
  rw [Front, List.flatten_append, List.length_append, List.flatten_singleton, ByteMem.read_length, ByteMem.read_add,
    ← front, Nat.zero_add]

theorem read_front (count : Nat) : Prog.Triple f.Front (f.read count) (fun _ => f.Front) fun _ _ => True := by
  intro handed front
  refine ⟨fun bs handed' run => ?_, fun _ _ _ => trivial⟩
  simp only [Feed.read, EStateM.run] at run
  split at run
  · cases run
  · cases run
    exact front.read

/-! A text and its end. -/

variable {text : List Byte} {cuts : Nat → Bool} {q : Nat}

theorem has_ofText : (ofText text cuts).Has n ↔ n ≤ text.length :=
  ⟨fun has => has text.length rfl, fun le z mem => by cases mem; exact le⟩

theorem read_ofText (fits : q + n ≤ text.length) :
    ByteMem.read (ofText text cuts).bytes q n = (text.drop q).take n := by
  apply List.ext_getElem
  · simp only [ByteMem.read_length, List.length_take, List.length_drop]
    omega
  · intro i inside _
    rw [ByteMem.read_length] at inside
    simp only [ByteMem.read, ofText, List.getElem_map, List.getElem_range, List.getElem_take, List.getElem_drop]
    exact List.getD_eq_getElem _ _ (by omega)

theorem read_ofText_all : ByteMem.read (ofText text cuts).bytes 0 text.length = text := by
  rw [read_ofText (by omega), List.drop_zero, List.take_length]

/-- Where a text occurs in another. -/
theorem occurs_ofText (fits : q + str.length ≤ text.length) : (ofText text cuts).Occurs str q ↔ str <+: text.drop q := by
  rw [Occurs, read_ofText fits, List.prefix_iff_eq_take]
  exact eq_comm

end Feed
