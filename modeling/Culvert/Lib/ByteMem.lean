import Mathlib

abbrev Byte := BitVec 8
abbrev Word := BitVec 32

/-- A byte at every address. -/
abbrev Mem := Nat → Byte

namespace Word

/-- The little-endian word of four bytes. -/
def ofBytes (b₀ b₁ b₂ b₃ : Byte) : Word := b₃ ++ b₂ ++ b₁ ++ b₀

def byte (w : Word) (i : Nat) : Byte := w.extractLsb' (8 * i) 8

def bytes (w : Word) : List Byte := [w.byte 0, w.byte 1, w.byte 2, w.byte 3]

@[simp] theorem bytes_length (w : Word) : w.bytes.length = 4 := rfl

@[simp] theorem ofBytes_bytes (w : Word) : ofBytes (w.byte 0) (w.byte 1) (w.byte 2) (w.byte 3) = w := by
  simp only [ofBytes, byte]
  ext i h
  simp only [BitVec.getElem_append, BitVec.getElem_extractLsb']
  split
  · rw [← BitVec.getLsbD_eq_getElem]
    congr 1
    omega
  split
  · rw [← BitVec.getLsbD_eq_getElem]
    congr 1
    omega
  split
  · rw [← BitVec.getLsbD_eq_getElem]
    congr 1
    omega
  · rw [← BitVec.getLsbD_eq_getElem]
    congr 1
    omega

@[simp] theorem bytes_ofBytes (b₀ b₁ b₂ b₃ : Byte) : (ofBytes b₀ b₁ b₂ b₃).bytes = [b₀, b₁, b₂, b₃] := by
  simp only [bytes, ofBytes, byte, List.cons.injEq, and_true]
  refine ⟨?_, ?_, ?_, ?_⟩ <;>
  · ext i h
    simp only [BitVec.getElem_extractLsb', BitVec.getLsbD_append]
    grind

/-- What a mask keeps and what it clears add up to the word. -/
theorem toNat_and_add_and_not (w m : Word) : (w &&& m).toNat + (w &&& ~~~m).toNat = w.toNat := by
  have apart : (w &&& m) &&& (w &&& ~~~m) = 0#32 := by
    ext i h
    simp only [BitVec.getElem_and, BitVec.getElem_not, BitVec.getElem_zero]
    cases w[i] <;> cases m[i] <;> rfl
  have together : (w &&& m) ||| (w &&& ~~~m) = w := by
    ext i h
    simp only [BitVec.getElem_and, BitVec.getElem_not, BitVec.getElem_or]
    cases w[i] <;> cases m[i] <;> rfl
  rw [← BitVec.toNat_add_of_and_eq_zero apart, BitVec.add_eq_or_of_and_eq_zero _ _ apart, together]

theorem toNat_add_ofNat {w : Word} {n : Nat} (fits : w.toNat + n < 2 ^ 32) :
    (w + BitVec.ofNat 32 n).toNat = w.toNat + n := by
  rw [BitVec.toNat_add, BitVec.toNat_ofNat]
  omega

end Word

namespace ByteMem
variable {m : Mem} {a x n : Nat} {bs : List Byte}

/-- The `n` bytes from `a` on. -/
def read (m : Mem) (a n : Nat) : List Byte := (List.range n).map fun i => m (a + i)

/-- Store `bs` from `a` on. -/
def write (m : Mem) (a : Nat) (bs : List Byte) : Mem := fun x => if a ≤ x then (bs[x - a]?).getD (m x) else m x

def readWord (m : Mem) (a : Nat) : Word := Word.ofBytes (m a) (m (a + 1)) (m (a + 2)) (m (a + 3))

def writeWord (m : Mem) (a : Nat) (w : Word) : Mem := write m a w.bytes

@[simp] theorem read_length (m : Mem) (a n : Nat) : (read m a n).length = n := by simp [read]

@[simp] theorem read_zero (m : Mem) (a : Nat) : read m a 0 = [] := rfl

theorem read_getElem? {i : Nat} (inside : i < n) : (read m a n)[i]? = some (m (a + i)) := by
  simp [read, inside]

theorem read_succ (m : Mem) (a n : Nat) : read m a (n + 1) = m a :: read m (a + 1) n := by
  simp only [read, List.range_succ_eq_map, List.map_cons, List.map_map, Nat.add_zero]
  congr 1
  apply List.map_congr_left
  intro i _
  simp only [Function.comp_apply]
  congr 1
  omega

theorem read_add (m : Mem) (a n k : Nat) : read m a (n + k) = read m a n ++ read m (a + n) k := by
  simp only [read, List.range_add, List.map_append, List.map_map]
  congr 1
  apply List.map_congr_left
  intro i _
  simp [Nat.add_assoc]

theorem read_drop {k : Nat} (le : k ≤ n) : (read m a n).drop k = read m (a + k) (n - k) := by
  have split : read m a n = read m a k ++ read m (a + k) (n - k) := by
    rw [← read_add, Nat.add_sub_cancel' le]
  rw [split]
  exact List.drop_left' (by simp)

theorem read_take {k : Nat} (le : k ≤ n) : (read m a n).take k = read m a k := by
  have split : read m a n = read m a k ++ read m (a + k) (n - k) := by
    rw [← read_add, Nat.add_sub_cancel' le]
  rw [split]
  exact List.take_left' (by simp)

theorem read_congr {m' : Mem} (same : ∀ x, a ≤ x → x < a + n → m' x = m x) : read m' a n = read m a n := by
  simp only [read]
  apply List.map_congr_left
  intro i inside
  rw [List.mem_range] at inside
  exact same (a + i) (by omega) (by omega)

@[simp] theorem write_nil (m : Mem) (a : Nat) : write m a [] = m := by
  funext x
  simp [write]

theorem write_below {x : Nat} (below : x < a) : write m a bs x = m x := by
  rw [write, if_neg (by omega)]

theorem write_above {x : Nat} (above : a + bs.length ≤ x) : write m a bs x = m x := by
  rw [write]
  split
  · rw [List.getElem?_eq_none (by omega), Option.getD_none]
  · rfl

theorem write_inside {i : Nat} (inside : i < bs.length) : write m a bs (a + i) = bs[i] := by
  rw [write, if_pos (by omega), Nat.add_sub_cancel_left, List.getElem?_eq_getElem inside, Option.getD_some]

theorem write_append (m : Mem) (a : Nat) (bs cs : List Byte) :
    write m a (bs ++ cs) = write (write m a bs) (a + bs.length) cs := by
  funext x
  by_cases before : x < a + bs.length
  · rw [write_below before]
    simp only [write]
    split
    · rw [List.getElem?_append_left (by omega)]
    · rfl
  · by_cases within : x < a + bs.length + cs.length
    · obtain ⟨i, rfl⟩ : ∃ i, x = a + bs.length + i := ⟨x - (a + bs.length), by omega⟩
      rw [write_inside (m := write m a bs) (by omega), Nat.add_assoc,
        write_inside (by simp only [List.length_append]; omega),
        List.getElem_append_right (by omega)]
      simp
    · rw [write_above (by simp only [List.length_append]; omega), write_above (by omega), write_above (by omega)]

theorem write_singleton_apply (m : Mem) (a : Nat) (b : Byte) (x : Nat) :
    write m a [b] x = if x = a then b else m x := by
  rcases Nat.lt_trichotomy x a with lower | rfl | upper
  · rw [write_below lower, if_neg (by omega)]
  · rw [if_pos rfl]
    exact @write_inside m x [b] 0 (by simp)
  · rw [write_above (by simp only [List.length_singleton]; omega), if_neg (by omega)]

theorem write_cons (m : Mem) (a : Nat) (b : Byte) (bs : List Byte) :
    write m a (b :: bs) = write (write m a [b]) (a + 1) bs := by
  simpa using write_append m a [b] bs

/-- Storing back what is there changes nothing. -/
theorem write_read (m : Mem) (a n : Nat) : write m a (read m a n) = m := by
  funext x
  by_cases below : x < a
  · exact write_below below
  by_cases within : x < a + n
  · obtain ⟨i, rfl⟩ : ∃ i, x = a + i := ⟨x - a, by omega⟩
    rw [write_inside (by simp only [read_length]; omega)]
    simp [read]
  · exact write_above (by simp only [read_length]; omega)

theorem read_write (m : Mem) (a : Nat) (bs : List Byte) : read (write m a bs) a bs.length = bs := by
  apply List.ext_getElem (by simp)
  intro i _ inside
  simp only [read, List.getElem_map, List.getElem_range]
  exact write_inside inside

/-- Storing only the last byte, at `a`, is storing all of `bs` exactly when the first byte is the last
one and the others are already there. -/
theorem write_getLast?_eq_iff (m : Mem) (a : Nat) (bs : List Byte) : write m a bs.getLast?.toList = write m a bs ↔
    bs.head? = bs.getLast? ∧ ∀ i, 0 < i → i < bs.length → bs[i]? = some (m (a + i)) := by
  cases bs with
  | nil => simp
  | cons b rest =>
    obtain ⟨l, last⟩ : ∃ l, (b :: rest).getLast? = some l := ⟨_, List.getLast?_eq_some_getLast (by simp)⟩
    rw [last, Option.toList_some, List.head?_cons]
    constructor
    · intro same
      have at' (i : Nat) (inside : i < (b :: rest).length) : (if a + i = a then l else m (a + i)) = (b :: rest)[i] := by
        rw [← write_singleton_apply, same, write_inside inside]
      refine ⟨?_, fun i pos inside => ?_⟩
      · have first := at' 0 (by simp)
        simp only [Nat.add_zero, if_true, List.getElem_cons_zero] at first
        rw [first]
      · rw [List.getElem?_eq_getElem inside, ← at' i inside, if_neg (by omega)]
    · rintro ⟨first, others⟩
      funext x
      rw [write_singleton_apply]
      by_cases below : x < a
      · rw [write_below below, if_neg (by omega)]
      by_cases within : x < a + (b :: rest).length
      · obtain ⟨i, rfl⟩ : ∃ i, x = a + i := ⟨x - a, by omega⟩
        have inside : i < (b :: rest).length := by omega
        rw [write_inside inside]
        rcases Nat.eq_zero_or_pos i with rfl | pos
        · rw [if_pos (Nat.add_zero a), List.getElem_cons_zero]
          exact (Option.some.inj first).symm
        · have kept := others i pos inside
          rw [List.getElem?_eq_getElem inside] at kept
          rw [if_neg (by omega), Option.some.inj kept]
      · rw [write_above (by omega), if_neg (by simp only [List.length_cons] at within; omega)]

theorem bytes_readWord (m : Mem) (a : Nat) : (readWord m a).bytes = read m a 4 := by
  simp [readWord, read, List.range_succ]

/-- The little-endian word of a list of four bytes. -/
def wordOf : List Byte → Word
  | [b₀, b₁, b₂, b₃] => Word.ofBytes b₀ b₁ b₂ b₃
  | _ => 0

@[simp] theorem wordOf_bytes (w : Word) : wordOf w.bytes = w := Word.ofBytes_bytes w

theorem wordOf_read (m : Mem) (a : Nat) : wordOf (read m a 4) = readWord m a := by
  rw [← bytes_readWord, wordOf_bytes]

theorem read_write_of_disjoint {n : Nat} (disjoint : a + n ≤ x ∨ x + bs.length ≤ a) :
    read (write m x bs) a n = read m a n := by
  apply List.map_congr_left
  intro i mem
  rw [List.mem_range] at mem
  rcases disjoint with below | above
  · exact write_below (by omega)
  · exact write_above (by omega)

theorem readWord_write (m : Mem) (a : Nat) (w : Word) : readWord (write m a w.bytes) a = w := by
  rw [← wordOf_read, ← Word.bytes_length w, read_write, wordOf_bytes]

theorem readWord_write_of_disjoint (disjoint : a + 4 ≤ x ∨ x + bs.length ≤ a) :
    readWord (write m x bs) a = readWord m a := by
  rw [← wordOf_read, read_write_of_disjoint disjoint, wordOf_read]

/-- The `n` bytes from `src` on, copied one by one to `dst` on. -/
def copy (m : Mem) (dst src : Nat) : Nat → Mem
  | 0 => m
  | n + 1 => write (copy m dst src n) (dst + n) [copy m dst src n (src + n)]

theorem copy_eq_write {dst src : Nat} (apart : src + n ≤ dst ∨ dst + n ≤ src) :
    copy m dst src n = write m dst (read m src n) := by
  induction n with
  | zero => rw [copy, read_zero, write_nil]
  | succ n ih =>
    have kept : write m dst (read m src n) (src + n) = m (src + n) := by
      rcases apart with below | above
      · exact write_below (by omega)
      · exact write_above (by rw [read_length]; omega)
    rw [copy, ih (by omega), kept, read_add, write_append, read_length, read_succ, read_zero]

/-- Copying more at once comes to the same where the ranges are apart. -/
theorem copy_add {dst src k : Nat} (apart : src + (n + k) ≤ dst ∨ dst + (n + k) ≤ src) :
    copy m dst src (n + k) = write (copy m dst src n) (dst + n) (read (copy m dst src n) (src + n) k) := by
  have kept : read (write m dst (read m src n)) (src + n) k = read m (src + n) k := by
    apply read_write_of_disjoint
    rw [read_length]
    omega
  rw [copy_eq_write apart, copy_eq_write (by omega), kept, read_add, write_append, read_length]

end ByteMem
