import Culvert.Lib.Scan

/-! The occurrences of a text in another, from left to right and without overlaps. -/

namespace Text
variable {α : Type} [DecidableEq α]

/-- Where `needle` begins behind the first `skip` elements. The search goes on behind each occurrence. -/
def occurrences (needle : List α) : Nat → List α → List Nat
  | _, [] => []
  | skip + 1, _ :: hay => (occurrences needle skip hay).map (· + 1)
  | 0, x :: hay =>
    if needle <+: x :: hay then 0 :: (occurrences needle (needle.length - 1) hay).map (· + 1)
    else (occurrences needle 0 hay).map (· + 1)

/-- The occurrences in so many windows of a size, each searched on its own. -/
def windowOccurrences (needle : List α) (size : Nat) : Nat → List α → List Nat
  | 0, _ => []
  | n + 1, hay => occurrences needle 0 (hay.take size) ++ (windowOccurrences needle size n (hay.drop size)).map (· + size)

example : occurrences [1, 1] 0 [1, 1, 1, 2, 1, 1] = [0, 4] := by decide

section
variable {needle hay front back : List α} {skip size n p : Nat}

theorem occurrences_drop (needle : List α) (skip : Nat) (hay : List α) :
    occurrences needle skip hay = (occurrences needle 0 (hay.drop skip)).map (· + skip) := by
  induction hay generalizing skip with
  | nil => simp [occurrences]
  | cons x hay ih =>
    cases skip with
    | zero => simp
    | succ skip =>
      rw [occurrences, ih skip, List.drop_succ_cons, List.map_map]
      rfl

theorem occurrences_none (none : memmem needle hay = none) : occurrences needle 0 hay = [] := by
  induction hay with
  | nil => rfl
  | cons x hay ih =>
    rw [memmem] at none
    split at none
    · cases none
    · rename_i here
      rw [occurrences, if_neg here, ih (Option.map_eq_none_iff.mp none), List.map_nil]

/-- The first occurrence is the one that `memmem` finds. -/
theorem occurrences_some (some' : needle ≠ []) (found : memmem needle hay = some p) :
    occurrences needle 0 hay =
      p :: (occurrences needle 0 (hay.drop (p + needle.length))).map (· + (p + needle.length)) := by
  have long : 0 < needle.length := List.length_pos_iff.mpr some'
  induction hay generalizing p with
  | nil =>
    rw [memmem, if_neg some'] at found
    cases found
  | cons x hay ih =>
    rw [memmem] at found
    by_cases here : needle <+: x :: hay
    · rw [if_pos here] at found
      cases found
      obtain ⟨k, length⟩ : ∃ k, needle.length = k + 1 := ⟨needle.length - 1, by omega⟩
      rw [occurrences, if_pos here, occurrences_drop needle (needle.length - 1), length, List.map_map]
      simp only [Nat.zero_add, Nat.add_sub_cancel, List.drop_succ_cons]
      rfl
    · rw [if_neg here] at found
      obtain ⟨q, later, rfl⟩ := Option.map_eq_some_iff.mp found
      have shift : q + 1 + needle.length = (q + needle.length) + 1 := by omega
      rw [occurrences, if_neg here, ih later, shift, List.drop_succ_cons, List.map_cons, List.map_map]
      rfl

theorem prefix_of_mem_occurrences (mem : p ∈ occurrences needle skip hay) : skip ≤ p ∧ needle <+: hay.drop p := by
  induction hay generalizing skip p with
  | nil => cases mem
  | cons x hay ih =>
    cases skip with
    | zero =>
      refine ⟨Nat.zero_le p, ?_⟩
      rw [occurrences] at mem
      split at mem
      · rename_i here
        rcases List.mem_cons.mp mem with rfl | later
        · exact here
        · obtain ⟨q, mem', rfl⟩ := List.mem_map.mp later
          exact (ih mem').2
      · obtain ⟨q, mem', rfl⟩ := List.mem_map.mp mem
        exact (ih mem').2
    | succ skip =>
      rw [occurrences] at mem
      obtain ⟨q, mem', rfl⟩ := List.mem_map.mp mem
      obtain ⟨le, here⟩ := ih mem'
      exact ⟨Nat.succ_le_succ le, here⟩

theorem occurrences_inside (some' : needle ≠ []) (mem : p ∈ occurrences needle skip hay) :
    p + needle.length ≤ hay.length := by
  obtain ⟨_, here⟩ := prefix_of_mem_occurrences mem
  have long : 0 < needle.length := List.length_pos_iff.mpr some'
  have le := here.length_le
  rw [List.length_drop] at le
  omega

theorem occurrences_apart (needle : List α) (skip : Nat) (hay : List α) :
    (occurrences needle skip hay).Pairwise fun p q => p + needle.length ≤ q := by
  induction hay generalizing skip with
  | nil => exact List.Pairwise.nil
  | cons x hay ih =>
    have later (skip : Nat) : ((occurrences needle skip hay).map (· + 1)).Pairwise fun p q => p + needle.length ≤ q :=
      List.pairwise_map.mpr ((ih skip).imp fun le => by omega)
    cases skip with
    | zero =>
      rw [occurrences]
      split
      · refine List.Pairwise.cons (fun q mem => ?_) (later _)
        obtain ⟨q, mem', rfl⟩ := List.mem_map.mp mem
        have := (prefix_of_mem_occurrences mem').1
        omega
      · exact later 0
    | succ skip => exact later skip

/-- Where none lies across it a text may be cut. -/
theorem occurrences_append (short : skip ≤ front.length)
    (whole : ∀ p ∈ occurrences needle skip (front ++ back), p < front.length → p + needle.length ≤ front.length) :
    occurrences needle skip (front ++ back) =
      occurrences needle skip front ++ (occurrences needle 0 back).map (· + front.length) := by
  induction front generalizing skip with
  | nil =>
    obtain rfl : skip = 0 := Nat.le_zero.mp short
    simp [occurrences]
  | cons x front ih =>
    have step (k : Nat) (le : k ≤ front.length) (later : ∀ q ∈ occurrences needle k (front ++ back),
        q + 1 ∈ occurrences needle skip (x :: front ++ back)) :
        (occurrences needle k (front ++ back)).map (· + 1) = (occurrences needle k front).map (· + 1) ++
          (occurrences needle 0 back).map (· + (x :: front).length) := by
      rw [ih le fun q mem less => ?_, List.map_append, List.map_map]
      · rfl
      · have := whole (q + 1) (later q mem) (by rw [List.length_cons]; omega)
        rw [List.length_cons] at this
        omega
    cases skip with
    | zero =>
      rw [List.cons_append, occurrences, occurrences]
      by_cases here : needle <+: x :: (front ++ back)
      · have first : 0 ∈ occurrences needle 0 (x :: front ++ back) := by
          rw [List.cons_append, occurrences, if_pos here]
          exact List.mem_cons_self
        have fits := whole 0 first (Nat.succ_pos _)
        have here' : needle <+: x :: front :=
          List.prefix_of_prefix_length_le here (List.prefix_append (x :: front) back) (by omega)
        rw [if_pos here, if_pos here', List.cons_append, step (needle.length - 1) ?_ fun q mem => ?_]
        · rw [List.length_cons] at fits
          omega
        · rw [List.cons_append, occurrences, if_pos here]
          exact List.mem_cons_of_mem 0 (List.mem_map_of_mem mem)
      · have here' : ¬ needle <+: x :: front := fun early =>
          here (early.trans (by rw [← List.cons_append]; exact List.prefix_append _ _))
        rw [if_neg here, if_neg here', step 0 (Nat.zero_le _) fun q mem => ?_]
        rw [List.cons_append, occurrences, if_neg here]
        exact List.mem_map_of_mem mem
    | succ skip =>
      rw [List.cons_append, occurrences, occurrences, step skip (Nat.le_of_succ_le_succ short) fun q mem => ?_]
      rw [List.cons_append, occurrences]
      exact List.mem_map_of_mem mem

theorem prefix_of_mem_windowOccurrences (mem : p ∈ windowOccurrences needle size n hay) : needle <+: hay.drop p := by
  induction n generalizing hay p with
  | zero => cases mem
  | succ n ih =>
    rcases List.mem_append.mp mem with here | later
    · obtain ⟨_, first⟩ := prefix_of_mem_occurrences here
      rw [List.drop_take] at first
      exact first.trans (List.take_prefix _ _)
    · obtain ⟨q, mem', rfl⟩ := List.mem_map.mp later
      have rest := ih mem'
      rw [List.drop_drop, Nat.add_comm] at rest
      exact rest

theorem windowOccurrences_apart (some' : needle ≠ []) (size n : Nat) (hay : List α) :
    (windowOccurrences needle size n hay).Pairwise fun p q => p + needle.length ≤ q := by
  induction n generalizing hay with
  | zero => exact List.Pairwise.nil
  | succ n ih =>
    refine List.pairwise_append.mpr ⟨occurrences_apart needle 0 _, ?_, fun p here q later => ?_⟩
    · exact List.pairwise_map.mpr ((ih (hay.drop size)).imp fun le => by omega)
    · obtain ⟨q, _, rfl⟩ := List.mem_map.mp later
      have inside := occurrences_inside some' here
      rw [List.length_take] at inside
      omega

theorem windowOccurrences_fits (some' : needle ≠ []) (whole : hay.length = n * size)
    (mem : p ∈ windowOccurrences needle size n hay) : p % size + needle.length ≤ size := by
  induction n generalizing hay p with
  | zero => cases mem
  | succ n ih =>
    rw [Nat.succ_mul] at whole
    rcases List.mem_append.mp mem with here | later
    · have inside := occurrences_inside some' here
      have long : 0 < needle.length := List.length_pos_iff.mpr some'
      rw [List.length_take] at inside
      rw [Nat.mod_eq_of_lt (by omega)]
      omega
    · obtain ⟨q, mem', rfl⟩ := List.mem_map.mp later
      rw [Nat.add_mod_right]
      exact ih (by rw [List.length_drop]; omega) mem'

/-- Where none lies across the end of a window they are all found. -/
theorem windowOccurrences_eq (whole : hay.length = n * size)
    (fits : ∀ p ∈ occurrences needle 0 hay, p % size + needle.length ≤ size) :
    windowOccurrences needle size n hay = occurrences needle 0 hay := by
  induction n generalizing hay with
  | zero =>
    rw [Nat.zero_mul, List.length_eq_zero_iff] at whole
    rw [whole]
    rfl
  | succ n ih =>
    rw [Nat.succ_mul] at whole
    have first : (hay.take size).length = size := by
      rw [List.length_take]
      omega
    have cut := @occurrences_append α _ needle (hay.take size) (hay.drop size) 0 (Nat.zero_le _)
    rw [List.take_append_drop, first] at cut
    have split := cut fun p mem less => by
      have := fits p mem
      rw [Nat.mod_eq_of_lt less] at this
      exact this
    rw [windowOccurrences, split, ih (by rw [List.length_drop]; omega) fun p mem => ?_]
    have := fits (p + size) (by rw [split]; exact List.mem_append_right _ (List.mem_map_of_mem mem))
    rw [Nat.add_mod_right] at this
    exact this

end

end Text

namespace ByteMem

/-- `bs` is stored at each of the places, counted from `start`. -/
def overwrite (m : Mem) (start : Nat) (bs : List Byte) (places : List Nat) : Mem :=
  places.foldl (fun m p => write m (start + p) bs) m

section
variable {m : Mem} {start size x p : Nat} {bs needle : List Byte} {places others : List Nat}

theorem overwrite_append (m : Mem) (start : Nat) (bs : List Byte) (places others : List Nat) :
    overwrite m start bs (places ++ others) = overwrite (overwrite m start bs places) start bs others :=
  List.foldl_append

theorem overwrite_map (m : Mem) (start : Nat) (bs : List Byte) (size : Nat) (places : List Nat) :
    overwrite m start bs (places.map (· + size)) = overwrite m (start + size) bs places := by
  rw [overwrite, List.foldl_map, overwrite]
  congr 1
  funext m p
  rw [Nat.add_comm p size, Nat.add_assoc]

theorem overwrite_outside (outside : ∀ p ∈ places, x < start + p ∨ start + p + bs.length ≤ x) :
    overwrite m start bs places x = m x := by
  induction places generalizing m with
  | nil => rfl
  | cons p places ih =>
    have rest := @ih (write m (start + p) bs) fun q mem => outside q (List.mem_cons_of_mem p mem)
    rcases outside p List.mem_cons_self with below | above
    · exact rest.trans (write_below below)
    · exact rest.trans (write_above above)

theorem overwrite_inside {i : Nat} (inside : i < bs.length) (mem : p ∈ places)
    (apart : places.Pairwise fun p q => p + bs.length ≤ q) : overwrite m start bs places (start + p + i) = bs[i] := by
  induction places generalizing m with
  | nil => cases mem
  | cons q places ih =>
    obtain ⟨first, rest⟩ := List.pairwise_cons.mp apart
    rcases List.mem_cons.mp mem with rfl | later
    · have kept : overwrite (write m (start + p) bs) start bs places (start + p + i) = write m (start + p) bs (start + p + i) :=
        overwrite_outside fun q mem => by
          have := first q mem
          omega
      exact kept.trans (write_inside inside)
    · exact ih later rest

/-- The places are occurrences of `needle` from `start` on, without overlaps. -/
structure Occurs (needle : List Byte) (m : Mem) (start : Nat) (places : List Nat) : Prop where
  here : ∀ p ∈ places, ∀ i (inside : i < needle.length), m (start + p + i) = needle[i]
  apart : places.Pairwise fun p q => p + needle.length ≤ q

theorem occurs_of_prefix (some' : needle ≠ []) (here : ∀ p ∈ places, needle <+: (read m start size).drop p)
    (apart : places.Pairwise fun p q => p + needle.length ≤ q) : Occurs needle m start places := by
  refine ⟨fun p mem i inside => ?_, apart⟩
  obtain ⟨tail, shape⟩ := here p mem
  have long : 0 < needle.length := List.length_pos_iff.mpr some'
  have fits := congrArg List.length shape
  rw [List.length_append, List.length_drop, read_length] at fits
  have at' : (needle ++ tail)[i]? = ((read m start size).drop p)[i]? := by rw [shape]
  rw [List.getElem?_append_left inside, List.getElem?_eq_getElem inside, List.getElem?_drop, read_getElem? (by omega),
    ← Nat.add_assoc] at at'
  exact (Option.some.inj at').symm

theorem occurs_occurrences (some' : needle ≠ []) (m : Mem) (start size : Nat) :
    Occurs needle m start (Text.occurrences needle 0 (read m start size)) :=
  occurs_of_prefix some' (fun _ mem => (Text.prefix_of_mem_occurrences mem).2) (Text.occurrences_apart needle 0 _)

theorem occurs_windowOccurrences (some' : needle ≠ []) (m : Mem) (start size window n : Nat) :
    Occurs needle m start (Text.windowOccurrences needle window n (read m start size)) :=
  occurs_of_prefix some' (fun _ mem => Text.prefix_of_mem_windowOccurrences mem)
    (Text.windowOccurrences_apart some' window n _)

theorem Occurs.keeps (occurs : Occurs needle m start places) (stub : bs <+: needle) : overwrite m start bs places = m := by
  induction places with
  | nil => rfl
  | cons p places ih =>
    obtain ⟨tail, rfl⟩ := stub
    have same : bs = read m (start + p) bs.length := by
      refine List.ext_getElem (by simp) fun i inside _ => ?_
      have at' := occurs.here p List.mem_cons_self i (by rw [List.length_append]; omega)
      rw [List.getElem_append_left inside] at at'
      simp [read, at']
    have stored : write m (start + p) bs = m := by
      conv_lhs => rw [same]
      exact write_read m (start + p) bs.length
    rw [overwrite, List.foldl_cons, stored]
    exact ih ⟨fun q mem => occurs.here q (List.mem_cons_of_mem p mem), (List.pairwise_cons.mp occurs.apart).2⟩

/-- Where the two texts differ first. -/
theorem first_difference (short : bs.length ≤ needle.length) (other : ¬ bs <+: needle) :
    ∃ j, ∃ inside : j < bs.length, bs[j] ≠ needle[j] ∧ ∀ i (less : i < j), bs[i] = needle[i] := by
  classical
  have some' : ∃ j, ∃ inside : j < bs.length, bs[j] ≠ needle[j] := by
    by_contra none
    refine other ⟨needle.drop bs.length, ?_⟩
    have same : bs = needle.take bs.length := by
      refine List.ext_getElem (by simp [short]) fun i inside _ => ?_
      rw [List.getElem_take]
      by_contra differ
      exact none ⟨i, inside, differ⟩
    have whole : needle.take bs.length ++ needle.drop bs.length = needle := List.take_append_drop _ _
    rw [← same] at whole
    exact whole
  obtain ⟨inside, differ⟩ := Nat.find_spec some'
  refine ⟨Nat.find some', inside, differ, fun i less => ?_⟩
  by_contra differ'
  exact Nat.find_min some' less ⟨by omega, differ'⟩

/-- What is stored where it differs from what was there tells the places. -/
theorem Occurs.places_of_overwrite (occurs : Occurs needle m start places) (occurs' : Occurs needle m start others)
    (short : bs.length ≤ needle.length) (other : ¬ bs <+: needle)
    (same : overwrite m start bs places = overwrite m start bs others) (p : Nat) : p ∈ places ↔ p ∈ others := by
  obtain ⟨j, inside, differ, before⟩ := first_difference short other
  have one {places others : List Nat} (occurs : Occurs needle m start places) (occurs' : Occurs needle m start others)
      (same : overwrite m start bs places = overwrite m start bs others) (p : Nat) (mem : p ∈ places)
      (less : ∀ q < p, q ∈ others → q ∈ places) : p ∈ others := by
    have close {places : List Nat} (occurs : Occurs needle m start places) :
        places.Pairwise fun p q => p + bs.length ≤ q := occurs.apart.imp fun le => by omega
    have stored : overwrite m start bs others (start + p + j) = bs[j] := by
      rw [← same]
      exact overwrite_inside inside mem (close occurs)
    have old := occurs.here p mem j (by omega)
    obtain ⟨q, mem', low, high⟩ : ∃ q ∈ others, start + q ≤ start + p + j ∧ start + p + j < start + q + bs.length := by
      by_contra none
      rw [overwrite_outside fun q mem' => by
        by_contra within
        exact none ⟨q, mem', by omega, by omega⟩, old] at stored
      exact differ stored.symm
    obtain ⟨i, here⟩ : ∃ i, q + i = p + j := ⟨p + j - q, by omega⟩
    have place : start + p + j = start + q + i := by omega
    have stored' := @overwrite_inside m start q bs others i (by omega) mem' (close occurs')
    have old' := occurs'.here q mem' i (by omega)
    rw [← place] at stored' old'
    rw [stored] at stored'
    rw [old] at old'
    have reached : ¬ i < j := fun early => differ (by rw [stored', before i early, ← old'])
    rcases Nat.lt_or_ge q p with earlier | later
    · have apart := List.pairwise_iff_getElem.mp occurs.apart
      obtain ⟨a, aIn, rfl⟩ := List.getElem_of_mem (less q earlier mem')
      obtain ⟨b, bIn, rfl⟩ := List.getElem_of_mem mem
      have order : a < b := by
        rcases Nat.lt_trichotomy a b with lower | rfl | upper
        · exact lower
        · omega
        · have := apart b a bIn aIn upper
          omega
      have := apart a b aIn bIn order
      omega
    · obtain rfl : q = p := by omega
      exact mem'
  induction p using Nat.strong_induction_on with
  | _ p ih =>
    exact ⟨fun mem => one occurs occurs' same p mem fun q less => (ih q less).mpr,
      fun mem => one occurs' occurs same.symm p mem fun q less => (ih q less).mp⟩

end

end ByteMem
