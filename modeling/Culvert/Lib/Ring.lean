import Mathlib

/-- The links of a circular doubly linked list of `ν`, whose head is `none`. -/
structure Links (ν : Type) where
  next : Option ν → Option ν
  prev : Option ν → Option ν

namespace Links
variable {ν : Type}

/-- The list from behind `a` on to `b`, with the way back. -/
def Linked (links : Links ν) : Option ν → List ν → Option ν → Prop
  | a, [], b => links.next a = b ∧ links.prev b = a
  | a, n :: rest, b => links.next a = some n ∧ links.prev (some n) = a ∧ Linked links (some n) rest b

/-- What the list holds. -/
def Ring (links : Links ν) (l : List ν) : Prop := Linked links none l none

section
variable {links links' : Links ν} {a b : Option ν} {n : ν} {l l' : List ν}

theorem linked_append : Linked links a (l ++ n :: l') b ↔ Linked links a l (some n) ∧ Linked links (some n) l' b := by
  induction l generalizing a with
  | nil => exact and_assoc.symm
  | cons m rest ih =>
    rw [List.cons_append, Linked, Linked, ih, and_assoc, and_assoc]

theorem Linked.unique (linked : Linked links a l none) (other : Linked links a l' none) : l = l' := by
  induction l generalizing a l' with
  | nil =>
    cases l' with
    | nil => rfl
    | cons m rest =>
      have same := linked.1.symm.trans other.1
      cases same
  | cons n rest ih =>
    cases l' with
    | nil =>
      have same := linked.1.symm.trans other.1
      cases same
    | cons m rest' =>
      obtain rfl : n = m := Option.some.inj (linked.1.symm.trans other.1)
      rw [ih linked.2.2 other.2.2]

/-- Who goes on from a node that it has been at does not get back to the head. -/
theorem Linked.nodup (linked : Linked links a l none) : l.Nodup := by
  induction l generalizing a with
  | nil => exact List.nodup_nil
  | cons n rest ih =>
    refine List.nodup_cons.mpr ⟨fun again => ?_, ih linked.2.2⟩
    obtain ⟨before, after, rfl⟩ := List.append_of_mem again
    have shorter := (linked_append.mp linked.2.2).2.unique linked.2.2
    have length := congrArg List.length shorter
    rw [List.length_append, List.length_cons] at length
    omega

theorem Linked.next_mem (linked : Linked links a l b) : links.next a = b ∨ ∃ m ∈ l, links.next a = some m := by
  cases l with
  | nil => exact Or.inl linked.1
  | cons n rest => exact Or.inr ⟨n, List.mem_cons_self, linked.1⟩

theorem Linked.prev_mem (linked : Linked links a l b) : links.prev b = a ∨ ∃ m ∈ l, links.prev b = some m := by
  induction l generalizing a with
  | nil => exact Or.inl linked.2
  | cons n rest ih =>
    rcases ih linked.2.2 with last | ⟨m, mem, last⟩
    · exact Or.inr ⟨n, List.mem_cons_self, last⟩
    · exact Or.inr ⟨m, List.mem_cons_of_mem n mem, last⟩

/-- Links that are not those of the list can change. -/
theorem Linked.frame (linked : Linked links a l b) (start : links'.next a = links.next a)
    (next : ∀ m ∈ l, links'.next (some m) = links.next (some m))
    (prev : ∀ m ∈ l, links'.prev (some m) = links.prev (some m)) (last : links'.prev b = links.prev b) :
    Linked links' a l b := by
  induction l generalizing a with
  | nil => exact ⟨start.trans linked.1, last.trans linked.2⟩
  | cons n rest ih =>
    refine ⟨start.trans linked.1, (prev n List.mem_cons_self).trans linked.2.1, ?_⟩
    exact ih linked.2.2 (next n List.mem_cons_self) (fun m mem => next m (List.mem_cons_of_mem n mem))
      fun m mem => prev m (List.mem_cons_of_mem n mem)

end

section
variable [DecidableEq ν]

def setNext (links : Links ν) (a b : Option ν) : Links ν := { links with next := Function.update links.next a b }

def setPrev (links : Links ν) (a b : Option ν) : Links ν := { links with prev := Function.update links.prev a b }

section
variable (links : Links ν) (a b c : Option ν)

@[simp] theorem setNext_next : (links.setNext a b).next c = if c = a then b else links.next c :=
  Function.update_apply links.next a b c

@[simp] theorem setNext_prev : (links.setNext a b).prev = links.prev := rfl

@[simp] theorem setPrev_prev : (links.setPrev a b).prev c = if c = a then b else links.prev c :=
  Function.update_apply links.prev a b c

@[simp] theorem setPrev_next : (links.setPrev a b).next = links.next := rfl

end

/-- `list_head_init`. -/
def init (links : Links ν) : Links ν := (links.setNext none none).setPrev none none

/-- `list_add`: the node becomes the first one. -/
def add (links : Links ν) (n : ν) : Links ν :=
  let links := links.setNext (some n) (links.next none)
  let links := links.setPrev (some n) none
  let links := links.setPrev (links.next none) (some n)
  links.setNext none (some n)

/-- `list_del`. -/
def del (links : Links ν) (n : ν) : Links ν :=
  let links := links.setPrev (links.next (some n)) (links.prev (some n))
  links.setNext (links.prev (some n)) (links.next (some n))

variable {links : Links ν} {a : Option ν} {n : ν} {l l' : List ν}

theorem init_ring (links : Links ν) : links.init.Ring [] := by
  simp [Ring, Linked, init]

theorem Ring.add (ring : links.Ring l) (fresh : n ∉ l) : (links.add n).Ring (n :: l) := by
  refine ⟨by simp [Links.add], ?_, ?_⟩
  · rcases Linked.next_mem ring with none | ⟨m, mem, first⟩
    · simp [Links.add, none]
    · have ne : n ≠ m := fun same => fresh (same ▸ mem)
      simp [Links.add, first, ne]
  · cases l with
    | nil => simp [Linked, Links.add, ring.1]
    | cons m rest =>
      obtain ⟨first, back, linked⟩ := ring
      obtain ⟨once, _⟩ := List.nodup_cons.mp (Linked.nodup (l := m :: rest) ⟨first, back, linked⟩)
      obtain ⟨ne, apart⟩ := List.ne_and_not_mem_of_not_mem_cons fresh
      refine ⟨by simp [Links.add, first], by simp [Links.add, first], linked.frame ?_ ?_ ?_ ?_⟩
      · simp [Links.add, Ne.symm ne]
      · intro k mem
        have other : k ≠ n := fun same => apart (same ▸ mem)
        simp [Links.add, other]
      · intro k mem
        have other : k ≠ n := fun same => apart (same ▸ mem)
        have other' : k ≠ m := fun same => once (same ▸ mem)
        simp [Links.add, first, other, other']
      · simp [Links.add, first]

/-- The nodes before and behind the one that is taken out are linked with each other. -/
theorem Linked.del (before : Linked links a l (some n)) (after : Linked links (some n) l' none)
    (once : (l ++ n :: l').Nodup) (apart : ∀ m ∈ l ++ n :: l', a ≠ some m) :
    Linked (links.del n) a (l ++ l') none := by
  have ne : links.next (some n) ≠ some n := by
    intro same
    rcases after.next_mem with out | ⟨m, mem, first⟩
    · cases same.symm.trans out
    · obtain rfl : n = m := Option.some.inj (same.symm.trans first)
      exact (List.nodup_cons.mp (List.nodup_append.mp once).2.1).1 mem
  have next : ∀ c, (links.del n).next c = if c = links.prev (some n) then links.next (some n) else links.next c := by
    intro c
    simp [Links.del, Ne.symm ne]
  have prev : ∀ c, (links.del n).prev c = if c = links.next (some n) then links.prev (some n) else links.prev c := by
    intro c
    simp [Links.del]
  induction l generalizing a with
  | nil =>
    obtain ⟨forth, back⟩ := before
    cases l' with
    | nil =>
      refine ⟨?_, ?_⟩
      · rw [next, if_pos back.symm, after.1]
      · rw [prev, if_pos after.1.symm, back]
    | cons m rest =>
      obtain ⟨first, _, linked⟩ := after
      have unlike : ∀ k ∈ m :: rest, some k ≠ links.prev (some n) := by
        intro k mem same
        exact apart k (List.mem_cons_of_mem n mem) (back.symm.trans same.symm)
      have single := (List.nodup_cons.mp (List.nodup_cons.mp once).2).1
      refine ⟨?_, ?_, linked.frame ?_ ?_ ?_ ?_⟩
      · rw [next, if_pos back.symm, first]
      · rw [prev, if_pos first.symm, back]
      · rw [next, if_neg (unlike m List.mem_cons_self)]
      · intro k mem
        rw [next, if_neg (unlike k (List.mem_cons_of_mem m mem))]
      · intro k mem
        have other : some k ≠ links.next (some n) := by
          rw [first]
          intro same
          exact single (Option.some.inj same ▸ mem)
        rw [prev, if_neg other]
      · rw [prev, if_neg (by rw [first]; exact (Option.some_ne_none m).symm)]
  | cons x rest ih =>
    obtain ⟨forth, back, linked⟩ := before
    have here : a ≠ links.prev (some n) := by
      rcases linked.prev_mem with last | ⟨m, mem, last⟩
      · rw [last]
        exact apart x List.mem_cons_self
      · rw [last]
        exact apart m (List.mem_cons_of_mem x (List.mem_append_left _ mem))
    have there : some x ≠ links.next (some n) := by
      have single := (List.nodup_cons.mp once).1
      rcases after.next_mem with out | ⟨m, mem, first⟩
      · rw [out]
        exact Option.some_ne_none x
      · rw [first]
        intro same
        exact single (Option.some.inj same ▸ List.mem_append_right rest (List.mem_cons_of_mem n mem))
    refine ⟨?_, ?_, ih linked (List.nodup_cons.mp once).2 ?_⟩
    · rw [next, if_neg here, forth]
    · rw [prev, if_neg there, back]
    · intro m mem same
      exact (List.nodup_cons.mp once).1 (Option.some.inj same ▸ mem)

theorem Ring.del (ring : links.Ring (l ++ n :: l')) : (links.del n).Ring (l ++ l') := by
  obtain ⟨before, after⟩ := linked_append.mp ring
  exact before.del after (Linked.nodup ring) fun m _ same => nomatch same

theorem Ring.del_erase (ring : links.Ring l) (mem : n ∈ l) : (links.del n).Ring (l.erase n) := by
  obtain ⟨before, after, apart, rfl, erased⟩ := List.exists_erase_eq mem
  rw [erased]
  exact ring.del

end

end Links
