import Culvert.Lib.ByteMem

/-! Changes to a memory that do not depend on what is in it. -/

namespace ByteMem

/-- The byte comes out the same whatever the memory was before. -/
def Sets (f : Mem → Mem) (x : Nat) : Prop := ∃ b, ∀ m, f m x = b

def Keeps (f : Mem → Mem) (x : Nat) : Prop := ∀ m, f m x = m x

/-- Every byte is either set or kept. -/
def Overlay (f : Mem → Mem) : Prop := ∀ x, Sets f x ∨ Keeps f x

section
variable {f g : Mem → Mem} {a x i : Nat} {bs : List Byte}

theorem Sets.after (sets : Sets g x) : Sets (fun m => g (f m)) x := by
  obtain ⟨b, all⟩ := sets
  exact ⟨b, fun m => all (f m)⟩

theorem Sets.then (sets : Sets f x) (overlay : Overlay g) : Sets (fun m => g (f m)) x := by
  rcases overlay x with again | kept
  · exact again.after
  · obtain ⟨b, all⟩ := sets
    exact ⟨b, fun m => (kept (f m)).trans (all m)⟩

theorem Keeps.then (kept : Keeps f x) (kept' : Keeps g x) : Keeps (fun m => g (f m)) x :=
  fun m => (kept' (f m)).trans (kept m)

theorem Overlay.id : Overlay fun m => m := fun _ => Or.inr fun _ => rfl

theorem Overlay.then (first : Overlay f) (second : Overlay g) : Overlay fun m => g (f m) := by
  intro x
  rcases second x with sets | kept
  · exact Or.inl sets.after
  · rcases first x with sets | kept'
    · exact Or.inl (sets.then second)
    · exact Or.inr (kept'.then kept)

/-- A byte that is set is another one for some memory. -/
theorem Sets.not_keeps (sets : Sets f x) : ¬ Keeps f x := by
  intro kept
  obtain ⟨b, all⟩ := sets
  have same : b + 1 = b := (kept fun _ => b + 1).symm.trans (all _)
  bv_omega

theorem sets_write (inside : i < bs.length) : Sets (fun m => write m a bs) (a + i) :=
  ⟨bs[i], fun _ => write_inside inside⟩

theorem overlay_write (a : Nat) (bs : List Byte) : Overlay fun m => write m a bs := by
  intro x
  by_cases below : x < a
  · exact Or.inr fun _ => write_below below
  by_cases within : x < a + bs.length
  · obtain ⟨i, rfl⟩ : ∃ i, x = a + i := ⟨x - a, by omega⟩
    exact Or.inl (sets_write (by omega))
  · exact Or.inr fun _ => write_above (by omega)

/-- What is stored over does not matter. -/
theorem write_overwrites {m m' : Mem} (outside : ∀ x, x < a ∨ a + bs.length ≤ x → m' x = m x) :
    write m' a bs = write m a bs := by
  funext x
  by_cases below : x < a
  · rw [write_below below, write_below below, outside x (Or.inl below)]
  by_cases within : x < a + bs.length
  · obtain ⟨i, rfl⟩ : ∃ i, x = a + i := ⟨x - a, by omega⟩
    rw [write_inside (by omega), write_inside (by omega)]
  · rw [write_above (by omega), write_above (by omega), outside x (Or.inr (by omega))]

end

end ByteMem
