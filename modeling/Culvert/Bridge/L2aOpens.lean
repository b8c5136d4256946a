import Culvert.Bridge.L2aWindow
import Culvert.Lib.Bits

namespace Culvert

/-- Where a request ends, counted from the start of the 64 KiB page of its first byte. -/
def l2abReach (phys : Word) (len : Size) : Nat := phys.toNat % 0x10000 + len.toNat

section
variable {phys : Word} {len : Size}

theorem l2abAligned_toNat (phys : Word) : (phys &&& ~~~0xffff).toNat + phys.toNat % 0x10000 = phys.toNat := by
  have whole := Word.toNat_and_add_and_not phys 0xffff
  have page : (phys &&& 0xffff).toNat = phys.toNat % 0x10000 := @BitVec.and_mask_toNat 32 phys 16 (by decide)
  omega

theorem l2abReach_le (small : ¬ len > l2abWindowSize) : l2abReach phys len < 0x8010000 := by
  have bound : len.toNat ≤ 0x8000000 := BitVec.not_lt.mp small
  have page : phys.toNat % 0x10000 < 0x10000 := Nat.mod_lt _ (by decide)
  rw [l2abReach]
  omega

/-- The length counted from the aligned start, as `l2ab_map` computes it in 64 bits. -/
theorem fromAligned_toNat (small : ¬ len > l2abWindowSize) :
    (phys.setWidth 64 + len - (phys &&& ~~~0xffff).setWidth 64).toNat = l2abReach phys len := by
  have aligned := l2abAligned_toNat phys
  have bound : len.toNat ≤ 0x8000000 := BitVec.not_lt.mp small
  have wide := phys.isLt
  rw [BitVec.toNat_sub, BitVec.toNat_add, BitVec.toNat_setWidth_of_le (by decide), BitVec.toNat_setWidth_of_le (by decide),
    l2abReach]
  omega

/-- The length `l2ab_map` asks for, before it is made a power of two. -/
theorem l2abFloor_toNat (small : ¬ len > l2abWindowSize) :
    let fromAligned := phys.setWidth 64 + len - (phys &&& ~~~0xffff).setWidth 64
    let wide := if len < fromAligned then fromAligned else len
    (if wide < 0x10000 then 0x10000 else wide).toNat = max (l2abReach phys len) 0x10000 := by
  intro fromAligned wide
  have reach : fromAligned.toNat = l2abReach phys len := fromAligned_toNat small
  have below : len.toNat ≤ l2abReach phys len := Nat.le_add_left _ _
  have whole : wide.toNat = l2abReach phys len := by
    by_cases less : len < fromAligned
    · rw [show wide = fromAligned from if_pos less, reach]
    · have more : fromAligned.toNat ≤ len.toNat := BitVec.not_lt.mp less
      rw [show wide = len from if_neg less]
      omega
  by_cases low : wide < 0x10000
  · have under : wide.toNat < 0x10000 := low
    rw [if_pos low, max_eq_right (by omega)]
    rfl
  · have upper : 0x10000 ≤ wide.toNat := BitVec.not_lt.mp low
    rw [if_neg low, whole, max_eq_left (by omega)]

/-- A length that is not a power of two is made the one below it. -/
theorem l2abPower_toNat {n : Size} (some : n.toNat ≠ 0) (small : n.toNat < 2 ^ 32) :
    (if (n.setWidth 32 : Word).cpop ≠ 1 then (1 : Size) <<< (31 - (n.setWidth 32 : Word).clz.toNat) else n).toNat =
      2 ^ n.toNat.log2 := by
  have low : (n.setWidth 32 : Word).toNat = n.toNat := by
    rw [BitVec.toNat_setWidth, Nat.mod_eq_of_lt small]
  have nonzero : (n.setWidth 32 : Word) ≠ 0#32 := fun zero => some (by rw [← low, zero]; rfl)
  have log := BitVec.log2_toNat nonzero
  rw [low] at log
  split
  · have room : 31 - (n.setWidth 32 : Word).clz.toNat < 64 := by omega
    have least : 2 ^ (31 - (n.setWidth 32 : Word).clz.toNat) < 2 ^ 64 := Nat.pow_lt_pow_right (by decide) room
    have one : (1 : Size).toNat = 1 := rfl
    rw [BitVec.toNat_shiftLeft, one, Nat.one_shiftLeft, Nat.mod_eq_of_lt least, log]
  · rename_i power
    have one : (n.setWidth 32 : Word).cpop.toNat = 1 := by
      rw [not_not.mp power]
      rfl
    obtain ⟨k, exact⟩ := BitVec.isPowerOfTwo_of_cpop one
    rw [low] at exact
    rw [exact, Nat.log2_two_pow]

/-- The window is the last power of two up to the length it must have. -/
theorem l2abWindow_toNat (small : ¬ len > l2abWindowSize) :
    (l2abWindow phys len).toNat = 2 ^ (max (l2abReach phys len) 0x10000).log2 := by
  have floor := @l2abFloor_toNat phys len small
  have bound := @l2abReach_le phys len small
  rw [← floor]
  refine l2abPower_toNat ?_ ?_
  · rw [floor]
    omega
  · rw [floor]
    omega

theorem l2abWindow_isPowerOfTwo (small : ¬ len > l2abWindowSize) :
    (l2abWindow phys len).toNat.isPowerOfTwo ∧ 0x10000 ≤ (l2abWindow phys len).toNat := by
  rw [l2abWindow_toNat small]
  have some : max (l2abReach phys len) 0x10000 ≠ 0 := by omega
  have floor : 2 ^ 16 ≤ max (l2abReach phys len) 0x10000 := le_max_right _ _
  have least : 16 ≤ (max (l2abReach phys len) 0x10000).log2 := (Nat.le_log2 some).mpr floor
  have power : 2 ^ 16 ≤ 2 ^ (max (l2abReach phys len) 0x10000).log2 := Nat.pow_le_pow_right (Nat.succ_pos 1) least
  exact ⟨⟨_, rfl⟩, power⟩

theorem l2abWindow_lt (small : ¬ len > l2abWindowSize) : (l2abWindow phys len).toNat < 0x8010000 := by
  have bound := @l2abReach_le phys len small
  have below : 2 ^ (max (l2abReach phys len) 0x10000).log2 ≤ max (l2abReach phys len) 0x10000 :=
    Nat.log2_self_le (by omega)
  rw [l2abWindow_toNat small]
  omega

/-- The window holds the request exactly when no rounding was needed. -/
theorem l2abReach_le_window_iff (small : ¬ len > l2abWindowSize) :
    l2abReach phys len ≤ (l2abWindow phys len).toNat ↔
      l2abReach phys len ≤ 0x10000 ∨ (l2abReach phys len).isPowerOfTwo := by
  rw [l2abWindow_toNat small]
  constructor
  · intro inside
    rcases Nat.le_or_ge (l2abReach phys len) 0x10000 with low | high
    · exact Or.inl low
    · rw [max_eq_left high] at inside
      have below := Nat.log2_self_le (n := l2abReach phys len) (by omega)
      exact Or.inr ⟨_, Nat.le_antisymm inside below⟩
  · rintro (low | ⟨k, power⟩)
    · rw [max_eq_right low]
      exact low
    · rcases Nat.le_or_ge (l2abReach phys len) 0x10000 with low | high
      · rw [max_eq_right low]
        exact low
      · rw [max_eq_left high, power, Nat.log2_two_pow]

end

namespace L2ab

/-- The cached window is empty, or one that `l2ab_map` opens. -/
def Window (s : L2ab) : Prop := s.len = 0 ∨
  ∃ (phys : Word) (len : Size), ¬ len > l2abWindowSize ∧ s.phys = phys &&& ~~~0xffff ∧ s.len = l2abWindow phys len

/-- Calls on a context whose cached window was empty have left it as it is. -/
def Recorded (s : L2ab) : Prop := ∃ base t es, t.len = 0 ∧ Run (L2abStep base) t es s

/-- A transfer of `len` bytes at `offset` reaches `phys` and stays in the window. -/
structure Opens (s : L2ab) (phys : Word) (len : Size) (offset : Nat) : Prop where
  lower : s.phys.toNat ≤ phys.toNat
  upper : phys.toNat + len.toNat ≤ s.phys.toNat + s.len.toNat
  distance : (offset : Int) = phys.toNat - s.phys.toNat
  power : s.len.toNat.isPowerOfTwo
  floor : 2 ^ 16 ≤ s.len.toNat
  inside : offset + len.toNat ≤ s.len.toNat

end L2ab

section
variable {base : Nat} {s s' : L2ab} {phys : Word} {len : Size}

theorem L2ab.Window.of_view (window : s.Window) (same : s'.view = s.view) : s'.Window := by
  simp only [L2ab.view, Prod.mk.injEq] at same
  obtain ⟨_, phys, len, _⟩ := same
  rw [L2ab.Window, phys, len]
  exact window

theorem l2abHicrWritel_window (reg val : Word) : Prog.Triple L2ab.Window (l2abHicrWritel base reg val)
    (fun _ => L2ab.Window) (fun _ => L2ab.Window) := by
  intro s window
  refine ⟨fun a s' done => ?_, fun e s' stop => window.of_view (l2abHicrWritel_error stop)⟩
  have frame := (l2abHicrWritel_ok done).2.2
  rw [frame]
  exact window

theorem l2abMap_window (phys : Word) (len : Size) : Prog.Triple L2ab.Window (l2abMap base phys len)
    (fun _ => L2ab.Window) (fun _ => L2ab.Window) := by
  intro s window
  by_cases fits : s.Fits phys len
  · rw [run_l2abMap_hit fits]
    refine ⟨fun a s' done => ?_, fun e s' stop => (by cases stop)⟩
    cases done
    exact window
  · by_cases big : len > l2abWindowSize
    · rw [run_l2abMap_big fits big]
      refine ⟨fun a s' done => (by cases done), fun e s' stop => ?_⟩
      cases stop
      exact window
    · have opened : ∀ t : L2ab, ({ t with phys := phys &&& ~~~0xffff, len := l2abWindow phys len, mapped := true } : L2ab).Window :=
        fun t => Or.inr ⟨phys, len, big, rfl, rfl⟩
      have record : Prog.Triple L2ab.Window
          (modify fun ctx : L2ab => { ctx with phys := phys &&& ~~~0xffff, len := l2abWindow phys len, mapped := true })
          (fun _ => L2ab.Window) (fun _ => L2ab.Window) := by
        intro t _
        refine ⟨fun a t' done => ?_, fun e t' stop => (by cases stop)⟩
        cases done
        exact opened t
      rw [run_l2abMap_miss fits big]
      refine ((l2abHicrWritel_window _ _).bind fun _ => (l2abHicrWritel_window _ _).bind fun _ =>
        record.bind fun _ => ?_) s window
      exact Prog.Triple.pure fun _ post => post

theorem transfer_window {α : Type} {m : Prog L2ab α} (kept : Prog.Keeps (Prog.Same L2ab.view) m) :
    Prog.Triple L2ab.Window m (fun _ => L2ab.Window) (fun _ => L2ab.Window) :=
  Prog.Triple.of_keeps kept fun _ _ window same => window.of_view same

theorem l2abCall_window (base fuel : Nat) (op : L2abOp) : Prog.Triple L2ab.Window (l2abCall base fuel op)
    (fun _ => L2ab.Window) (fun _ => L2ab.Window) := by
  have get : Prog.Triple L2ab.Window (get : Prog L2ab L2ab) (fun _ => L2ab.Window) (fun _ => L2ab.Window) :=
    Prog.Triple.of_keeps (fun _ => rfl : Prog.Keeps Eq _) fun _ _ window same => same ▸ window
  cases op with
  | map phys len => exact (l2abMap_window phys len).bind fun _ => Prog.Triple.pure fun _ post => post
  | read phys len =>
    have turn (a : Word × Size × List Byte) : Prog.Triple L2ab.Window (l2abReadTurn base a)
        (fun r s => r.elim (fun _ => s.Window) (fun _ => s.Window)) (fun _ => L2ab.Window) := by
      obtain ⟨phys, remaining, got⟩ := a
      refine (orMinusOne_triple (l2abMap_window phys _)).bind fun _ =>
        (orMinusOne_triple (transfer_window l2abFwRead_keeps)).bind fun bs => ?_
      exact Prog.Triple.ite (Prog.Triple.pure fun _ post => post) (Prog.Triple.pure fun _ post => post)
    have read : Prog.Triple L2ab.Window (l2abRead base fuel phys len) (fun _ => L2ab.Window) (fun _ => L2ab.Window) :=
      Prog.Triple.ite (Prog.Triple.fail fun _ pre => pre)
        (Prog.Triple.loop (fun _ => L2ab.Window) turn (fun _ _ pre => pre) fuel (phys, len, []))
    exact read.bind fun _ => Prog.Triple.pure fun _ post => post
  | write phys len =>
    have turn (a : Word × Size) : Prog.Triple L2ab.Window (l2abWriteTurn base a)
        (fun r s => r.elim (fun _ => s.Window) (fun _ => s.Window)) (fun _ => L2ab.Window) := by
      obtain ⟨phys, remaining⟩ := a
      refine (orMinusOne_triple (l2abMap_window phys _)).bind fun _ =>
        (orMinusOne_triple (transfer_window l2abFwWrite_keeps)).bind fun n => ?_
      exact Prog.Triple.ite (Prog.Triple.pure fun _ post => post) (Prog.Triple.pure fun _ post => post)
    exact Prog.Triple.ite (Prog.Triple.fail fun _ pre => pre)
      (Prog.Triple.loop (fun _ => L2ab.Window) turn (fun _ _ pre => pre) fuel (phys, len))
  | release =>
    exact get.bind fun _ => (l2abHicrWritel_window lpcHicr8 _).bind fun _ =>
      get.bind fun _ => l2abHicrWritel_window lpcHicr7 _
  | reinit => exact transfer_window l2abSaveHicr78_keeps

theorem L2ab.Recorded.window (recorded : s.Recorded) : s.Window := by
  obtain ⟨base, t, es, empty, run⟩ := recorded
  refine run.invariant (fun s e s' window step => ?_) (Or.inl empty : t.Window)
  rw [step]
  exact (l2abCall_window base e.1 e.2).state window

/-- An early return answers from a window that holds the request. -/
theorem L2ab.Window.opens (window : s.Window) (some : 0 < len.toNat) (fit : phys.toNat + len.toNat ≤ 2 ^ 32)
    (fits : s.Fits phys len) : s.Opens phys len (phys - s.phys).toNat := by
  obtain ⟨below, above⟩ := fits
  have lower : s.phys.toNat ≤ phys.toNat := below
  have wide := s.phys.isLt
  have room : s.len.toNat < 0x8010000 := by
    rcases window with empty | ⟨phys', len', small, _, recorded⟩
    · rw [empty]
      decide
    · rw [recorded]
      exact l2abWindow_lt small
  have upper : phys.toNat + len.toNat ≤ s.phys.toNat + s.len.toNat := by
    have above : (phys.setWidth 64 + len).toNat ≤ (s.phys.setWidth 64 + s.len).toNat := above
    rw [BitVec.toNat_add, BitVec.toNat_add, BitVec.toNat_setWidth_of_le (by decide),
      BitVec.toNat_setWidth_of_le (by decide)] at above
    omega
  have distance : (phys - s.phys).toNat = phys.toNat - s.phys.toNat := BitVec.toNat_sub_of_le below
  have held : s.len.toNat.isPowerOfTwo ∧ 0x10000 ≤ s.len.toNat := by
    rcases window with empty | ⟨phys', len', small, _, recorded⟩
    · have none : s.len.toNat = 0 := by rw [empty]; rfl
      omega
    · rw [recorded]
      exact l2abWindow_isPowerOfTwo small
  exact ⟨lower, upper, by omega, held.1, held.2, by omega⟩

/-- A window just opened holds the request exactly when its length was not rounded down. -/
theorem l2abMap_miss_opens (small : ¬ len > l2abWindowSize) (aligned : s'.phys = phys &&& ~~~0xffff)
    (window : s'.len = l2abWindow phys len) : s'.Opens phys len (phys &&& 0xffff).toNat ↔
      l2abReach phys len ≤ 0x10000 ∨ (l2abReach phys len).isPowerOfTwo := by
  have base := l2abAligned_toNat phys
  have page : (phys &&& 0xffff).toNat = phys.toNat % 0x10000 := @BitVec.and_mask_toNat 32 phys 16 (by decide)
  rw [← l2abReach_le_window_iff small, ← window]
  constructor
  · intro opens
    have inside := opens.inside
    rw [page] at inside
    exact inside
  · intro inside
    obtain ⟨power, floor⟩ := @l2abWindow_isPowerOfTwo phys len small
    rw [l2abReach] at inside
    rw [← aligned] at base
    rw [← window] at power floor
    exact ⟨by omega, by omega, by rw [page]; omega, power, floor, by rw [page]; exact inside⟩

/-- Where a miss that succeeds ends. -/
theorem l2abMap_miss_frame (miss : ¬ s.Fits phys len) (small : ¬ len > l2abWindowSize) {offset : Nat}
    (run : (l2abMap base phys len).run s = .ok offset s') :
    offset = (phys &&& 0xffff).toNat ∧ s'.phys = phys &&& ~~~0xffff ∧ s'.len = l2abWindow phys len := by
  rw [run_l2abMap_miss miss small] at run
  obtain ⟨_, s₁, _, rest⟩ := Prog.bind_ok_iff.mp run
  obtain ⟨_, s₂, _, last⟩ := Prog.bind_ok_iff.mp rest
  cases last
  exact ⟨rfl, rfl, rfl⟩

/-- Whatever the SuperIO does, the window holds the request, unless the request was not answered
from the cached window and the length it needs was rounded down. -/
theorem l2abMap_opens_iff (base : Nat) (s : L2ab) (phys : Word) (len : Size) (recorded : s.Recorded)
    (some : 0 < len.toNat) (small : len.toNat ≤ 2 ^ 27) (fit : phys.toNat + len.toNat ≤ 2 ^ 32) :
    (∀ (sio : Faulty SuperIo) (offset : Nat) (s' : L2ab),
      (l2abMap base phys len).run { s with sio := sio } = .ok offset s' → s'.Opens phys len offset) ↔
      s.Fits phys len ∨ l2abReach phys len ≤ 0x10000 ∨ (l2abReach phys len).isPowerOfTwo := by
  have limit : ¬ len > l2abWindowSize := Nat.not_lt.mpr small
  constructor
  · intro opens
    by_cases fits : ({ s with sio := superIoCleared } : L2ab).Fits phys len
    · exact Or.inl fits
    · obtain ⟨offset, s', run, _, aligned, window, _⟩ :=
        @l2abMap_miss_ok base { s with sio := superIoCleared } phys len (fun _ => rfl) fits limit
      have held := opens superIoCleared offset s' run
      rw [(l2abMap_miss_frame fits limit run).1] at held
      exact Or.inr ((l2abMap_miss_opens limit aligned window).mp held)
  · intro condition sio offset s' run
    have window : ({ s with sio := sio } : L2ab).Window := recorded.window
    by_cases fits : ({ s with sio := sio } : L2ab).Fits phys len
    · rw [run_l2abMap_hit fits] at run
      cases run
      have opens := window.opens some fit fits
      exact ⟨opens.lower, opens.upper, opens.distance, opens.power, opens.floor, opens.inside⟩
    · obtain ⟨rfl, aligned, opened⟩ := l2abMap_miss_frame fits limit run
      exact (l2abMap_miss_opens limit aligned opened).mpr (condition.resolve_left fits)

theorem l2abCleared_recorded : l2abCleared.Recorded := ⟨0x2e, l2abCleared, [], rfl, .nil _⟩

/-- A request for one aligned page opens the page. -/
theorem l2abMap_opens_page : ∃ offset s', (l2abMap 0x2e 0x1e6e0000 0x10000).run l2abCleared = .ok offset s' ∧
    s'.Opens 0x1e6e0000 0x10000 offset := by
  obtain ⟨offset, s', run, _⟩ :=
    @l2abMap_miss_ok 0x2e l2abCleared 0x1e6e0000 0x10000 (fun _ => rfl) (by decide) (by decide)
  have page := l2abMap_opens_iff 0x2e l2abCleared 0x1e6e0000 0x10000 l2abCleared_recorded (by decide) (by decide) (by decide)
  exact ⟨offset, s', run, page.mpr (Or.inr (Or.inl (by decide))) l2abCleared.sio offset s' run⟩

/-- A page and a half gets a window of one page. -/
theorem l2abMap_rounds_down : ¬ ∀ (base : Nat) (s : L2ab) (phys : Word) (len : Size), s.Recorded → 0 < len.toNat →
    len.toNat ≤ 2 ^ 27 → phys.toNat + len.toNat ≤ 2 ^ 32 → ∀ (offset : Nat) (s' : L2ab),
      (l2abMap base phys len).run s = .ok offset s' → s'.Opens phys len offset := by
  intro opens
  obtain ⟨offset, s', run, _, _, window, _⟩ :=
    @l2abMap_miss_ok 0x2e l2abCleared 0x1e6e0000 0x18000 (fun _ => rfl) (by decide) (by decide)
  have inside := (opens 0x2e l2abCleared 0x1e6e0000 0x18000 l2abCleared_recorded (by decide) (by decide) (by decide)
    offset s' run).inside
  have rounded : (l2abWindow 0x1e6e0000 0x18000).toNat = 0x10000 := by
    rw [l2abWindow_toNat (by decide)]
    decide
  have asked : (0x18000 : Size).toNat = 0x18000 := rfl
  rw [window, rounded, asked] at inside
  omega

end

end Culvert
