import Culvert.Ahb
import Culvert.Lib.Script
import Culvert.Sio

/-! What the SuperIO probe makes of the outcomes of its accesses. -/

namespace Culvert

/-- A port that is read or written. -/
inductive LpcRequest where
  | inb (port : Nat)
  | outb (port : Nat) (val : Byte)
  deriving DecidableEq, Repr

def LpcRequest.port : LpcRequest → Nat
  | .inb port => port
  | .outb port _ => port

/-- The access is to the address or the data port of a SuperIO at `base`. -/
def LpcRequest.At (base : Nat) (i : LpcRequest) : Prop := i.port = base ∨ i.port = base + 1

/-- The ports, with the value or the failure of each access given by its number. -/
abbrev LpcScript := Scripted LpcRequest Byte

def scriptLpc : Lpc LpcScript where
  readb port := Scripted.ask (.inb port)
  writeb port val := do let _ ← Scripted.ask (.outb port val)

/-- An access with its outcome. -/
abbrev LpcEntry := LpcRequest × Except Errno Byte

/-- Select `dev` in the device-select register and read the register back. -/
def sioCheck (base : Nat) (dev : SioDev) : List LpcRequest :=
  [.outb base 0x07, .outb (base + 1) dev.code, .outb base 0x07, .inb (base + 1)]

structure ReadsBack (base : Nat) (dev : SioDev) (entries : List LpcEntry) : Prop where
  requests : entries.map Prod.fst = sioCheck base dev
  answer : entries.getLast?.map Prod.snd = some (.ok dev.code)

/-- Both devices were selected at `base`, one after the other, and read back. -/
def SioShown (base : Nat) (made : List LpcEntry) : Prop := ∃ before one between four later,
  made = before ++ one ++ between ++ four ++ later ∧ ReadsBack base .suart1 one ∧ ReadsBack base .suart4 four

/-- No access to the two ports at `base` failed, and both devices read back. -/
structure SioPresentAt (base : Nat) (made : List LpcEntry) : Prop where
  ok : ∀ entry ∈ made, entry.1.At base → entry.2.isOk = true
  shown : SioShown base made

/-- The verdict and `ctx->base` are those of the accesses that were made. -/
def SioProbeRight (answers : Nat → Except Errno Byte) : Prop := ∃ found base s,
  (sioProbe scriptLpc).run ⟨answers, []⟩ = .ok (found, base) s ∧
    (found = true ↔ SioPresentAt 0x2e s.made ∨ SioPresentAt 0x4e s.made) ∧
    (SioPresentAt 0x2e s.made → base = 0x2e) ∧
    (¬ SioPresentAt 0x2e s.made → SioPresentAt 0x4e s.made → base = 0x4e)

section Answers
variable (answers : Nat → Except Errno Byte) (n : Nat)

/-- The `m` accesses from number `n` on succeed. -/
def LpcAnswered (m : Nat) : Prop := ∀ k < m, (answers (n + k)).isOk = true

/-- Whether `sio_present`, starting with access `n`, goes on to the second device. -/
def SioFirstShown : Prop := answers (n + 5) = .ok SioDev.suart1.code

def SioBothShown : Prop := SioFirstShown answers n ∧ answers (n + 9) = .ok SioDev.suart4.code

/-- None of the accesses that `sio_present` decides by fails, and the lock does not once it found both. -/
structure SioPresentSound : Prop where
  first : LpcAnswered answers n 6
  second : SioFirstShown answers n → LpcAnswered answers (n + 6) 4
  lock : SioBothShown answers n → LpcAnswered answers (n + 10) 1

instance : Decidable (SioFirstShown answers n) := inferInstanceAs (Decidable (_ = _))

instance : Decidable (SioBothShown answers n) := inferInstanceAs (Decidable (_ ∧ _))

/-- The number of the first access after that `sio_present`. -/
def sioPresentNext : Nat := if SioFirstShown answers n then n + 11 else n + 7

end Answers

/-- The first `sio_present` meets no failure, nor does the second where there is one. -/
def SioProbeSound (answers : Nat → Except Errno Byte) : Prop :=
  SioPresentSound answers 0 ∧ (¬ SioBothShown answers 0 → SioPresentSound answers (sioPresentNext answers 0))

/-- What `sio_present` asks before it locks the SuperIO again. -/
def sioPresentRequests (answers : Nat → Except Errno Byte) (n base : Nat) : List LpcRequest :=
  [.outb base 0xa5, .outb base 0xa5] ++ sioCheck base .suart1 ++
    if SioFirstShown answers n then sioCheck base .suart4 else []

open Scripted

section Requests
variable {s : LpcScript} {base port : Nat} {val reg v : Byte} {dev : SioDev}

theorem asks_write (i : LpcRequest) (s : LpcScript) : Asks s (do let _ ← ask i) [i] () := by
  cases answer : s.answers s.made.length with
  | ok a =>
    have asked : Asks s (ask i) [i] a := .ask fun a' same => by
      rw [answer] at same
      injection same with same
      exact same.symm
    exact asked.bind (.pure ())
  | error e =>
    have asked : Asks s (ask i) [i] 0 := .ask fun a' same => by
      rw [answer] at same
      cases same
    exact asked.bind (.pure ())

theorem sioUnlock_asks : Asks s (sioUnlock ⟨scriptLpc, base⟩) [.outb base 0xa5, .outb base 0xa5] () := by
  have both := @Asks.all _ _ s [.outb base 0xa5, .outb base 0xa5] _ asks_write
  exact both

theorem sioSelect_asks : Asks s (sioSelect ⟨scriptLpc, base⟩ dev) [.outb base 0x07, .outb (base + 1) dev.code] () :=
  (asks_write (.outb base 0x07) s).bind (asks_write (.outb (base + 1) dev.code) _)

theorem sioReadb_asks (answer : ∀ v', s.answers (s.made.length + 1) = .ok v' → v' = v) :
    Asks s (sioReadb ⟨scriptLpc, base⟩ reg) [.outb base reg, .inb (base + 1)] v :=
  (asks_write (.outb base reg) s).bind (.ask fun v' same => answer v' (by rwa [after_answers, after_length] at same))

/-- The value that an access reads, if it succeeds. -/
def lpcValue (answers : Nat → Except Errno Byte) (k : Nat) : Byte := (answers k).toOption.getD 0

theorem lpcValue_ok {answers : Nat → Except Errno Byte} {k : Nat} {v : Byte} (ok : answers k = .ok v) :
    v = lpcValue answers k := by
  rw [lpcValue, ok]
  rfl

theorem lpcValue_eq_iff {answers : Nat → Except Errno Byte} {k : Nat} {v : Byte} (nonzero : v ≠ 0) :
    lpcValue answers k = v ↔ answers k = .ok v := by
  refine ⟨fun same => ?_, fun ok => (lpcValue_ok ok).symm⟩
  cases answer : answers k with
  | ok w => rw [← same, lpcValue_ok answer]
  | error e =>
    rw [lpcValue, answer] at same
    exact absurd same.symm nonzero

/-- What `sio_present` does before it locks the SuperIO again. -/
theorem sioPresent_asks (s : LpcScript) (base : Nat) : Asks s (do
      sioUnlock ⟨scriptLpc, base⟩
      sioSelect ⟨scriptLpc, base⟩ .suart1
      let dev ← sioReadb ⟨scriptLpc, base⟩ 0x07
      if dev ≠ SioDev.suart1.code then
        return false
      else
        sioSelect ⟨scriptLpc, base⟩ .suart4
        let dev ← sioReadb ⟨scriptLpc, base⟩ 0x07
        return dev = SioDev.suart4.code)
    (sioPresentRequests s.answers s.made.length base) (decide (SioBothShown s.answers s.made.length)) := by
  have read (t : LpcScript) (k : Nat) (same : t.answers = s.answers) (after : t.made.length = s.made.length + k) :
      Asks t (sioReadb ⟨scriptLpc, base⟩ 0x07) [.outb base 0x07, .inb (base + 1)]
        (lpcValue s.answers (s.made.length + (k + 1))) :=
    sioReadb_asks fun v' answer => lpcValue_ok (by rw [← answer, same, after, Nat.add_assoc])
  have one : lpcValue s.answers (s.made.length + 5) = SioDev.suart1.code ↔ SioFirstShown s.answers s.made.length :=
    lpcValue_eq_iff (by decide)
  by_cases first : SioFirstShown s.answers s.made.length
  · have four : lpcValue s.answers (s.made.length + 9) = SioDev.suart4.code ↔ SioBothShown s.answers s.made.length :=
      (lpcValue_eq_iff (by decide)).trans (and_iff_right first).symm
    rw [sioPresentRequests, if_pos first, show decide (SioBothShown s.answers s.made.length) =
      decide (lpcValue s.answers (s.made.length + 9) = SioDev.suart4.code) from decide_eq_decide.mpr four.symm]
    refine sioUnlock_asks.bind (sioSelect_asks.bind ((read _ 4 ?_ ?_).bind ?_))
    · rfl
    · rw [after_length, after_length]
      rfl
    rw [if_neg (not_not.mpr (one.mpr first))]
    refine sioSelect_asks.bind ((read _ 8 ?_ ?_).bind (.pure _))
    · rfl
    · simp only [after_length, Nat.add_assoc, List.length_cons, List.length_nil]
  · rw [sioPresentRequests, if_neg first, decide_eq_false fun both => first both.1]
    refine sioUnlock_asks.bind (sioSelect_asks.bind ((read _ 4 ?_ ?_).bind ?_))
    · rfl
    · rw [after_length, after_length]
      rfl
    rw [if_pos fun same => first (one.mp same)]
    exact .pure false

/-- `found` after one `sio_present`, and the accesses it made. -/
theorem sioFound_run (s : LpcScript) (base : Nat) : ∃ found is,
    (sioFound ⟨scriptLpc, base⟩).run s = .ok found (s.after (is ++ [.outb base 0xaa])) ∧
      is <+: sioPresentRequests s.answers s.made.length base ∧
      (s.Answered is.length → is = sioPresentRequests s.answers s.made.length base ∧
        found = decide (SioBothShown s.answers s.made.length)) ∧
      (¬ s.Answered is.length → found = true) := by
  obtain ⟨answered, refused⟩ := (sioPresent_asks s base).ensuring (asks_write (.outb base 0xaa))
  by_cases all : s.Answered (sioPresentRequests s.answers s.made.length base).length
  · exact ⟨_, _, Prog.run_bind_ok (Prog.attempt_ok (answered all)), List.prefix_rfl, fun _ => ⟨rfl, rfl⟩,
      fun blocked => absurd all blocked⟩
  · obtain ⟨e, is, run, upTo, failed⟩ := refused all
    exact ⟨true, is, Prog.run_bind_ok (Prog.attempt_rc run), upTo, fun ok => absurd ok failed, fun _ => rfl⟩

end Requests

section Answers
variable {answers : Nat → Except Errno Byte} {n m k : Nat}

theorem lpcAnswered_add : LpcAnswered answers n (m + k) ↔ LpcAnswered answers n m ∧ LpcAnswered answers (n + m) k := by
  constructor
  · intro answered
    refine ⟨fun j lt => answered j (by omega), fun j lt => ?_⟩
    rw [Nat.add_assoc]
    exact answered (m + j) (by omega)
  · rintro ⟨first, second⟩ j lt
    by_cases early : j < m
    · exact first j early
    · have later := second (j - m) (by omega)
      rw [Nat.add_assoc, Nat.add_sub_cancel' (by omega)] at later
      exact later

theorem lpcAnswered_one : LpcAnswered answers n 1 ↔ (answers n).isOk = true := by
  refine ⟨fun answered => answered 0 Nat.one_pos, fun ok k lt => ?_⟩
  rw [Nat.lt_one_iff.mp lt]
  exact ok

/-- Where the probe makes all accesses that it decides by. -/
theorem sioPresentRequests_answered_iff {base : Nat} :
    LpcAnswered answers n (sioPresentRequests answers n base).length ↔
      LpcAnswered answers n 6 ∧ (SioFirstShown answers n → LpcAnswered answers (n + 6) 4) := by
  by_cases first : SioFirstShown answers n
  · rw [sioPresentRequests, if_pos first, forall_prop_of_true first]
    exact lpcAnswered_add (m := 6) (k := 4)
  · rw [sioPresentRequests, if_neg first, forall_prop_of_false first, and_true]
    rfl

end Answers

section Record
variable {base port : Nat} {dev : SioDev} {made entries new : List LpcEntry}

/-- No entry is about the ports at `base`. -/
def AwayFrom (base : Nat) (entries : List LpcEntry) : Prop := ∀ entry ∈ entries, ¬ entry.1.At base

theorem ReadsBack.last (back : ReadsBack base dev entries) :
    entries.getLast? = some (.inb (base + 1), .ok dev.code) := by
  obtain ⟨requests, answer⟩ := back
  obtain ⟨last, isLast, value⟩ := Option.map_eq_some_iff.mp answer
  have port : (entries.map Prod.fst).getLast? = some (.inb (base + 1)) := by
    rw [requests]
    rfl
  rw [List.getLast?_map, isLast, Option.map_some, Option.some.injEq] at port
  rw [isLast, ← port, ← value]

theorem ReadsBack.mem (back : ReadsBack base dev entries) : (.inb (base + 1), .ok dev.code) ∈ entries :=
  List.mem_of_getLast? back.last

theorem SioShown.mem (shown : SioShown base made) :
    (.inb (base + 1), .ok SioDev.suart1.code) ∈ made ∧ (.inb (base + 1), .ok SioDev.suart4.code) ∈ made := by
  obtain ⟨before, one, between, four, later, rfl, first, second⟩ := shown
  have mem₁ := first.mem
  have mem₄ := second.mem
  simp only [List.mem_append]
  exact ⟨by simp [mem₁], by simp [mem₄]⟩

theorem AwayFrom.not_shown (away : AwayFrom base made) : ¬ SioShown base made := by
  intro shown
  exact away _ shown.mem.1 (Or.inr rfl)

/-- Accesses to other ports later on do not count. -/
theorem SioPresentAt.of_append (away : AwayFrom base new) (present : SioPresentAt base (made ++ new)) :
    SioPresentAt base made := by
  refine ⟨fun entry mem => present.ok entry (List.mem_append_left new mem), ?_⟩
  obtain ⟨before, one, between, four, later, eq, first, second⟩ := present.shown
  rcases List.append_eq_append_iff.mp eq with ⟨rest, upTo, split⟩ | ⟨rest, whole, _⟩
  · cases ends : rest.getLast? with
    | none =>
      rw [List.getLast?_eq_none_iff.mp ends, List.append_nil] at upTo
      exact ⟨before, one, between, four, [], by rw [List.append_nil, ← upTo], first, second⟩
    | some entry =>
      have both := congrArg List.getLast? upTo
      simp only [List.getLast?_append, second.last, ends, Option.some_or, Option.some.injEq] at both
      have mem : entry ∈ new := by
        rw [split]
        exact List.mem_append_left later (List.mem_of_getLast? ends)
      rw [← both] at mem
      exact absurd (Or.inr rfl) (away _ mem)
  · exact ⟨before, one, between, four, rest, whole, first, second⟩

end Record

section Verdict
variable {s : LpcScript} {base : Nat} {is : List LpcRequest}

theorem sioCheck_at {dev : SioDev} : ∀ i ∈ sioCheck base dev, i.At base := by
  simp [sioCheck, LpcRequest.At, LpcRequest.port]

/-- All of the accesses go to the two ports at `base`. -/
theorem sioPresentRequests_at {answers : Nat → Except Errno Byte} {n : Nat} :
    ∀ i ∈ sioPresentRequests answers n base, i.At base := by
  intro i mem
  rw [sioPresentRequests, List.mem_append, List.mem_append] at mem
  rcases mem with (unlock | one) | four
  · simp only [List.mem_cons, List.not_mem_nil, or_false, or_self] at unlock
    rw [unlock]
    exact Or.inl rfl
  · exact sioCheck_at i one
  · split at four
    · exact sioCheck_at i four
    · cases four

/-- A failure before the lock leaves its entry. -/
theorem not_present_of_refused (upTo : is <+: sioPresentRequests s.answers s.made.length base)
    (refused : ¬ s.Answered is.length) : ¬ SioPresentAt base (s.after (is ++ [.outb base 0xaa])).made := by
  intro present
  obtain ⟨entry, mem, asked, failed⟩ := after_not_ok refused
  have ok := present.ok entry (by rw [← after_append]; exact List.mem_append_left _ mem)
    (sioPresentRequests_at _ (upTo.subset asked))
  rw [failed] at ok
  cases ok

/-- What the probe reads after selecting a device. -/
theorem read_entry (away : AwayFrom base s.made) {answer : Except Errno Byte}
    (mem : (.inb (base + 1), answer) ∈
      (s.after (sioPresentRequests s.answers s.made.length base ++ [.outb base 0xaa])).made) :
    answer = s.answers (s.made.length + 5) ∨
      SioFirstShown s.answers s.made.length ∧ answer = s.answers (s.made.length + 9) := by
  rcases List.mem_append.mp mem with old | new
  · exact absurd (Or.inr rfl) (away _ old)
  · rw [sioPresentRequests] at new
    split at new
    · rename_i first
      simp [sioCheck] at new
      exact new.imp_right fun same => ⟨first, same⟩
    · simp [sioCheck] at new
      exact Or.inl new

/-- With one of the devices missing, its number is not among what was read. -/
theorem not_shown_of_missing (away : AwayFrom base s.made) (missing : ¬ SioBothShown s.answers s.made.length) :
    ¬ SioShown base (s.after (sioPresentRequests s.answers s.made.length base ++ [.outb base 0xaa])).made := by
  intro shown
  obtain ⟨one, four⟩ := shown.mem
  rcases read_entry away one with first | ⟨first, _⟩
  · rcases read_entry away four with same | ⟨_, second⟩
    · have both := first.trans same.symm
      injection both with both
      exact absurd both (by decide)
    · exact missing ⟨first.symm, second.symm⟩
  · rcases read_entry away four with same | ⟨_, second⟩
    · have both := first.symm.trans same.symm
      injection both with both
      exact absurd both (by decide)
    · exact missing ⟨first, second.symm⟩

/-- A check whose read answers the number selected. -/
theorem check_readsBack {dev : SioDev} (answer : s.answers (s.made.length + 3) = .ok dev.code) : ∃ entries,
    (s.after (sioCheck base dev)).made = s.made ++ entries ∧ ReadsBack base dev entries := by
  refine ⟨_, rfl, ?_, ?_⟩
  · rfl
  · simp only [sioCheck, List.mapIdx_cons, List.mapIdx_nil, List.getLast?_cons_cons, List.getLast?_singleton,
      Option.map_some, Nat.zero_add, Nat.reduceAdd, answer]

theorem shown_of_both (both : SioBothShown s.answers s.made.length) :
    SioShown base (s.after (sioPresentRequests s.answers s.made.length base)).made := by
  let unlocked := s.after [.outb base 0xa5, .outb base 0xa5]
  obtain ⟨one, made₁, back₁⟩ := @check_readsBack unlocked base .suart1 (by rw [after_answers, after_length]; exact both.1)
  obtain ⟨four, made₄, back₄⟩ := @check_readsBack (unlocked.after (sioCheck base .suart1)) base .suart4
    (by rw [after_answers, after_answers, after_length, after_length]; exact both.2)
  refine ⟨unlocked.made, one, [], four, [], ?_, back₁, back₄⟩
  rw [sioPresentRequests, if_pos both.1, ← after_append, ← after_append, made₄, made₁]
  simp only [List.append_nil, List.append_assoc]

theorem present_iff_locked (away : AwayFrom base s.made) (both : SioBothShown s.answers s.made.length)
    (answered : s.Answered (sioPresentRequests s.answers s.made.length base).length) :
    SioPresentAt base (s.after (sioPresentRequests s.answers s.made.length base ++ [.outb base 0xaa])).made ↔
      (s.answers (s.made.length + 10)).isOk = true := by
  have width : (sioPresentRequests s.answers s.made.length base).length = 10 := by
    rw [sioPresentRequests, if_pos both.1]
    rfl
  have last : (s.after (sioPresentRequests s.answers s.made.length base ++ [.outb base 0xaa])).made =
      (s.after (sioPresentRequests s.answers s.made.length base)).made ++
        [(.outb base 0xaa, s.answers (s.made.length + 10))] := by
    rw [← after_append]
    simp only [after, List.mapIdx_singleton, List.length_append, List.length_mapIdx, width, Nat.add_zero]
  rw [last]
  constructor
  · intro present
    exact present.ok (.outb base 0xaa, s.answers (s.made.length + 10)) (by simp) (Or.inl rfl)
  · intro ok
    refine ⟨fun entry mem here => ?_, ?_⟩
    · rcases List.mem_append.mp mem with before | lock
      · rcases after_ok answered entry before with old | ok
        · exact absurd here (away entry old)
        · exact ok
      · rw [List.mem_singleton.mp lock]
        exact ok
    · obtain ⟨before, one, between, four, later, whole, back₁, back₄⟩ := @shown_of_both s base both
      exact ⟨before, one, between, four, later ++ [_], by rw [whole, ← List.append_assoc], back₁, back₄⟩

/-- The verdict is right if and only if no failure is met, and it stands for a device otherwise. -/
theorem sioFound_verdict (away : AwayFrom base s.made) : ∃ found t, (sioFound ⟨scriptLpc, base⟩).run s = .ok found t ∧
    (∃ new, t.made = s.made ++ new ∧ ∀ entry ∈ new, entry.1.At base) ∧ t.answers = s.answers ∧
    (SioPresentSound s.answers s.made.length → (found = true ↔ SioPresentAt base t.made) ∧
      (found = true ↔ SioBothShown s.answers s.made.length) ∧ t.made.length = sioPresentNext s.answers s.made.length) ∧
    (¬ SioPresentSound s.answers s.made.length → found = true ∧ ¬ SioPresentAt base t.made) := by
  obtain ⟨found, is, run, upTo, whole, stopped⟩ := sioFound_run s base
  refine ⟨found, _, run, ⟨_, rfl, ?_⟩, rfl, fun sound => ?_, fun unsound => ?_⟩
  · intro entry mem
    obtain ⟨k, lt, rfl⟩ := List.mem_mapIdx.mp mem
    rcases List.mem_append.mp (List.getElem_mem lt) with asked | lock
    · exact sioPresentRequests_at _ (upTo.subset asked)
    · rw [List.mem_singleton.mp lock]
      exact Or.inl rfl
  · have all : s.Answered (sioPresentRequests s.answers s.made.length base).length :=
      sioPresentRequests_answered_iff.mpr ⟨sound.first, sound.second⟩
    obtain ⟨rfl, rfl⟩ := whole (all.mono upTo.length_le)
    refine ⟨?_, decide_eq_true_iff, ?_⟩
    · rw [decide_eq_true_iff]
      by_cases both : SioBothShown s.answers s.made.length
      · rw [present_iff_locked away both all]
        exact iff_of_true both (lpcAnswered_one.mp (sound.lock both))
      · exact iff_of_false both fun present => not_shown_of_missing away both present.shown
    · rw [after_length, sioPresentNext]
      by_cases first : SioFirstShown s.answers s.made.length
      · rw [if_pos first, sioPresentRequests, if_pos first]
        rfl
      · rw [if_neg first, sioPresentRequests, if_neg first]
        rfl
  · by_cases answered : s.Answered is.length
    · obtain ⟨rfl, rfl⟩ := whole answered
      obtain ⟨first, second⟩ := sioPresentRequests_answered_iff.mp answered
      have both : SioBothShown s.answers s.made.length := by
        by_contra missing
        exact unsound ⟨first, second, fun both => absurd both missing⟩
      refine ⟨decide_eq_true both, fun present => unsound ⟨first, second, fun _ => ?_⟩⟩
      exact lpcAnswered_one.mpr ((present_iff_locked away both answered).mp present)
    · exact ⟨stopped answered, not_present_of_refused upTo answered⟩

end Verdict

theorem LpcRequest.At.not_other {i : LpcRequest} {base other : Nat} (here : i.At base) (apart : base + 1 < other) :
    ¬ i.At other := by
  unfold LpcRequest.At at *
  omega

section Probe
variable {answers : Nat → Except Errno Byte}

/-- A failure at the first port ends the probe there. -/
theorem sioProbe_wrong (unsound : ¬ SioPresentSound answers 0) : ¬ SioProbeRight answers := by
  obtain ⟨found, t, run, ⟨new, made, here⟩, _, _, bad⟩ :=
    @sioFound_verdict ⟨answers, []⟩ 0x2e (fun entry mem => nomatch mem)
  obtain ⟨rfl, absent⟩ := bad unsound
  have whole : (sioProbe scriptLpc).run ⟨answers, []⟩ = .ok (true, 0x2e) t := Prog.run_bind_ok run
  rintro ⟨_, _, _, same, verdict, _⟩
  rw [whole] at same
  cases same
  rw [List.nil_append] at made
  rcases verdict.mp rfl with first | second
  · exact absent first
  · refine AwayFrom.not_shown (fun entry mem => ?_) second.shown
    rw [made] at mem
    exact (here entry mem).not_other (by decide)

/-- For every outcome of the accesses the probe is right if and only if it meets no failure. -/
theorem sioProbe_right_iff (answers : Nat → Except Errno Byte) : SioProbeRight answers ↔ SioProbeSound answers := by
  by_cases sound : SioPresentSound answers 0
  · obtain ⟨found, t, run, ⟨new, made, here⟩, kept, good, _⟩ :=
      @sioFound_verdict ⟨answers, []⟩ 0x2e (fun entry mem => nomatch mem)
    obtain ⟨verdict, shown, next⟩ := good sound
    rw [List.nil_append] at made
    have away : AwayFrom 0x4e t.made := by
      intro entry mem
      rw [made] at mem
      exact (here entry mem).not_other (by decide)
    cases found with
    | true =>
      have whole : (sioProbe scriptLpc).run ⟨answers, []⟩ = .ok (true, 0x2e) t := Prog.run_bind_ok run
      refine iff_of_true ⟨_, _, _, whole, ?_, fun _ => rfl, fun absent => absurd (verdict.mp rfl) absent⟩ ?_
      · exact iff_of_true rfl (Or.inl (verdict.mp rfl))
      · exact ⟨sound, fun missing => absurd (shown.mp rfl) missing⟩
    | false =>
      have missing : ¬ SioBothShown answers 0 := fun both => Bool.false_ne_true (shown.mpr both)
      have absent : ¬ SioPresentAt 0x2e t.made := fun present => Bool.false_ne_true (verdict.mpr present)
      obtain ⟨found', t', run', ⟨new', made', here'⟩, _, good', bad'⟩ := sioFound_verdict away
      have whole : (sioProbe scriptLpc).run ⟨answers, []⟩ = .ok (found', 0x4e) t' :=
        (Prog.run_bind_ok run).trans (Prog.run_bind_ok run')
      have absent' : ¬ SioPresentAt 0x2e t'.made := by
        rw [made']
        refine fun present => absent (present.of_append fun entry mem first => ?_)
        exact first.not_other (by decide) (here' entry mem)
      have position : t.made.length = sioPresentNext answers 0 := next
      rw [kept, position] at good' bad'
      rw [SioProbeSound, and_iff_right sound, forall_prop_of_true missing]
      constructor
      · rintro ⟨_, _, _, same, right, _⟩
        rw [whole] at same
        cases same
        by_contra unsound
        obtain ⟨rfl, wrong⟩ := bad' unsound
        exact (right.mp rfl).elim absent' wrong
      · intro sound'
        exact ⟨_, _, _, whole, (good' sound').1.trans (or_iff_right absent').symm,
          fun present => absurd present absent', fun _ _ => rfl⟩
  · exact iff_of_false (sioProbe_wrong sound) fun both => sound both.1

/-- When every access fails a device is found at 0x2e. -/
theorem sioProbe_all_failed : ¬ SioProbeRight fun _ => .error eio :=
  sioProbe_wrong fun sound => Bool.false_ne_true (sound.first 0 (by decide))

end Probe

end Culvert
