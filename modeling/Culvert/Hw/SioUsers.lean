import Culvert.Bridge.Ilpc
import Culvert.Hw.SioTap

/-! The iLPC2AHB bridge and the probe keep to their device and lock the SuperIO behind them. -/

namespace Culvert

open Faulty

theorem orMinusOne_moves {σ α : Type} {I K : σ → Prop} {m : Prog (Faulty σ) α} (moves : Moves I m K K) :
    Moves I (orMinusOne m) K K := by
  refine moves.attempt.bind fun r => ?_
  cases r with
  | ok a => exact Moves.pure fun _ post => post
  | error e => exact Moves.fail fun _ post => post

section Ilpc
variable {port : Nat}

/-- Whatever fails, the setup writes to the bridge only. -/
theorem ilpcbSetup_moves (width : Byte) : Moves (SioTap.Only 0x0d) (ilpcbSetup ⟨tapLpc port, port⟩ width)
    (SioTap.Tuned 0x0d) (SioTap.Only 0x0d) := by
  have store {r v : Byte} (notKey : r ≠ 0xa5) (register : r ≠ 0x07) : Moves (SioTap.Tuned 0x0d)
      (sioWriteb ⟨tapLpc port, port⟩ r v) (SioTap.Tuned 0x0d) (SioTap.Only 0x0d) :=
    (sioWriteb_moves notKey register v).mono (fun _ pre => pre) (fun _ post => post) fun _ tuned => tuned.only
  refine sioUnlock_moves.bind fun _ => ?_
  refine ((sioSelect_moves 0x0d).mono (fun _ pre => pre) ?_ fun _ only => only).bind fun _ =>
    (store (by decide) (by decide)).bind fun _ => store (by decide) (by decide)
  intro d selected
  exact ⟨selected.1.only, fun _ => selected.2⟩

theorem stores_moves {dev : Byte} (rvs : List (Byte × Byte)) (plain : ∀ rv ∈ rvs, rv.1 ≠ 0xa5 ∧ rv.1 ≠ 0x07) :
    Moves (SioTap.Tuned dev) (Prog.all (rvs.map fun rv => sioWriteb ⟨tapLpc port, port⟩ rv.1 rv.2))
      (SioTap.Tuned dev) (SioTap.Tuned dev) := by
  refine Moves.all fun m mem => ?_
  obtain ⟨rv, here, rfl⟩ := List.mem_map.mp mem
  exact sioWriteb_moves (plain rv here).1 (plain rv here).2 rv.2

theorem ilpcbSetAddr_moves (addr : Word) : Moves (SioTap.Tuned 0x0d) (ilpcbSetAddr ⟨tapLpc port, port⟩ addr)
    (SioTap.Tuned 0x0d) (SioTap.Tuned 0x0d) :=
  stores_moves [(0xf0, addr.byte 3), (0xf1, addr.byte 2), (0xf2, addr.byte 1), (0xf3, addr.byte 0)] (by simp)

theorem ilpcbReadLoop_moves (addr : Word) (n : Nat) : Moves (SioTap.Tuned 0x0d)
    (ilpcbReadLoop ⟨tapLpc port, port⟩ addr n) (SioTap.Tuned 0x0d) (SioTap.Tuned 0x0d) := by
  induction n generalizing addr with
  | zero => exact Moves.pure fun _ post => post
  | succ n ih =>
    exact (ilpcbSetAddr_moves addr).bind fun _ => (sioReadb_moves (by decide)).bind fun _ =>
      (sioReadb_moves (by decide)).bind fun _ => (ih (addr + 1)).bind fun _ => Moves.pure fun _ post => post

theorem ilpcbWriteLoop_moves (addr : Word) (bs : List Byte) : Moves (SioTap.Tuned 0x0d)
    (ilpcbWriteLoop ⟨tapLpc port, port⟩ addr bs) (SioTap.Tuned 0x0d) (SioTap.Tuned 0x0d) := by
  induction bs with
  | nil => exact Moves.pure fun _ post => post
  | cons b rest ih =>
    exact (ilpcbSetAddr_moves addr).bind fun _ => (sioWriteb_moves (by decide) (by decide) b).bind fun _ =>
      (sioWriteb_moves (by decide) (by decide) 0xcf).bind fun _ => ih

/-- A transfer between the setup and the lock. -/
theorem ilpcbBody_moves {α : Type} {width : Byte} {m : Prog (Faulty SioTap) α}
    (moves : Moves (SioTap.Tuned 0x0d) m (SioTap.Tuned 0x0d) (SioTap.Tuned 0x0d)) :
    Moves (SioTap.Only 0x0d) (Prog.ensuring (do ilpcbSetup ⟨tapLpc port, port⟩ width; m)
      (sioLock ⟨tapLpc port, port⟩)) (fun d => d.Shut ∧ d.Only 0x0d) (fun d => d.Shut ∧ d.Only 0x0d) := by
  have body : Moves (SioTap.Only 0x0d) (do ilpcbSetup ⟨tapLpc port, port⟩ width; m) (SioTap.Only 0x0d)
      (SioTap.Only 0x0d) :=
    (ilpcbSetup_moves width).bind fun _ =>
      moves.mono (fun _ tuned => tuned) (fun _ tuned => tuned.only) fun _ tuned => tuned.only
  exact body.ensuring sioLock_moves

/-- The requests `ilpcb_read` and `ilpcb_write` refuse before they touch the SuperIO. -/
def IlpcRefuses : MemOp → Prop
  | .read _ len => ssizeMax < len
  | .write _ buf => ssizeMax < buf.length
  | _ => False

theorem ilpcbCall_moves {op : MemOp} (taken : ¬ IlpcRefuses op) : Moves (SioTap.Only 0x0d)
    (ilpcbCall ⟨tapLpc port, port⟩ op) (fun d => d.Shut ∧ d.Only 0x0d) (fun d => d.Shut ∧ d.Only 0x0d) := by
  cases op with
  | read addr len =>
    refine Moves.bind ?_ fun _ => Moves.pure fun _ post => post
    have fits : ¬ len > ssizeMax := taken
    rw [ilpcbRead, if_neg fits]
    exact orMinusOne_moves (ilpcbBody_moves (ilpcbReadLoop_moves addr len))
  | write addr buf =>
    refine Moves.bind ?_ fun _ => Moves.pure fun _ post => post
    have fits : ¬ buf.length > ssizeMax := taken
    rw [ilpcbWrite, if_neg fits]
    exact orMinusOne_moves (ilpcbBody_moves (ilpcbWriteLoop_moves addr buf))
  | readl addr =>
    refine Moves.bind (ilpcbBody_moves ?_) fun _ => Moves.pure fun _ post => post
    exact (ilpcbSetAddr_moves addr).bind fun _ => (sioReadb_moves (by decide)).bind fun _ =>
      ((((sioReadb_moves (by decide)).also (sioReadb_moves (by decide))).also (sioReadb_moves (by decide))).also
        (sioReadb_moves (by decide))).bind fun _ => Moves.pure fun _ post => post
  | writel addr val =>
    refine Moves.bind (ilpcbBody_moves ?_) fun _ => Moves.pure fun _ post => post
    exact (ilpcbSetAddr_moves addr).bind fun _ => (stores_moves [(0xf4, val.byte 3), (0xf5, val.byte 2),
      (0xf6, val.byte 1), (0xf7, val.byte 0)] (by simp)).bind fun _ => sioWriteb_moves (by decide) (by decide) 0xcf

theorem ilpcbCall_refused {op : MemOp} (refused : IlpcRefuses op) (s : Faulty SioTap) :
    ((ilpcbCall ⟨tapLpc port, port⟩ op).run s).state = s := by
  cases op with
  | read addr len =>
    have large : len > ssizeMax := refused
    have stop : (ilpcbRead ⟨tapLpc port, port⟩ addr len).run s = .error (.rc eperm) s := by
      rw [ilpcbRead, if_pos large]
      rfl
    rw [ilpcbCall, Prog.run_bind_error stop]
    rfl
  | write addr buf =>
    have large : buf.length > ssizeMax := refused
    have stop : (ilpcbWrite ⟨tapLpc port, port⟩ addr buf).run s = .error (.rc eperm) s := by
      rw [ilpcbWrite, if_pos large]
      rfl
    rw [ilpcbCall, Prog.run_bind_error stop]
    rfl
  | readl addr => cases refused
  | writel addr val => cases refused

end Ilpc

section Probe
variable {port : Nat} {dev : Byte}

theorem sioPresent_moves : Moves (SioTap.Only dev) (sioPresent ⟨tapLpc port, port⟩) (fun d => d.Shut ∧ d.Only dev)
    (fun d => d.Shut ∧ d.Only dev) := by
  have select (v : Byte) : Moves (SioTap.Open dev) (sioWriteb ⟨tapLpc port, port⟩ 0x07 v) (SioTap.Open dev)
      (SioTap.Only dev) := (sioSelect_moves v).mono (fun _ pre => pre) (fun _ post => post.1) fun _ stop => stop
  have body : Moves (SioTap.Only dev) (do
      sioUnlock ⟨tapLpc port, port⟩
      sioSelect ⟨tapLpc port, port⟩ .suart1
      let found ← sioReadb ⟨tapLpc port, port⟩ 0x07
      if found ≠ SioDev.suart1.code then
        return false
      else
        sioSelect ⟨tapLpc port, port⟩ .suart4
        let found ← sioReadb ⟨tapLpc port, port⟩ 0x07
        return found = SioDev.suart4.code) (SioTap.Only dev) (SioTap.Only dev) := by
    refine sioUnlock_moves.bind fun _ => (select _).bind fun _ => (sioReadb_open (by decide)).bind fun found =>
      Moves.ite ?_ ?_
    · exact Moves.pure fun _ awake => awake.only
    · refine (select _).bind fun _ => (sioReadb_open (by decide)).bind fun found =>
        Moves.pure fun _ awake => awake.only
  exact body.ensuring sioLock_moves

theorem sioFound_moves {I K E : SioTap → Prop} {sio : Sio (Faulty SioTap)} (moves : Moves I (sioPresent sio) K K) :
    Moves I (sioFound sio) K E := by
  refine moves.attempt.bind fun r => ?_
  cases r with
  | ok present => exact Moves.pure fun _ post => post
  | error e => exact Moves.pure fun _ post => post

/-- Between the unlock and the lock, at the ports of no SuperIO. -/
theorem sioAnswers_elsewhere {base : Nat} (away : Elsewhere port base) (d : SioTap) : Takes (· = d) d (do
    sioSelect ⟨tapLpc port, base⟩ .suart1
    let found ← sioReadb ⟨tapLpc port, base⟩ 0x07
    if found ≠ SioDev.suart1.code then
      return false
    else
      sioSelect ⟨tapLpc port, base⟩ .suart4
      let found ← sioReadb ⟨tapLpc port, base⟩ 0x07
      return found = SioDev.suart4.code) 4 false d := by
  have select : Takes (· = d) d (sioSelect ⟨tapLpc port, base⟩ .suart1) 2 () d :=
    sioWriteb_elsewhere away _ d rfl
  have look : Takes (· = d) d (sioReadb ⟨tapLpc port, base⟩ 0x07) 2 0xff d := sioReadb_elsewhere away _ d rfl
  refine Takes.congr (n := 2 + (2 + 0)) ?_ rfl rfl rfl
  refine select.bind (look.bind ?_)
  rw [if_pos (by decide)]
  exact Takes.pure false

/-- With no SuperIO at the ports the probe only notices accesses that fail. -/
theorem sioPresent_elsewhere {base : Nat} (away : Elsewhere port base) (s : Faulty SioTap) : ∃ s', s'.dev = s.dev ∧
    (s.Clear 6 ∧ (sioPresent ⟨tapLpc port, base⟩).run s = .ok false s' ∨
      ¬ s.Clear 6 ∧ ∃ e, (sioPresent ⟨tapLpc port, base⟩).run s = .error (.rc e) s') := by
  have lock (s₁ : Faulty SioTap) (here : s₁.dev = s.dev) : ∃ r s₂,
      (Prog.attempt (sioLock ⟨tapLpc port, base⟩)).run s₁ = .ok r s₂ ∧ s₂.dev = s.dev := by
    rw [sioLock_elsewhere away]
    have still : Moves (· = s.dev) (access fun d : SioTap => ((), d)) (· = s.dev) (· = s.dev) :=
      Moves.access (fun _ same => same) fun _ same => same
    rcases still.attempt (E := fun _ => False) s₁ here with ⟨r, s₂, run, same⟩ | ⟨_, _, _, never⟩
    · exact ⟨r, s₂, run, same⟩
    · cases never
  have stopped (blocked : ¬ s.Clear 2) : ∃ e s₁, s₁.dev = s.dev ∧
      (sioUnlock ⟨tapLpc port, base⟩).run s = .error (.rc e) s₁ := by
    rw [sioUnlock_elsewhere away, pair_run]
    cases first : s.fails s.accesses <;> cases second : s.fails (s.accesses + 1)
    · exact absurd (fun k lt => by interval_cases k; exacts [first, second]) blocked
    · exact ⟨_, s.after 2 s.dev, rfl, rfl⟩
    · exact ⟨_, s.after 2 s.dev, rfl, rfl⟩
    · exact ⟨_, s.after 2 s.dev, rfl, rfl⟩
  by_cases unlocked : s.Clear 2
  · have unlock : (sioUnlock ⟨tapLpc port, base⟩).run s = .ok () (s.after 2 s.dev) := by
      have first : s.fails s.accesses = none := unlocked 0 (by omega)
      have second : s.fails (s.accesses + 1) = none := unlocked 1 (by omega)
      rw [sioUnlock_elsewhere away, pair_run, first, second]
    have answers := sioAnswers_elsewhere away s.dev
    rcases clear_or_firstFails (s.after 2 s.dev) 4 with clear | ⟨k, lt, fails⟩
    · obtain ⟨r, s', run, same⟩ := lock ((s.after 2 s.dev).after 4 s.dev) rfl
      refine ⟨s', same, Or.inl ⟨clear_add.mpr ⟨unlocked, clear⟩, Prog.ensuring_ok_iff.mpr ⟨_, ?_, r, run⟩⟩⟩
      exact (Prog.run_bind_ok unlock).trans (answers.clear _ rfl clear)
    · obtain ⟨e, mid, rfl, stop⟩ := answers.failed (s.after 2 s.dev) k rfl lt fails
      obtain ⟨r, s', run, same⟩ := lock ((s.after 2 s.dev).after (k + 1) s.dev) rfl
      refine ⟨s', same, Or.inr ⟨fun clear => fails.not_clear lt (clear_add.mp clear).2, e, ?_⟩⟩
      exact Prog.ensuring_error_iff.mpr ⟨_, (Prog.run_bind_ok unlock).trans stop, r, run⟩
  · obtain ⟨e, s₁, here, stop⟩ := stopped unlocked
    obtain ⟨r, s', run, same⟩ := lock s₁ here
    refine ⟨s', same, Or.inr ⟨fun clear => unlocked (clear.mono (by omega)), e, ?_⟩⟩
    exact Prog.ensuring_error_iff.mpr ⟨s₁, Prog.run_bind_error stop, r, run⟩

/-- `sio_probe` shuts a SuperIO at its first port. -/
theorem sioProbe_first : Moves (SioTap.Only dev) (sioProbe (tapLpc 0x2e)) (fun d => d.Shut ∧ d.Only dev)
    (fun d => d.Shut ∧ d.Only dev) := by
  have second : Moves (fun d => d.Shut ∧ d.Only dev) (sioFound ⟨tapLpc 0x2e, 0x4e⟩) (fun d => d.Shut ∧ d.Only dev)
      (fun d => d.Shut ∧ d.Only dev) := by
    refine sioFound_moves fun s start => ?_
    have away : Elsewhere 0x2e 0x4e := by unfold Elsewhere; omega
    obtain ⟨s', same, ⟨_, run⟩ | ⟨_, e, run⟩⟩ := sioPresent_elsewhere away s
    · exact Or.inl ⟨false, s', run, by rw [same]; exact start⟩
    · exact Or.inr ⟨e, s', run, by rw [same]; exact start⟩
  refine (sioFound_moves sioPresent_moves).bind fun found => Moves.ite (Moves.pure fun _ post => post) ?_
  exact second.bind fun found => Moves.pure fun _ post => post

/-- One at the second port it shuts if no access to the first fails. -/
theorem sioProbe_second (s : Faulty SioTap) (only : s.dev.Only dev) :
    ((sioProbe (tapLpc 0x4e)).run s).state.dev.Only dev ∧
      (((sioProbe (tapLpc 0x4e)).run s).state.dev.Shut ↔ s.dev.Shut ∨ s.Clear 6) := by
  have away : Elsewhere 0x4e 0x2e := by unfold Elsewhere; omega
  obtain ⟨s₁, same, ⟨clear, run⟩ | ⟨blocked, e, run⟩⟩ := sioPresent_elsewhere away s
  · have first : (sioFound ⟨tapLpc 0x4e, 0x2e⟩).run s = .ok false s₁ :=
      Prog.run_bind_ok (Prog.attempt_ok run)
    have rest : Moves (SioTap.Only dev) (do return (← sioFound ⟨tapLpc 0x4e, 0x4e⟩, 0x4e))
        (fun d => d.Shut ∧ d.Only dev) (fun d => d.Shut ∧ d.Only dev) :=
      (sioFound_moves sioPresent_moves).bind fun found => Moves.pure (a := (found, 0x4e)) fun _ post => post
    have last := rest.state (s := s₁) (by rw [same]; exact only)
    have eq : (sioProbe (tapLpc 0x4e)).run s = (do return (← sioFound ⟨tapLpc 0x4e, 0x4e⟩, 0x4e)).run s₁ :=
      Prog.run_bind_ok first
    rw [eq]
    exact ⟨last.2, iff_of_true last.1 (Or.inr clear)⟩
  · have first : (sioFound ⟨tapLpc 0x4e, 0x2e⟩).run s = .ok true s₁ :=
      Prog.run_bind_ok (Prog.attempt_rc run)
    have eq : (sioProbe (tapLpc 0x4e)).run s = .ok (true, 0x2e) s₁ := Prog.run_bind_ok first
    rw [eq, EStateM.Result.state_ok, same]
    exact ⟨only, by simp [blocked]⟩

end Probe

end Culvert
