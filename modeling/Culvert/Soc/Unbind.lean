import Culvert.Soc.InUse

namespace Culvert

namespace Soc

/-- The SCU was locked if it was found so, or will be with the last reference. -/
def Relocks (found : Prop) (s : Soc) : Prop :=
  found → (∃ ctx, s.scu = some ctx ∧ ctx.wasLocked) ∨ ∃ event ∈ s.log, event.Locks

/-- The references that are out, where the lists are as given, and accesses fail as in `fails`. -/
structure At (devices live : List SocDev) (links : Links BridgeEntry) (owed : List Holder) (found : Prop)
    (fails : Nat → Option Errno) (s : Soc) : Prop where
  bound : s.devices = devices
  alive : s.live = live
  linked : s.bridges = links
  owes : Owes owed s.log s.scu
  relocks : (∀ n, fails n = none) → Relocks found s

variable {devices live : List SocDev} {links : Links BridgeEntry} {owed : List Holder} {found : Prop}
variable {fails : Nat → Option Errno} {s : Soc} {holder : Holder} {dev : SocDev}

theorem At.blind : Blind (At devices live links owed found fails) := by
  refine ⟨fun s reads here => ⟨here.bound, here.alive, here.linked, here.owes, here.relocks⟩, fun s phys val safe here => ?_⟩
  refine ⟨here.bound, here.alive, here.linked, here.owes.wrote safe, fun sound need => ?_⟩
  rcases here.relocks sound need with later | ⟨event, mem, locks⟩
  · exact Or.inl later
  · exact Or.inr ⟨event, List.mem_cons_of_mem _ mem, locks⟩

theorem update_run (f : Soc → Soc) (s : Faulty Soc) : (update f).run s = .ok () { s with dev := f s.dev } := rfl

/-- The last write to the SCU, which may fail. -/
theorem scuLock_run (s : Faulty Soc) : ∃ r s', (Prog.attempt scuLock).run s = .ok r s' ∧ s'.fails = s.fails ∧
    ((∃ n, s.fails n ≠ none) ∧ s'.dev = s.dev ∨
      s'.dev = { s.dev with log := .wrote (scuBase + astScuProtKey) (~~~astScuPassword) :: s.dev.log }) := by
  cases outcome : s.fails s.accesses with
  | none =>
    refine ⟨.ok (), ⟨_, s.fails, s.accesses + 1⟩, Prog.attempt_ok ?_, rfl, Or.inr rfl⟩
    simp only [scuLock, scuWritel, socWritel, Faulty.access, EStateM.run, outcome, bus]
  | some e =>
    refine ⟨.error e, { s with accesses := s.accesses + 1 }, Prog.attempt_rc ?_, rfl, Or.inl ⟨⟨s.accesses, ?_⟩, rfl⟩⟩
    · simp only [scuLock, scuWritel, socWritel, Faulty.access, EStateM.run, outcome]
    · rw [outcome]
      exact Option.some_ne_none e

theorem locks_key : (SocEvent.wrote (scuBase + astScuProtKey) (~~~astScuPassword)).Locks :=
  ⟨~~~astScuPassword, by decide, rfl⟩

/-- The reference counts down, and with the last one the context goes. -/
theorem scuPut_run {s : Faulty Soc} (here : At devices live links (holder :: owed) found s.fails s.dev) :
    ∃ s', (scuPut holder).run s = .ok () s' ∧ s'.fails = s.fails ∧ At devices live links owed found s.fails s'.dev := by
  obtain ⟨ctx, out⟩ : ∃ ctx, s.dev.scu = some ctx := by
    rw [← Option.ne_none_iff_exists']
    exact fun none => nomatch here.owes.freed.mp none
  have owes := here.owes
  rw [out] at owes
  let s₁ : Faulty Soc := { s with dev := { s.dev with
    scu := some { ctx with refcnt := ctx.refcnt - 1 }, log := .dropped holder :: s.dev.log } }
  have start : (scuPut holder).run s = (if ctx.refcnt - 1 = 0 then do
      if ctx.wasLocked then let _ ← Prog.attempt scuLock
      update fun s => { s with scu := none }
    else pure ()).run s₁ := by
    rw [scuPut, Prog.run_bind_ok (show (get : Prog (Faulty Soc) _).run s = .ok s s from rfl), out]
    rfl
  rw [start]
  cases owed with
  | cons other rest =>
    have more : ¬ ctx.refcnt - 1 = 0 := by
      rw [owes.refcnt_sub, List.length_cons]
      omega
    rw [if_neg more]
    refine ⟨s₁, rfl, rfl, here.bound, here.alive, here.linked, owes.dropped (List.cons_ne_nil _ _), fun sound need => ?_⟩
    rcases here.relocks sound need with ⟨ctx', same, locked⟩ | ⟨event, mem, locks⟩
    · rw [out] at same
      cases same
      exact Or.inl ⟨_, rfl, locked⟩
    · exact Or.inr ⟨event, List.mem_cons_of_mem _ mem, locks⟩
  | nil =>
    have last : ctx.refcnt - 1 = 0 := owes.refcnt_sub
    rw [if_pos last]
    cases locked : ctx.wasLocked with
    | false =>
      refine ⟨{ s₁ with dev := { s₁.dev with scu := none } }, rfl, rfl, here.bound, here.alive, here.linked, owes.last,
        fun sound need => ?_⟩
      rcases here.relocks sound need with ⟨ctx', same, locked'⟩ | ⟨event, mem, locks⟩
      · rw [out] at same
        cases same
        exact absurd (locked.symm.trans locked') (by decide)
      · exact Or.inr ⟨event, List.mem_cons_of_mem _ mem, locks⟩
    | true =>
      obtain ⟨r, s₂, run, fails, outcome⟩ := scuLock_run s₁
      have final : (do let _ ← Prog.attempt scuLock; update fun s => { s with scu := none } : Prog (Faulty Soc) Unit).run s₁ =
          .ok () { s₂ with dev := { s₂.dev with scu := none } } := by
        rw [Prog.run_bind_ok run]
        rfl
      refine ⟨_, final, fails, ?_⟩
      rcases outcome with ⟨⟨n, failing⟩, same⟩ | same
      · rw [same]
        refine ⟨here.bound, here.alive, here.linked, owes.last, fun sound => absurd (sound n) failing⟩
      · rw [same]
        refine ⟨here.bound, here.alive, here.linked, owes.last.locked _ _, fun _ _ => Or.inr ?_⟩
        exact ⟨_, List.mem_cons_self, locks_key⟩

/-- What a program that only makes accesses keeps. -/
abbrev Quiet (I : Soc → Prop) (fails : Nat → Option Errno) {α : Type} (m : Prog (Faulty Soc) α) : Prop :=
  Prog.Triple (fun s => s.fails = fails ∧ I s.dev) m (fun _ s => s.fails = fails ∧ I s.dev)
    fun e s => (∃ r, e = .rc r) ∧ s.fails = fails ∧ I s.dev

section
variable {I : Soc → Prop}

theorem access_quiet {α : Type} {look : Soc → α × Soc} (step : ∀ d, I d → I (look d).2) :
    Quiet I fails (Faulty.access look) := by
  rintro s ⟨rfl, here⟩
  simp only [Faulty.access, EStateM.run]
  cases s.fails s.accesses with
  | none =>
    refine ⟨fun a s' run => ?_, fun e s' run => ?_⟩
    · cases run
      exact ⟨rfl, step s.dev here⟩
    · cases run
  | some r =>
    refine ⟨fun a s' run => ?_, fun e s' run => ?_⟩
    · cases run
    · cases run
      exact ⟨⟨r, rfl⟩, rfl, here⟩

theorem sfcRestore_quiet (blind : Blind I) (dev : SocDev) : Quiet I fails (sfcRestore dev) := by
  have readl : ∀ phys, Quiet I fails (socReadl bus phys) := fun phys => access_quiet fun s => blind.read s _
  have writel : ∀ {phys val}, ¬ (SocEvent.wrote phys val).Locks → Quiet I fails (socWritel bus phys val) :=
    fun safe => access_quiet fun s => blind.wrote s _ _ safe
  have look : Quiet I fails (get : Prog (Faulty Soc) (Faulty Soc)) := by
    intro s here
    refine ⟨fun a s' run => ?_, fun e s' run => nomatch run⟩
    cases run
    exact here
  have nothing : Quiet I fails (pure () : Prog (Faulty Soc) Unit) := Prog.Triple.pure fun _ here => here
  refine look.bind fun _ => (writel (not_locks_of_ne (sfcType_ne dev).2.1)).bind fun _ => ?_
  refine Prog.Triple.ite ((readl _).bind fun reg => ?_) nothing
  exact Prog.Triple.ite (writel (not_locks_of_ne (sfcStart_ne dev (by decide)))) nothing

/-- An error that is dropped leaves nothing else. -/
theorem Quiet.dropped {m : Prog (Faulty Soc) Unit} (quiet : Quiet I fails m) {s : Faulty Soc} (same : s.fails = fails)
    (here : I s.dev) : ∃ r s', (Prog.attempt m).run s = .ok r s' ∧ s'.fails = fails ∧ I s'.dev := by
  have tried := quiet.attempt s ⟨same, here⟩
  cases run : (Prog.attempt m).run s with
  | ok r s' =>
    have post := tried.1 r s' run
    cases r with
    | ok _ => exact ⟨.ok (), s', rfl, post⟩
    | error e => exact ⟨.error e, s', rfl, post.2⟩
  | error e s' =>
    obtain ⟨⟨r, rfl⟩, _⟩ := tried.2 e s' run
    exact absurd run Prog.attempt_ne_rc

end

/-- The links after the `destroy` of the device's driver. -/
def unwire (dev : SocDev) (links : Links BridgeEntry) : Links BridgeEntry :=
  match dev.driver with
  | .pciectl => links.del ⟨dev, .p2actl⟩
  | .ilpcctl => links.del ⟨dev, .ilpcctl⟩
  | .debugctl => links.del ⟨dev, .debugctl⟩
  | _ => links

theorem driverDestroy_run {s : Faulty Soc} {owed' : List Holder}
    (here : At devices live links owed found s.fails s.dev)
    (paid : owed = if dev.driver.holdsScu then .device dev :: owed' else owed') :
    ∃ s', (driverDestroy dev).run s = .ok () s' ∧ s'.fails = s.fails ∧
      At devices (live.erase dev) (unwire dev links) owed' found s.fails s'.dev := by
  have freed : ∀ {links'} {s₁ : Faulty Soc}, s₁.fails = s.fails → At devices live links' owed' found s.fails s₁.dev →
      ∃ s', (freeDrvdata dev).run s₁ = .ok () s' ∧ s'.fails = s.fails ∧
        At devices (live.erase dev) links' owed' found s.fails s'.dev := by
    intro links' s₁ same now
    refine ⟨_, update_run _ s₁, same, now.bound, ?_, now.linked, now.owes, now.relocks⟩
    rw [now.alive]
  have unlinked : ∀ ops, owed = owed' → ∃ s', (do unregister dev ops; freeDrvdata dev : Prog (Faulty Soc) Unit).run s =
      .ok () s' ∧ s'.fails = s.fails ∧
        At devices (live.erase dev) (links.del ⟨dev, ops⟩) owed' found s.fails s'.dev := by
    rintro ops rfl
    have now : At devices live (links.del ⟨dev, ops⟩) owed found s.fails { s.dev with bridges := s.dev.bridges.del ⟨dev, ops⟩ } :=
      ⟨here.bound, here.alive, by rw [here.linked], here.owes, here.relocks⟩
    rw [unregister, Prog.run_bind_ok (update_run _ s)]
    exact freed rfl now
  rw [driverDestroy, unwire]
  cases driver : dev.driver with
  | scu | clk | strap =>
    rw [driver] at paid
    obtain rfl : owed = .device dev :: owed' := paid
    obtain ⟨s₁, run, same, now⟩ := scuPut_run here
    simp only [Prog.run_bind_ok run]
    exact freed same now
  | sfc =>
    rw [driver] at paid
    obtain rfl : owed = owed' := paid
    have quiet : Quiet (At devices live links owed found s.fails) s.fails (sfcRestore dev) :=
      sfcRestore_quiet At.blind dev
    obtain ⟨r, s₁, run, same, now⟩ := quiet.dropped rfl here
    simp only [Prog.run_bind_ok run]
    exact freed same now
  | pciectl | ilpcctl | debugctl =>
    rw [driver] at paid
    exact unlinked _ paid
  | _ =>
    rw [driver] at paid
    obtain rfl : owed = owed' := paid
    exact freed rfl here

theorem At.perm {owed' : List Holder} (here : At devices live links owed found fails s) (perm : owed.Perm owed') :
    At devices live links owed' found fails s :=
  ⟨here.bound, here.alive, here.linked, here.owes.perm perm, here.relocks⟩

/-- The links after the turns of `soc_unbind_drivers` for the given devices. -/
def unwireEach : List SocDev → List SocDev → Links BridgeEntry → Links BridgeEntry
  | [], _, links => links
  | dev :: rest, live, links => unwireEach rest (live.erase dev) (if dev ∈ live then unwire dev links else links)

variable {extra : List Holder} {held : Nat}

theorem unbindDriver_run {s : Faulty Soc}
    (here : At devices live links (extra ++ due held live) found s.fails s.dev) (dev : SocDev) :
    ∃ s', (unbindDriver dev).run s = .ok () s' ∧ s'.fails = s.fails ∧
      At (devices.erase dev) (live.erase dev) (if dev ∈ live then unwire dev links else links)
        (extra ++ due held (live.erase dev)) found s.fails s'.dev := by
  have unlisted : ∀ {live links owed} {s₁ : Faulty Soc}, s₁.fails = s.fails →
      At devices live links owed found s.fails s₁.dev →
        ∃ s', (update fun s => { s with devices := s.devices.erase dev }).run s₁ = .ok () s' ∧ s'.fails = s.fails ∧
          At (devices.erase dev) live links owed found s.fails s'.dev := by
    intro live links owed s₁ same now
    refine ⟨_, update_run _ s₁, same, ?_, now.alive, now.linked, now.owes, now.relocks⟩
    rw [now.bound]
  rw [unbindDriver, Prog.run_bind_ok (show (get : Prog (Faulty Soc) _).run s = .ok s s from rfl), here.alive]
  by_cases alive : dev ∈ live
  · rw [if_pos alive, if_pos alive]
    have paid : ∃ owed, (extra ++ due held live).Perm owed ∧
        owed = if dev.driver.holdsScu then .device dev :: (extra ++ due held (live.erase dev))
          else extra ++ due held (live.erase dev) := by
      refine ⟨_, ?_, rfl⟩
      by_cases holds : dev.driver.holdsScu
      · rw [if_pos holds]
        exact ((due_erase alive holds).append_left extra).trans List.perm_middle
      · rw [if_neg holds]
        exact (due_erase_of_not alive holds).append_left extra
    obtain ⟨owed, perm, same⟩ := paid
    obtain ⟨s₁, run, kept, now⟩ := driverDestroy_run (here.perm perm) same
    rw [Prog.run_bind_ok run]
    exact unlisted kept now
  · rw [if_neg alive, if_neg alive, List.erase_of_not_mem alive]
    exact unlisted rfl here

theorem unbindEach_run {s : Faulty Soc} (l : List SocDev)
    (here : At devices live links (extra ++ due held live) found s.fails s.dev) :
    ∃ s', (unbindEach l).run s = .ok () s' ∧
      At (devices.diff l) (live.diff l) (unwireEach l live links) (extra ++ due held (live.diff l)) found s.fails s'.dev := by
  induction l generalizing s devices live links with
  | nil => exact ⟨s, rfl, here⟩
  | cons dev rest ih =>
    obtain ⟨s₁, run, same, now⟩ := unbindDriver_run here dev
    rw [← same] at now
    obtain ⟨s', run', last⟩ := ih now
    rw [same] at last
    refine ⟨s', ?_, ?_⟩
    · rw [unbindEach, Prog.run_bind_ok run, run']
    · rw [List.diff_cons, List.diff_cons]
      exact last

/-- What the drivers have while they are in use is what they are unbound from. -/
theorem InUse.at {before : List SocDev} {rank : Nat} (inUse : InUse devices before rank extra held s)
    (fails : Nat → Option Errno) :
    At devices s.live s.bridges (extra ++ due held s.live) (∃ ctx, s.scu = some ctx ∧ ctx.wasLocked) fails s :=
  ⟨inUse.bound, rfl, rfl, inUse.owes, fun _ found => Or.inl found⟩

end Soc

end Culvert
