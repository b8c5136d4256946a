import Culvert.Bridge.DebugReads

namespace Culvert
open Prog ByteMem

/-- How many words something is stored of until one has to be rejected. -/
def touchedWords : List (List Char) → Nat
  | [] => 0
  | token :: words =>
    if scansFour token then touchedWords words + 1 else if (Text.scanBytes 4 token).1 = [] then 0 else 1

def touchedBytes (line : List Char) : Nat :=
  match Text.strchr line ':' with
  | none => 0
  | some eoa => 4 * touchedWords (Text.tokens ' ' eoa.tail)

/-- Where an answer has to be repeated it is for its first line, and what that line stores fits in what is left. -/
def Harmless : List (Option Garbled) → Nat → Prop
  | [], _ => True
  | answer :: script, remaining => remaining = 0 ∨
    match garbledIn [answer] (dIngress remaining) with
    | some g => g.words = 0 ∧ touchedBytes g.line ≤ remaining ∧ Harmless script remaining
    | none => Harmless script (remaining - dIngress remaining)

section
variable {errno : Option Errno} {start cursor x : Nat} {buf : Mem} {toks : List (List Char)} {line : List Char}
variable {got : List Byte}

theorem overlay_storeFrom (cursor : Nat) (got : List Byte) (i : Nat) :
    Overlay fun buf => (got.zipIdx i).foldl (fun m (b, j) => write m (cursor + 3 - j) [b]) buf := by
  induction got generalizing i with
  | nil => exact Overlay.id
  | cons b got ih => exact (overlay_write _ [b]).then (ih (i + 1))

theorem overlay_storeScanned (cursor : Nat) (got : List Byte) : Overlay fun buf => storeScanned buf cursor got :=
  overlay_storeFrom cursor got 0

/-- The first byte got is the last of the word. -/
theorem sets_storeScanned (some' : got ≠ []) (cursor : Nat) : Sets (fun buf => storeScanned buf cursor got) (cursor + 3) := by
  obtain ⟨b, rest, rfl⟩ := List.exists_cons_of_ne_nil some'
  have one : Sets (fun buf => write buf (cursor + 3) [b]) (cursor + 3 + 0) := sets_write (by simp)
  exact one.then (overlay_storeFrom cursor rest 1)

theorem keeps_storeScanned (fits : got.length ≤ 4) (outside : x < cursor ∨ cursor + 4 ≤ x) :
    Keeps (fun buf => storeScanned buf cursor got) x := by
  have all (i : Nat) (fits : i + got.length ≤ 4) :
      Keeps (fun buf => (got.zipIdx i).foldl (fun m (c, j) => write m (cursor + 3 - j) [c]) buf) x := by
    induction got generalizing i with
    | nil => exact fun _ => rfl
    | cons b got ih =>
      simp only [List.length_cons] at fits
      refine Keeps.then (fun m => ?_) (ih (by omega) (i + 1) (by omega))
      show write m (cursor + 3 - i) [b] x = m x
      rw [write_singleton_apply, if_neg (by omega)]
  exact all 0 (by omega)

theorem debugParseWords_cons (token : List Char) (toks : List (List Char)) :
    debugParseWords errno start (token :: toks) cursor buf =
      if scansFour token then
        debugParseWords errno start toks (cursor + 4) (storeScanned buf cursor (Text.scanBytes 4 token).1)
      else (if (Text.scanBytes 4 token).2 then (errno.map Errno.code).getD 0 else ebade.code,
        storeScanned buf cursor (Text.scanBytes 4 token).1) := by
  rw [debugParseWords]
  by_cases four : scansFour token = true
  · have length : (Text.scanBytes 4 token).1.length = 4 := of_decide_eq_true four
    have going : (Text.scanBytes 4 token).2 = false := by
      rw [← Bool.not_eq_true]
      intro ended
      rw [Text.scanBytes_of_ended ended] at length
      cases length
    simp [four, length, going]
  · have le := Text.scanBytes_length_le 4 token
    have ne : (Text.scanBytes 4 token).1.length ≠ 4 := fun eq => four (decide_eq_true eq)
    simp only [four, if_neg (show ¬ false = true by simp), if_pos (show (Text.scanBytes 4 token).1.length < 4 by omega)]
    split <;> rfl

theorem overlay_debugParseWords (errno : Option Errno) (start : Nat) (toks : List (List Char)) (cursor : Nat) :
    Overlay fun buf => (debugParseWords errno start toks cursor buf).2 := by
  induction toks generalizing cursor with
  | nil => exact Overlay.id
  | cons token toks ih =>
    simp only [debugParseWords_cons]
    split
    · exact (overlay_storeScanned cursor _).then (ih (cursor + 4))
    · exact overlay_storeScanned cursor _

theorem sets_debugParseWords (some' : 0 < touchedWords toks) :
    Sets (fun buf => (debugParseWords errno start toks cursor buf).2) (cursor + 4 * touchedWords toks - 1) := by
  induction toks generalizing cursor with
  | nil => exact absurd some' (Nat.lt_irrefl 0)
  | cons token toks ih =>
    simp only [debugParseWords_cons]
    rw [touchedWords] at some' ⊢
    by_cases four : scansFour token = true
    · have bytes : (Text.scanBytes 4 token).1 ≠ [] := fun none => by
        rw [scansFour, none] at four
        exact absurd four (by decide)
      simp only [if_pos four]
      rcases Nat.eq_zero_or_pos (touchedWords toks) with none | more
      · rw [none]
        exact (sets_storeScanned bytes cursor).then (overlay_debugParseWords errno start toks (cursor + 4))
      · have later : Sets (fun buf => (debugParseWords errno start toks (cursor + 4) buf).2)
            (cursor + 4 + 4 * touchedWords toks - 1) := ih more
        rw [show cursor + 4 * (touchedWords toks + 1) - 1 = cursor + 4 + 4 * touchedWords toks - 1 by omega]
        exact later.after
    · simp only [if_neg four] at some' ⊢
      by_cases none : (Text.scanBytes 4 token).1 = []
      · rw [if_pos none] at some'
        exact absurd some' (Nat.lt_irrefl 0)
      · rw [if_neg none]
        exact sets_storeScanned none cursor

theorem keeps_debugParseWords (outside : x < cursor ∨ cursor + 4 * touchedWords toks ≤ x) :
    Keeps (fun buf => (debugParseWords errno start toks cursor buf).2) x := by
  induction toks generalizing cursor with
  | nil => exact fun _ => rfl
  | cons token toks ih =>
    have le := Text.scanBytes_length_le 4 token
    simp only [debugParseWords_cons]
    rw [touchedWords] at outside
    by_cases four : scansFour token = true
    · simp only [if_pos four] at outside ⊢
      exact (keeps_storeScanned le (by omega)).then (ih (by omega))
    · simp only [if_neg four] at outside ⊢
      by_cases none : (Text.scanBytes 4 token).1 = []
      · rw [none]
        exact fun _ => rfl
      · rw [if_neg none] at outside
        exact keeps_storeScanned le outside

theorem overlay_debugParseD (errno : Option Errno) (line : List Char) (start : Nat) :
    Overlay fun buf => (debugParseD errno line start buf).2 := by
  simp only [debugParseD]
  split
  · exact Overlay.id
  · exact overlay_debugParseWords errno start _ start

theorem sets_debugParseD (some' : 0 < touchedBytes line) :
    Sets (fun buf => (debugParseD errno line start buf).2) (start + touchedBytes line - 1) := by
  simp only [debugParseD]
  rw [touchedBytes] at some' ⊢
  split
  · rename_i none
    rw [none] at some'
    exact absurd some' (Nat.lt_irrefl 0)
  · rename_i eoa found
    simp only [found] at some' ⊢
    exact sets_debugParseWords (by omega)

theorem keeps_debugParseD (outside : x < start ∨ start + touchedBytes line ≤ x) :
    Keeps (fun buf => (debugParseD errno line start buf).2) x := by
  simp only [debugParseD]
  rw [touchedBytes] at outside
  split
  · exact fun _ => rfl
  · rename_i eoa found
    simp only [found] at outside
    exact keeps_debugParseWords outside

end

section
variable {errno : Option Errno} {mem : Mem} {script : List (Option Garbled)} {phys remaining cursor : Nat} {g : Garbled}

theorem replay_retry (more : 0 < remaining) (breaks : garbledIn [some g] (dIngress remaining) = some g) (buf : Mem) :
    replay errno mem (some g :: script) phys remaining cursor buf = replay errno mem script phys remaining
      (cursor + 4 * g.words) (debugParseD errno g.line (cursor + 4 * g.words)
        (write buf cursor (ByteMem.read mem phys (4 * g.words)))).2 := by
  rw [replay, if_neg (by omega), breaks]

theorem overlay_replay (errno : Option Errno) (mem : Mem) (script : List (Option Garbled)) (phys remaining cursor : Nat) :
    Overlay fun buf => replay errno mem script phys remaining cursor buf := by
  induction script generalizing phys remaining cursor with
  | nil => exact overlay_write cursor _
  | cons answer script ih =>
    by_cases none : remaining = 0
    · simp only [none, replay_zero]
      exact Overlay.id
    · cases breaks : garbledIn [answer] (dIngress remaining) with
      | some g =>
        obtain ⟨_, shape, _⟩ := garbledIn_some breaks
        cases shape
        simp only [replay_retry (by omega) breaks]
        exact ((overlay_write _ _).then (overlay_debugParseD _ _ _)).then (ih _ _ _)
      | none =>
        simp only [replay, if_neg none, breaks]
        exact (overlay_write _ _).then (ih _ _ _)

/-- The last byte that is left to read is stored where it belongs, or further on. -/
theorem replay_reaches (script : List (Option Garbled)) (phys cursor : Nat) (more : 0 < remaining) :
    ∃ x, cursor + remaining ≤ x + 1 ∧ Sets (fun buf => replay errno mem script phys remaining cursor buf) x := by
  induction script generalizing phys remaining cursor with
  | nil =>
    refine ⟨cursor + (remaining - 1), by omega, sets_write ?_⟩
    rw [read_length, dumpWords]
    omega
  | cons answer script ih =>
    cases breaks : garbledIn [answer] (dIngress remaining) with
    | some g =>
      obtain ⟨_, shape, _⟩ := garbledIn_some breaks
      cases shape
      obtain ⟨x, far, sets⟩ := ih phys (cursor + 4 * g.words) more
      simp only [replay_retry more breaks]
      exact ⟨x, by omega, sets.after (f := fun buf => _)⟩
    | none =>
      obtain ⟨le, small, pos, _⟩ := dIngress_le remaining
      have covers : dIngress remaining ≤ 4 * dumpWords (dIngress remaining) := by
        rw [dumpWords]
        omega
      simp only [replay, if_neg (show ¬ remaining = 0 by omega), breaks]
      rcases Nat.eq_zero_or_pos (remaining - dIngress remaining) with last | left
      · refine ⟨cursor + (remaining - 1), by omega, Sets.then (sets_write ?_) (overlay_replay _ _ _ _ _ _)⟩
        rw [read_length]
        omega
      · obtain ⟨x, far, sets⟩ := ih (phys + dIngress remaining) (cursor + 4 * dumpWords (dIngress remaining)) left
        exact ⟨x, by omega, sets.after (f := fun buf => _)⟩

theorem replay_harmless (aligned : remaining % 4 = 0) (harmless : Harmless script remaining) (buf : Mem) :
    replay errno mem script phys remaining cursor buf = write buf cursor (ByteMem.read mem phys remaining) := by
  induction script generalizing phys remaining cursor buf with
  | nil =>
    have whole : 4 * dumpWords remaining = remaining := by
      rw [dumpWords]
      omega
    rw [replay, whole]
  | cons answer script ih =>
    by_cases none : remaining = 0
    · subst none
      rw [replay_zero, read_zero, write_nil]
    · rw [Harmless, or_iff_right none] at harmless
      cases breaks : garbledIn [answer] (dIngress remaining) with
      | some g =>
        obtain ⟨_, shape, _⟩ := garbledIn_some breaks
        cases shape
        rw [breaks] at harmless
        obtain ⟨first, fits, rest⟩ := harmless
        rw [replay_retry (by omega) breaks, first, Nat.mul_zero, Nat.add_zero, read_zero, write_nil, ih aligned rest]
        refine write_overwrites fun x outside => keeps_debugParseD ?_ buf
        rw [read_length] at outside
        omega
      | none =>
        obtain ⟨le, small, pos, whole⟩ := dIngress_le remaining
        rw [breaks] at harmless
        have four : dIngress remaining % 4 = 0 := by
          rcases Nat.lt_or_ge (dIngress remaining) remaining with less | all
          · exact whole less
          · rw [show dIngress remaining = remaining by omega]
            exact aligned
        have words : 4 * dumpWords (dIngress remaining) = dIngress remaining := by
          rw [dumpWords]
          omega
        have sum : remaining = dIngress remaining + (remaining - dIngress remaining) := by omega
        have append := write_append buf cursor (ByteMem.read mem phys (dIngress remaining))
          (ByteMem.read mem (phys + dIngress remaining) (remaining - dIngress remaining))
        rw [read_length, ← read_add, ← sum] at append
        simp only [replay, if_neg none, breaks, words]
        rw [ih (by omega) harmless, append]

/-- Otherwise a byte behind what was left to read is stored. -/
theorem replay_harmful (harmful : ¬ Harmless script remaining) :
    ∃ x, cursor + remaining ≤ x ∧ Sets (fun buf => replay errno mem script phys remaining cursor buf) x := by
  induction script generalizing phys remaining cursor with
  | nil => exact absurd trivial harmful
  | cons answer script ih =>
    rw [Harmless, not_or] at harmful
    obtain ⟨some', harmful⟩ := harmful
    cases breaks : garbledIn [answer] (dIngress remaining) with
    | some g =>
      obtain ⟨_, shape, _⟩ := garbledIn_some breaks
      cases shape
      rw [breaks] at harmful
      simp only [replay_retry (Nat.pos_of_ne_zero some') breaks]
      rcases Nat.eq_zero_or_pos g.words with first | words
      · by_cases fits : touchedBytes g.line ≤ remaining
        · obtain ⟨x, far, sets⟩ := @ih phys remaining (cursor + 4 * g.words) fun rest => harmful ⟨first, fits, rest⟩
          exact ⟨x, by omega, sets.after (f := fun buf => _)⟩
        · refine ⟨cursor + 4 * g.words + touchedBytes g.line - 1, by omega, ?_⟩
          exact ((sets_debugParseD (by omega)).after (f := fun buf => _)).then (overlay_replay _ _ _ _ _ _)
      · obtain ⟨x, far, sets⟩ := @replay_reaches errno mem remaining script phys (cursor + 4 * g.words)
          (Nat.pos_of_ne_zero some')
        exact ⟨x, by omega, sets.after (f := fun buf => _)⟩
    | none =>
      rw [breaks] at harmful
      obtain ⟨le, _⟩ := dIngress_le remaining
      have covers : dIngress remaining ≤ 4 * dumpWords (dIngress remaining) := by
        rw [dumpWords]
        omega
      obtain ⟨x, far, sets⟩ := @ih (phys + dIngress remaining) (remaining - dIngress remaining)
        (cursor + 4 * dumpWords (dIngress remaining)) harmful
      simp only [replay, if_neg some', breaks]
      exact ⟨x, by omega, sets.after (f := fun buf => _)⟩

end

section
variable {τ : Type} {react : τ → Byte → τ × List Byte} {mem : Mem} {Ready Stuck : List (Option Garbled) → τ → Prop}
variable {script : List (Option Garbled)} {blksize fuel len : Nat} {errno : Option Errno} {t t₀ : τ} {lead lead₀ : List Byte}
variable {phys : Word} {s s₀ : Stream (Serial τ)}

/-- A read that is answered as it should be after retries leaves in the buffer what one without any does, and nothing
behind it. -/
def RetriesUnseen (len : Nat) (read clean : Mem → EStateM.Result Stop (Stream (Serial τ)) (Nat × Mem)) : Prop :=
  ∀ buf b b₀ s s₀, read buf = .ok (len, b) s → clean buf = .ok (len, b₀) s₀ → b = b₀ ∧ ∀ x, len ≤ x → b x = buf x

/-- A read that is answered in the end leaves what an undisturbed one does exactly if the answers that had to be
repeated were harmless: given up in their first line, with what that had stored still inside the range. -/
theorem debugRead_retries_iff (shell : DumpShell react mem Ready Stuck) (blk : 0 < blksize)
    (enough : 2 ^ 16 + script.length + len < fuel) (rejects : Rejects errno script) (ready : Ready script t)
    (ready₀ : Ready [] t₀) (prompt : lead = [] ∨ lead = debugShell) (prompt₀ : lead₀ = [] ∨ lead₀ = debugShell)
    (least : 4 ≤ len) (aligned : len % 4 = 0) (inRange : phys.toNat + len ≤ 2 ^ 32) (start : At errno t lead s)
    (start₀ : At errno t₀ lead₀ s₀) : RetriesUnseen len
      (fun buf => (debugRead (serialTty react blksize) fuel phys buf len).run s)
      (fun buf => (debugRead (serialTty react blksize) fuel phys buf len).run s₀) ↔ Harmless script len := by
  have runs (buf : Mem) : ∃ s', (debugRead (serialTty react blksize) fuel phys buf len).run s =
      .ok (len, replay errno mem script phys.toNat len 0 buf) s' := by
    obtain ⟨_, s', run, rfl, _⟩ := debugRead_replay shell blk enough rejects ready prompt least inRange buf s start
    exact ⟨s', run⟩
  have cleanRuns (buf : Mem) : ∃ s', (debugRead (serialTty react blksize) fuel phys buf len).run s₀ =
      .ok (len, write buf 0 (ByteMem.read mem phys.toNat len)) s' := by
    have rejects₀ : Rejects errno [] := fun _ never => nomatch never
    have enough₀ : 2 ^ 16 + ([] : List (Option Garbled)).length + len < fuel := by
      rw [List.length_nil]
      omega
    obtain ⟨_, s', run, rfl, _⟩ := debugRead_replay shell blk enough₀ rejects₀ ready₀ prompt₀ least inRange buf s₀ start₀
    have harmless := @replay_harmless errno mem [] phys.toNat len 0 aligned trivial buf
    rw [harmless] at run
    exact ⟨s', run⟩
  constructor
  · intro unseen
    by_contra harmful
    obtain ⟨x, far, sets⟩ := @replay_harmful errno mem script phys.toNat len 0 harmful
    refine sets.not_keeps fun buf => ?_
    obtain ⟨s', run⟩ := runs buf
    obtain ⟨s₀', run₀⟩ := cleanRuns buf
    exact (unseen buf _ _ s' s₀' run run₀).2 x (by omega)
  · intro harmless buf b b₀ s' s₀' run run₀
    obtain ⟨s₁, first⟩ := runs buf
    obtain ⟨s₂, second⟩ := cleanRuns buf
    have same := run.symm.trans first
    have same₀ := run₀.symm.trans second
    injection same with value
    injection same₀ with value₀
    have result : b = write buf 0 (ByteMem.read mem phys.toNat len) :=
      (congrArg Prod.snd value).trans (replay_harmless aligned harmless buf)
    rw [result]
    refine ⟨(congrArg Prod.snd value₀).symm, fun x far => write_above ?_⟩
    rw [read_length]
    omega

end

/-- A line of noise. -/
def noiseLine : List Char := "\u0007xyz\r\n".toList

theorem noiseLine_text : TextLine debugLineLen noiseLine := by
  refine ⟨⟨"\u0007xyz\r".toList, rfl, by decide⟩, fun c mem => ?_, fun c mem => ?_, by decide⟩
  · exact of_decide_eq_true (List.all_eq_true.mp (show noiseLine.all (fun c => c.toNat ≠ 0) = true from rfl) c mem)
  · exact of_decide_eq_true (List.all_eq_true.mp (show noiseLine.all (fun c => c.toNat < 256) = true from rfl) c mem)

theorem noiseLine_rejects (words : Nat) : Rejects none [some ⟨words, noiseLine⟩] := by
  intro g mem
  obtain rfl := Option.some.inj (List.mem_singleton.mp mem)
  have rejected : (debugParseD none noiseLine 0 fun _ => 0).1 < 0 := by decide
  exact ⟨noiseLine_text, rejected⟩

/-- A line of noise before the first answer. -/
theorem debugRead_retries_first : RetriesUnseen 8
    (fun buf => (debugRead (serialTty (DebugPeer.react countingMem) 1024) (2 ^ 17) 0x1000 buf 8).run
      (freshStream ⟨[some ⟨0, noiseLine⟩], [], false⟩))
    (fun buf => (debugRead (serialTty (DebugPeer.react countingMem) 1024) (2 ^ 17) 0x1000 buf 8).run
      (freshStream ⟨[], [], false⟩)) :=
  (debugRead_retries_iff (debugPeer_shell countingMem) (by decide) (by decide) (noiseLine_rejects 0) rfl rfl (Or.inl rfl)
    (Or.inl rfl) (by decide) (by decide) (by decide) (freshStream_at _) (freshStream_at _)).mpr
    (Or.inr ⟨rfl, by decide, trivial⟩)

/-- After a word has been taken the repeated answer is stored four bytes too far on. -/
theorem debugRead_retry_shifted : ¬ RetriesUnseen 8
    (fun buf => (debugRead (serialTty (DebugPeer.react countingMem) 1024) (2 ^ 17) 0x1000 buf 8).run
      (freshStream ⟨[some ⟨1, noiseLine⟩], [], false⟩))
    (fun buf => (debugRead (serialTty (DebugPeer.react countingMem) 1024) (2 ^ 17) 0x1000 buf 8).run
      (freshStream ⟨[], [], false⟩)) := by
  intro unseen
  have inRange : (0x1000 : Word).toNat + 8 ≤ 2 ^ 32 := by decide
  have rejects : Rejects none [] := fun _ never => nomatch never
  obtain ⟨_, s, run, rfl, _⟩ := debugRead_replay (debugPeer_shell countingMem) (by decide : 0 < 1024)
    (by decide : 2 ^ 16 + 1 + 8 < 2 ^ 17) (noiseLine_rejects 1) rfl (Or.inl rfl) (by decide) inRange (fun _ => 0xff) _
    (freshStream_at _)
  obtain ⟨_, s₀, run₀, rfl, _⟩ := debugRead_replay (debugPeer_shell countingMem) (by decide : 0 < 1024)
    (by decide : 2 ^ 16 + 0 + 8 < 2 ^ 17) rejects rfl (Or.inl rfl) (by decide) inRange (fun _ => 0xff) _ (freshStream_at _)
  exact absurd ((unseen _ _ _ s s₀ run run₀).2 8 (by decide)) (by decide)

end Culvert
