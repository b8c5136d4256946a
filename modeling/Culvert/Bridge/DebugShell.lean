import Culvert.Lib.Scan

/-! The command lines of the debug shell: a letter, and numbers in hexadecimal with a space before each. -/

namespace Culvert

def readArgs : Nat → List Char → Option (List Nat)
  | _, [] => some []
  | fuel + 1, ' ' :: text =>
    let (n, rest) := Text.digits 16 0 text
    if rest.length = text.length then none else (readArgs fuel rest).map (n :: ·)
  | _, _ => none

def readCommand : List Char → Option (Char × List Nat)
  | [] => none
  | c :: text => (readArgs text.length text).map (c, ·)

def commandArgs (args : List Nat) : List Char := args.flatMap fun n => ' ' :: Text.hex n

/-- The bytes up to a carriage return, and those behind it. -/
def cutLine (stream : List Byte) : Option (List Char × List Byte) :=
  match stream.dropWhile (· ≠ 13) with
  | [] => none
  | _ :: rest => some (Text.ofBytes (stream.takeWhile (· ≠ 13)), rest)

section
variable {args : List Nat} {c : Char} {text : List Char} {rest : List Byte}

theorem readArgs_commandArgs {fuel : Nat} (enough : (commandArgs args).length ≤ fuel) :
    readArgs fuel (commandArgs args) = some args := by
  induction args generalizing fuel with
  | nil => cases fuel <;> rfl
  | cons n args ih =>
    have shape : commandArgs (n :: args) = ' ' :: (Text.hex n ++ commandArgs args) := by simp [commandArgs]
    have stop (x : Char) (mem : x ∈ (commandArgs args).head?) : Text.isHex x = false := by
      cases args with
      | nil => cases mem
      | cons _ _ =>
        cases mem
        rfl
    rw [shape] at enough ⊢
    obtain ⟨fuel, rfl⟩ : ∃ k, fuel = k + 1 := ⟨fuel - 1, by simp only [List.length_cons] at enough; omega⟩
    have long : 0 < (Text.hex n).length := List.length_pos_iff.mpr (Text.hex_ne_nil n)
    simp only [List.length_cons, List.length_append] at enough
    rw [readArgs, Text.digits_hex n stop]
    simp only [List.length_append]
    rw [if_neg (by omega), ih (by omega), Option.map_some]

theorem readCommand_commandArgs (c : Char) (args : List Nat) : readCommand (c :: commandArgs args) = some (c, args) := by
  rw [readCommand, readArgs_commandArgs (Nat.le_refl _), Option.map_some]

theorem narrow_commandArgs (args : List Nat) : Text.Narrow (commandArgs args) := by
  intro x mem
  obtain ⟨n, _, mem⟩ := List.mem_flatMap.mp mem
  rcases List.mem_cons.mp mem with rfl | digit
  · decide
  · exact Text.narrow_hex n x digit

theorem return_not_mem_commandArgs (args : List Nat) : '\r' ∉ commandArgs args := by
  intro mem
  obtain ⟨n, _, mem⟩ := List.mem_flatMap.mp mem
  rcases List.mem_cons.mp mem with never | digit
  · exact absurd never (by decide)
  · exact absurd (Text.isHex_of_mem_hex digit) (by decide)

theorem cutLine_append (narrow : Text.Narrow text) (fresh : '\r' ∉ text) :
    cutLine (Text.toBytes text ++ 13 :: rest) = some (text, rest) := by
  have none : (13 : Byte) ∉ Text.toBytes text := Text.not_mem_toBytes (c := '\r') narrow (by decide) fresh
  have all (b : Byte) (mem : b ∈ Text.toBytes text) : decide (b ≠ 13) = true :=
    decide_eq_true fun eq => none (eq ▸ mem)
  rw [cutLine, List.dropWhile_append_of_pos all, List.takeWhile_append_of_pos all]
  simp [Text.ofBytes_toBytes narrow]

theorem cutLine_command (small : c.toNat < 256) (letter : c ≠ '\r') :
    cutLine (Text.toBytes (c :: commandArgs args) ++ 13 :: rest) = some (c :: commandArgs args, rest) := by
  refine cutLine_append (fun x mem => ?_) fun mem => ?_
  · rcases List.mem_cons.mp mem with rfl | arg
    · exact small
    · exact narrow_commandArgs args x arg
  · rcases List.mem_cons.mp mem with same | arg
    · exact letter same.symm
    · exact return_not_mem_commandArgs args arg

end

end Culvert
