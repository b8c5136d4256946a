import Mathlib

/-- What `argp` hands to the parser of a command: a word, with its number and the words after it,
or the end of the words. -/
inductive ArgpKey where
  | arg (word : String) (argNum : Nat) (rest : List String)
  | finish (argNum : Nat)

namespace ArgpKey
variable {α : Type}

/-- The parser is called for each word in order, and then for the end. Its error is the message of
`argp_error`, which exits. -/
def parseFrom (parseOpt : ArgpKey → α → Except String α) : Nat → List String → α → Except String α
  | argNum, [], arguments => parseOpt (.finish argNum) arguments
  | argNum, word :: rest, arguments => do
    parseFrom parseOpt (argNum + 1) rest (← parseOpt (.arg word argNum rest) arguments)

def parse (parseOpt : ArgpKey → α → Except String α) (words : List String) (arguments : α) : Except String α :=
  parseFrom parseOpt 0 words arguments

/-- What each word keeps holds at the end. -/
theorem parseFrom_invariant {parseOpt : ArgpKey → α → Except String α} (inv : Nat → α → Prop)
    (word : ∀ arg argNum rest a a', inv argNum a → parseOpt (.arg arg argNum rest) a = .ok a' → inv (argNum + 1) a')
    {words : List String} {argNum : Nat} {a result : α} (start : inv argNum a)
    (run : parseFrom parseOpt argNum words a = .ok result) :
    ∃ last, inv (argNum + words.length) last ∧ parseOpt (.finish (argNum + words.length)) last = .ok result := by
  induction words generalizing argNum a with
  | nil => exact ⟨a, start, run⟩
  | cons arg rest ih =>
    rw [parseFrom] at run
    cases first : parseOpt (.arg arg argNum rest) a with
    | error e =>
      rw [first] at run
      cases run
    | ok a' =>
      rw [first] at run
      obtain ⟨last, inv', finish⟩ := ih (word arg argNum rest a a' start first) run
      have count : argNum + 1 + rest.length = argNum + (arg :: rest).length := by
        rw [List.length_cons]
        omega
      rw [count] at inv' finish
      exact ⟨last, inv', finish⟩

end ArgpKey
