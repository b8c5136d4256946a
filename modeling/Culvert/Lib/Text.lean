import Mathlib

/-! Texts are lists of characters, as the C library reads them in the C locale. -/

namespace Text

def isSpace (c : Char) : Bool := c = ' ' || 9 ≤ c.toNat && c.toNat ≤ 13

def skipSpace (text : List Char) : List Char := text.dropWhile isSpace

/-- What `strcmp` sees of a buffer. -/
def cString (buf : List Char) : List Char := buf.takeWhile (·.toNat ≠ 0)

/-- `scanf("%<width>s")`: the word read, unless the input ends first, and what is left. -/
def scanWord (width : Nat) (input : List Char) : Option (List Char) × List Char :=
  match skipSpace input with
  | [] => (none, [])
  | text =>
    let word := (text.takeWhile fun c => !isSpace c).take width
    (some word, text.drop word.length)

/-- The value of a digit in any base up to 36. -/
def digit (c : Char) : Option Nat :=
  if c.isDigit then some (c.toNat - '0'.toNat)
  else if c.isLower then some (c.toNat - 'a'.toNat + 10)
  else if c.isUpper then some (c.toNat - 'A'.toNat + 10)
  else none

def digitIn (base : Nat) (c : Char) : Option Nat := (digit c).filter (· < base)

/-- The number that the leading digits of `text` stand for, and what follows them. -/
def digits (base : Nat) (acc : Nat) : List Char → Nat × List Char
  | [] => (acc, [])
  | c :: text =>
    match digitIn base c with
    | some d => digits base (acc * base + d) text
    | none => (acc, c :: text)

/-- The base a number is written in, where `strtoul` is left to find out. A prefix counts when a
digit follows it. -/
def prefixed (base : Nat) (text : List Char) : Nat × List Char :=
  match text with
  | '0' :: x :: c :: rest =>
    if (base = 0 ∨ base = 16) ∧ (x = 'x' ∨ x = 'X') ∧ (digitIn 16 c).isSome then (16, c :: rest)
    else (if base = 0 then 8 else base, text)
  | '0' :: _ => (if base = 0 then 8 else base, text)
  | _ => (if base = 0 then 10 else base, text)

/-- `strtoul` with a 64-bit result: the value and the rest of the text, which is the whole text
where there is no number. -/
def strtoul (base : Nat) (text : List Char) : Nat × List Char :=
  let signed := skipSpace text
  let negative := signed.head? = some '-'
  let unsigned := if negative ∨ signed.head? = some '+' then signed.tail else signed
  let (base, number) := prefixed base unsigned
  let (value, rest) := digits base 0 number
  if rest.length = number.length then (0, text)
  else if value ≥ 2 ^ 64 then (2 ^ 64 - 1, rest)
  else if negative then ((2 ^ 64 - value) % 2 ^ 64, rest)
  else (value, rest)

/-- Whether `strtoul` sets `errno` to `ERANGE`. -/
def strtoulRange (base : Nat) (text : List Char) : Bool :=
  let signed := skipSpace text
  let unsigned := if signed.head? = some '-' ∨ signed.head? = some '+' then signed.tail else signed
  let (base, number) := prefixed base unsigned
  (digits base 0 number).1 ≥ 2 ^ 64

example : strtoul 0 "0x1f".toList = (31, []) := by decide
example : strtoul 0 " -010;".toList = (2 ^ 64 - 8, [';']) := by decide
example : scanWord 7 "\n YES please".toList = (some "YES".toList, " please".toList) := by decide

end Text
