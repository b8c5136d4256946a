import Culvert.Bridge.Debug

namespace Culvert

/-- Eight hexadecimal digits. -/
def DataWord (token : List Char) : Prop := token.length = 8 ∧ ∀ c ∈ token, Text.isHex c

def dataWord (token : List Char) : Word := BitVec.ofNat 32 (Text.digits 16 0 token).1

/-- The words in memory order. -/
def dataBytes (words : List (List Char)) : List Byte := words.flatMap fun w => (dataWord w).bytes

/-- What may come directly after the last word of a line. -/
def lineEnds : List (List Char) := [[], ['\r'], ['\n'], ['\r', '\n']]

/-- The words of a line of an answer to `d`: an address, a colon, and at least one word, separated by spaces. -/
def DataLine (line : List Char) (words : List (List Char)) : Prop :=
  (∀ w ∈ words, DataWord w) ∧ ∃ address text first last eol, line = address ++ ':' :: text ∧ ':' ∉ address ∧
    words = first ++ [last] ∧ eol ∈ lineEnds ∧ Text.tokens ' ' text = first ++ [last ++ eol]

/-- `sscanf` gets four bytes from the token. -/
def scansFour (token : List Char) : Bool := (Text.scanBytes 4 token).1.length = 4

section
variable {word rest : List Char} {token line : List Char} {words toks : List (List Char)}
variable {errno : Option Errno} {start cursor : Nat} {buf : Mem}

theorem ofBytes_toNat (b₀ b₁ b₂ b₃ : Byte) : (Word.ofBytes b₀ b₁ b₂ b₃).toNat =
    b₀.toNat + 256 * b₁.toNat + 65536 * b₂.toNat + 16777216 * b₃.toNat := by
  have := b₀.isLt
  have := b₁.isLt
  have := b₂.isLt
  have := b₃.isLt
  have low : (b₁ ++ b₀ : BitVec 16).toNat = b₁.toNat <<< 8 + b₀.toNat := by
    rw [BitVec.toNat_append, Nat.shiftLeft_add_eq_or_of_lt b₀.isLt]
  simp only [Word.ofBytes, BitVec.toNat_append]
  rw [← Nat.shiftLeft_add_eq_or_of_lt b₂.isLt, ← Nat.shiftLeft_add_eq_or_of_lt b₁.isLt,
    ← Nat.shiftLeft_add_eq_or_of_lt b₀.isLt]
  simp only [Nat.shiftLeft_eq]
  omega

/-- The bytes of a word are got the highest first, and what follows the word is not looked at. -/
theorem scanBytes_dataWord (data : DataWord word) :
    Text.scanBytes 4 (word ++ rest) = ((dataWord word).bytes.reverse, false) := by
  obtain ⟨eight, hex⟩ := data
  match word, eight with
  | [c₇, c₆, c₅, c₄, c₃, c₂, c₁, c₀], _ =>
    have digit (c : Char) (mem : c ∈ [c₇, c₆, c₅, c₄, c₃, c₂, c₁, c₀]) : ∃ d < 16, Text.digitIn 16 c = some d :=
      Text.isHex_iff.mp (hex c mem)
    obtain ⟨d₇, _, is₇⟩ := digit c₇ (by simp)
    obtain ⟨d₆, _, is₆⟩ := digit c₆ (by simp)
    obtain ⟨d₅, _, is₅⟩ := digit c₅ (by simp)
    obtain ⟨d₄, _, is₄⟩ := digit c₄ (by simp)
    obtain ⟨d₃, _, is₃⟩ := digit c₃ (by simp)
    obtain ⟨d₂, _, is₂⟩ := digit c₂ (by simp)
    obtain ⟨d₁, _, is₁⟩ := digit c₁ (by simp)
    obtain ⟨d₀, _, is₀⟩ := digit c₀ (by simp)
    have value : dataWord [c₇, c₆, c₅, c₄, c₃, c₂, c₁, c₀] = Word.ofBytes (BitVec.ofNat 8 (16 * d₁ + d₀))
        (BitVec.ofNat 8 (16 * d₃ + d₂)) (BitVec.ofNat 8 (16 * d₅ + d₄)) (BitVec.ofNat 8 (16 * d₇ + d₆)) := by
      apply BitVec.eq_of_toNat_eq
      rw [ofBytes_toNat, dataWord]
      simp only [Text.digits, is₇, is₆, is₅, is₄, is₃, is₂, is₁, is₀, BitVec.toNat_ofNat]
      omega
    rw [value, Word.bytes_ofBytes]
    simp only [List.cons_append, List.nil_append, Text.scanBytes, Text.scanHhx_pair is₇ is₆, Text.scanHhx_pair is₅ is₄,
      Text.scanHhx_pair is₃ is₂, Text.scanHhx_pair is₁ is₀]
    rfl

theorem storeScanned_four {got : List Byte} (four : got.length = 4) :
    storeScanned buf cursor got = ByteMem.write buf cursor got.reverse := by
  match got, four with
  | [b₃, b₂, b₁, b₀], _ =>
    funext x
    simp only [storeScanned, List.zipIdx_cons, List.zipIdx_nil, List.foldl_cons, List.foldl_nil, List.reverse_cons,
      List.reverse_nil, List.nil_append, List.cons_append]
    rw [ByteMem.write_cons buf cursor b₀ [b₁, b₂, b₃], ByteMem.write_cons _ (cursor + 1) b₁ [b₂, b₃],
      ByteMem.write_cons _ (cursor + 1 + 1) b₂ [b₃]]
    simp only [ByteMem.write_singleton_apply]
    grind

/-- What the words of a line come to: the first that `sscanf` gets less than four bytes from decides. -/
theorem debugParseWords_rc (le : start ≤ cursor) : (debugParseWords errno start toks cursor buf).1 =
    match toks.find? (fun t => !scansFour t) with
    | none => ((cursor + 4 * toks.length - start : Nat) : Int)
    | some token => if token.all Text.isSpace then (errno.map Errno.code).getD 0 else ebade.code := by
  induction toks generalizing cursor buf with
  | nil => rfl
  | cons token toks ih =>
    rw [debugParseWords]
    by_cases four : scansFour token = true
    · have length : (Text.scanBytes 4 token).1.length = 4 := of_decide_eq_true four
      have going : (Text.scanBytes 4 token).2 = false := by
        rw [← Bool.not_eq_true]
        intro ended
        rw [Text.scanBytes_of_ended ended] at length
        cases length
      simp only [going, length, Bool.false_eq_true, if_false, Nat.lt_irrefl]
      rw [ih (by omega), List.find?_cons_of_neg (by simp [four]), List.length_cons]
      split <;> grind
    · have short : (Text.scanBytes 4 token).1.length < 4 := by
        have le := Text.scanBytes_length_le 4 token
        have ne : (Text.scanBytes 4 token).1.length ≠ 4 := fun eq => four (decide_eq_true eq)
        omega
      rw [List.find?_cons_of_pos (by simp [four])]
      simp only [Text.scanBytes_ended, short, if_true]
      split <;> rfl

theorem debugParseWords_word (data : DataWord word) : debugParseWords errno start ((word ++ rest) :: toks) cursor buf =
    debugParseWords errno start toks (cursor + 4) (ByteMem.write buf cursor (dataWord word).bytes) := by
  rw [debugParseWords, scanBytes_dataWord data]
  simp only [Bool.false_eq_true, if_false, List.length_reverse, Word.bytes_length, Nat.lt_irrefl]
  rw [storeScanned_four (by simp), List.reverse_reverse]

theorem debugParseWords_data (all : ∀ w ∈ words, DataWord w) :
    debugParseWords errno start (words ++ toks) cursor buf =
      debugParseWords errno start toks (cursor + 4 * words.length) (ByteMem.write buf cursor (dataBytes words)) := by
  induction words generalizing cursor buf with
  | nil => simp [dataBytes]
  | cons word words ih =>
    have step := @debugParseWords_word word [] (words ++ toks) errno start cursor buf (all word List.mem_cons_self)
    rw [List.append_nil] at step
    rw [List.cons_append, step, ih fun w mem => all w (List.mem_cons_of_mem word mem)]
    have bytes : dataBytes (word :: words) = (dataWord word).bytes ++ dataBytes words := rfl
    rw [bytes, ByteMem.write_append, Word.bytes_length, List.length_cons]
    congr 1
    omega

/-- A well-formed line stores all of its words. -/
theorem debugParseD_data (data : DataLine line words) :
    debugParseD errno line start buf = (4 * (words.length : Int), ByteMem.write buf start (dataBytes words)) := by
  obtain ⟨all, address, text, first, last, eol, rfl, fresh, rfl, _, toks⟩ := data
  have front (w : List Char) (mem : w ∈ first) : DataWord w := all w (List.mem_append_left [last] mem)
  have bytes : dataBytes (first ++ [last]) = dataBytes first ++ (dataWord last).bytes := by simp [dataBytes]
  have end' : start + 4 * first.length = start + (dataBytes first).length := by
    simp [dataBytes, Nat.mul_comm]
  rw [debugParseD, Text.strchr_append _ fresh]
  simp only [List.tail_cons]
  rw [toks, debugParseWords_data front, debugParseWords_word (all last (by simp)), debugParseWords, bytes,
    ByteMem.write_append, end']
  congr 1
  simp only [dataBytes, List.length_flatMap, Word.bytes_length, List.map_const', List.sum_replicate, smul_eq_mul,
    List.length_append, List.length_singleton]
  omega

theorem dataLine_nonempty (data : DataLine line words) : words ≠ [] := by
  obtain ⟨_, _, _, first, last, _, _, _, rfl, _⟩ := data
  simp

/-- `debug_parse_d` tells the well-formed lines from all others, and stores their words. -/
def ParsesOnlyData (errno : Option Errno) (line : List Char) (start : Nat) (buf : Mem) : Prop :=
  (0 ≤ (debugParseD errno line start buf).1 ↔ ∃ words, DataLine line words) ∧
  ∀ words, DataLine line words →
    debugParseD errno line start buf = (4 * (words.length : Int), ByteMem.write buf start (dataBytes words))

/-- The line has no colon, is well-formed, or has a word that `sscanf` does not get four bytes from, the first of
which is not blank, unless `errno` has been set before. -/
def LineJudged (errno : Option Errno) (line : List Char) : Prop :=
  ':' ∉ line ∨ (∃ words, DataLine line words) ∨
  ∃ address text token, line = address ++ ':' :: text ∧ ':' ∉ address ∧
    (Text.tokens ' ' text).find? (fun t => !scansFour t) = some token ∧ (token.all Text.isSpace → errno ≠ none)

/-- Every line is judged rightly unless `sscanf` takes all the words of one that is not well-formed, or gives up at a
blank one while `errno` is clear. -/
theorem debugParseD_onlyData_iff (errno : Option Errno) (line : List Char) (start : Nat) (buf : Mem) :
    ParsesOnlyData errno line start buf ↔ LineJudged errno line := by
  have stores (words : List (List Char)) (data : DataLine line words) := @debugParseD_data line words errno start buf data
  have good (data : ∃ words, DataLine line words) : 0 ≤ (debugParseD errno line start buf).1 := by
    obtain ⟨words, data⟩ := data
    rw [stores words data]
    omega
  cases found : Text.strchr line ':' with
  | none =>
    have fresh : ':' ∉ line := Text.strchr_none.mp found
    refine ⟨fun _ => Or.inl fresh, fun _ => ⟨⟨fun nonneg => ?_, good⟩, stores⟩⟩
    rw [debugParseD, found] at nonneg
    have negative : ¬ 0 ≤ ebade.code := by decide
    exact absurd nonneg negative
  | some eoa =>
    obtain ⟨address, text, rfl, fresh, rfl⟩ := Text.strchr_some found
    have rc := @debugParseWords_rc (Text.tokens ' ' text) errno start start buf (Nat.le_refl _)
    have same : debugParseD errno (address ++ ':' :: text) start buf =
        debugParseWords errno start (Text.tokens ' ' text) start buf := by
      rw [debugParseD, found]
      rfl
    have unique {address' text' : List Char} (eq : address ++ ':' :: text = address' ++ ':' :: text')
        (fresh' : ':' ∉ address') : text' = text := by
      have tail := Text.strchr_append text' fresh'
      rw [← eq, found] at tail
      exact (List.cons.inj (Option.some.inj tail)).2.symm
    rw [← same] at rc
    constructor
    · rintro ⟨only, _⟩
      cases first : (Text.tokens ' ' text).find? (fun t => !scansFour t) with
      | none =>
        rw [first] at rc
        exact Or.inr (Or.inl (only.mp (by rw [rc]; exact Int.natCast_nonneg _)))
      | some token =>
        rw [first] at rc
        by_cases blank : token.all Text.isSpace ∧ errno = none
        · simp only [blank.1, blank.2, if_true, Option.map_none, Option.getD_none] at rc
          exact Or.inr (Or.inl (only.mp (by rw [blank.2, rc])))
        · exact Or.inr (Or.inr ⟨address, text, token, rfl, fresh, first, fun all none => blank ⟨all, none⟩⟩)
    · intro judged
      refine ⟨⟨fun nonneg => ?_, good⟩, stores⟩
      rcases judged with none | data | ⟨address', text', token, eq, fresh', first, blank⟩
      · exact absurd (by simp) none
      · exact data
      · rw [unique eq fresh'] at first
        rw [first] at rc
        by_cases all : token.all Text.isSpace = true
        · obtain ⟨e, rfl⟩ := Option.ne_none_iff_exists'.mp (blank all)
          simp only [all, if_true, Option.map_some, Option.getD_some] at rc
          have := e.code_neg
          omega
        · simp only [all, if_false, Bool.false_eq_true] at rc
          rw [rc] at nonneg
          exact absurd nonneg (by decide)

/-- No word of a well-formed line is longer than eight digits and a line end. -/
theorem dataLine_short {address text token : List Char} (data : DataLine (address ++ ':' :: text) words)
    (fresh : ':' ∉ address) (mem : token ∈ Text.tokens ' ' text) : token.length ≤ 10 := by
  obtain ⟨all, address', text', first, last, eol, eq, fresh', rfl, ends, toks⟩ := data
  have tail := Text.strchr_append text' fresh'
  rw [← eq, Text.strchr_append _ fresh] at tail
  rw [(List.cons.inj (Option.some.inj tail)).2, toks] at mem
  rcases List.mem_append.mp mem with front | back
  · have := (all token (List.mem_append_left [last] front)).1
    omega
  · have eight := (all last (by simp)).1
    have shorts : ∀ e ∈ lineEnds, e.length ≤ 2 := by decide
    have short : eol.length ≤ 2 := shorts eol ends
    rw [List.mem_singleton.mp back, List.length_append]
    omega

end

/-- A digit inserted after a word is not noticed. -/
theorem debugParseD_extra_digit : ¬ ParsesOnlyData none "20002ba0:31e01002f\r\n".toList 0 fun _ => 0 := by
  rintro ⟨only, _⟩
  obtain ⟨words, data⟩ := only.mp (by decide)
  have long := @dataLine_short words "20002ba0".toList "31e01002f\r\n".toList "31e01002f\r\n".toList data (by decide)
    (by decide)
  exact absurd long (by decide)

end Culvert
