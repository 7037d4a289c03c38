import BlockProgram.Json.Numeral
import BlockProgram.Text.Space

/-
  The tokens of a JSON text.

  A piece of text that is no token ends the tokens with its
  fault.  The fault matters only where the reader has a use
  for the token, so it is kept as a token of its own.

  Key definitions:
    * `Json.Token`
    * `Json.readText`
    * `Json.tokens`
-/

namespace BlockProgram

namespace Json

------------------------------------------------------------
-- Tokens
------------------------------------------------------------

/- A token, or the fault of what should have been one. -/
inductive Token where
  | openList
  | closeList
  | openMap
  | closeMap
  | comma
  | colon
  | null
  | bool (b : Bool)
  | number (n : Number)
  | text (s : String)
  /- A text that does not come to its end. -/
  | badText (fault : Fault)
  /- Any other piece that is no token. -/
  | bad (fault : Fault)
  deriving DecidableEq, Repr

------------------------------------------------------------
-- Hexadecimal Units
------------------------------------------------------------

/- The value of a hexadecimal digit. -/
def hexValue? (c : Char) : Option Nat :=
  if '0' ≤ c ∧ c ≤ '9' then some (c.toNat - '0'.toNat)
  else if 'a' ≤ c ∧ c ≤ 'f' then
    some (c.toNat - 'a'.toNat + 10)
  else if 'A' ≤ c ∧ c ≤ 'F' then
    some (c.toNat - 'A'.toNat + 10)
  else none

/- The number that four hexadecimal digits write. -/
def hexUnit? (a b c d : Char) : Option Nat := do
  let a ← hexValue? a
  let b ← hexValue? b
  let c ← hexValue? c
  let d ← hexValue? d
  return ((a * 16 + b) * 16 + c) * 16 + d

/- The number of bytes of a text. -/
def byteCount (cs : List Char) : Nat :=
  cs.foldl (fun n c => n + c.utf8Size) 0

/-
  The hexadecimal unit at the front of a text.  A text too
  short for four bytes is one that ends too early.
-/
def readHexUnit
    (cs : List Char) : Except Fault (Nat × List Char) :=
  match cs with
  | a :: b :: c :: d :: rest =>
      match hexUnit? a b c d with
      | some n => .ok (n, rest)
      | none => .error .badEscape
  | short =>
      if 4 ≤ byteCount short then .error .badEscape
      else .error .endInText

/- A hexadecimal unit makes a text shorter. -/
theorem length_readHexUnit
    {cs rest : List Char}
    {n : Nat}
    (h : readHexUnit cs = .ok (n, rest)) :
    rest.length < cs.length := by
  unfold readHexUnit at h
  split at h
  · split at h
    · simp at h
      simp [← h.2]
      omega
    · simp at h
  · split at h <;> simp at h

------------------------------------------------------------
-- Escapes
------------------------------------------------------------

/- The unit is the first of a pair. -/
def isLeading (n : Nat) : Bool :=
  0xD800 ≤ n && n ≤ 0xDBFF

/- The unit is the second of a pair. -/
def isTrailing (n : Nat) : Bool :=
  0xDC00 ≤ n && n ≤ 0xDFFF

/- The second unit of a pair, after its `\u`. -/
def readTrailing
    (leading : Nat)
    (cs : List Char) : Except Fault (Char × List Char) := do
  let (trailing, rest) ← readHexUnit cs
  if isTrailing trailing then
    let high := (leading - 0xD800) * 0x400
    return (Char.ofNat (0x10000 + high + (trailing - 0xDC00)), rest)
  else throw .loneSurrogate

/- The character of a `\u` escape, and what follows it. -/
def readCodePoint
    (cs : List Char) : Except Fault (Char × List Char) := do
  let (n, rest) ← readHexUnit cs
  if isTrailing n then throw .loneSurrogate
  else if isLeading n then
    match rest with
    | [] => throw .endInText
    | ['\\'] => throw .endInText
    | '\\' :: 'u' :: rest => readTrailing n rest
    | _ => throw .endOfHexEscape
  else return (Char.ofNat n, rest)

/- The character that a letter after a backslash names. -/
def namedEscape? (c : Char) : Option Char :=
  match c with
  | '"' => some '"'
  | '\\' => some '\\'
  | '/' => some '/'
  | 'b' => some '\x08'
  | 'f' => some '\x0c'
  | 'n' => some '\n'
  | 'r' => some '\r'
  | 't' => some '\t'
  | _ => none

/- The character after a backslash, and what follows it. -/
def readEscape
    (cs : List Char) : Except Fault (Char × List Char) :=
  match cs with
  | [] => .error .endInText
  | c :: rest =>
      match namedEscape? c with
      | some named => .ok (named, rest)
      | none =>
          if c = 'u' then readCodePoint rest
          else .error .badEscape

/- The second unit of a pair makes a text shorter. -/
theorem length_readTrailing
    {cs rest : List Char}
    {leading : Nat}
    {c : Char}
    (h : readTrailing leading cs = .ok (c, rest)) :
    rest.length < cs.length := by
  unfold readTrailing at h
  cases hUnit : readHexUnit cs with
  | error fault => simp [hUnit, bind, Except.bind] at h
  | ok unit =>
      simp only [hUnit, bind, Except.bind] at h
      split at h
      · simp only [pure, Except.pure, Except.ok.injEq,
          Prod.mk.injEq] at h
        exact h.2 ▸ length_readHexUnit hUnit
      · simp [throw, throwThe, MonadExceptOf.throw] at h

/- The units of a character make a text shorter. -/
theorem length_readCodePoint
    {cs rest : List Char}
    {c : Char}
    (h : readCodePoint cs = .ok (c, rest)) :
    rest.length < cs.length := by
  unfold readCodePoint at h
  cases hUnit : readHexUnit cs with
  | error fault => simp [hUnit, bind, Except.bind] at h
  | ok unit =>
      have hLength := length_readHexUnit hUnit
      simp only [hUnit, bind, Except.bind] at h
      split at h
      · simp [throw, throwThe, MonadExceptOf.throw] at h
      · split at h
        · split at h
          · simp [throw, throwThe, MonadExceptOf.throw] at h
          · simp [throw, throwThe, MonadExceptOf.throw] at h
          · next rest' hRest =>
            have := length_readTrailing h
            simp [hRest] at hLength
            omega
          · simp [throw, throwThe, MonadExceptOf.throw] at h
        · simp only [pure, Except.pure, Except.ok.injEq,
            Prod.mk.injEq] at h
          exact h.2 ▸ hLength

/- Whatever follows a backslash makes a text shorter. -/
theorem length_readEscape
    {cs rest : List Char}
    {c : Char}
    (h : readEscape cs = .ok (c, rest)) :
    rest.length < cs.length := by
  unfold readEscape at h
  split at h
  · simp at h
  · split at h
    · simp only [Except.ok.injEq, Prod.mk.injEq] at h
      simp [← h.2]
    · split at h
      · have := length_readCodePoint h
        simp only [List.length_cons]
        omega
      · simp at h

------------------------------------------------------------
-- Texts
------------------------------------------------------------

/-
  The characters up to the closing quote of a text, and what
  follows the quote.
-/
def readText
    (cs : List Char) :
    Except Fault (List Char × List Char) :=
  match cs with
  | [] => .error .endInText
  | '"' :: rest => .ok ([], rest)
  | '\\' :: rest =>
      match _h : readEscape rest with
      | .error fault => .error fault
      | .ok (c, rest') => do
          let (chars, after) ← readText rest'
          return (c :: chars, after)
  | c :: rest =>
      if c.toNat < 0x20 then .error .controlCharacter
      else do
        let (chars, after) ← readText rest
        return (c :: chars, after)
termination_by cs.length
decreasing_by
  · have := length_readEscape _h
    simp only [List.length_cons]
    omega
  · simp only [List.length_cons]
    omega

/- The end of a text lies behind its closing quote. -/
theorem length_readText
    {cs chars rest : List Char}
    (h : readText cs = .ok (chars, rest)) :
    rest.length < cs.length := by
  fun_induction readText cs generalizing chars with
  | case1 => simp at h
  | case2 => simp at h; simp [h.2]
  | case3 => simp at h
  | case4 tail c tail' hEscape ih =>
      have hLength := length_readEscape hEscape
      cases hText : readText tail' with
      | error fault => simp [hText, bind, Except.bind] at h
      | ok result =>
          simp [hText, bind, Except.bind, pure, Except.pure] at h
          have hTail : readText tail' = .ok (result.1, rest) := by
            rw [hText, ← h.2]
          have := ih hTail
          simp only [List.length_cons]
          omega
  | case5 => simp at h
  | case6 c tail _ _ _ ih =>
      cases hText : readText tail with
      | error fault => simp [hText, bind, Except.bind] at h
      | ok result =>
          simp [hText, bind, Except.bind, pure, Except.pure] at h
          have hTail : readText tail = .ok (result.1, rest) := by
            rw [hText, ← h.2]
          have := ih hTail
          simp only [List.length_cons]
          omega

------------------------------------------------------------
-- Words And Marks
------------------------------------------------------------

/- The only characters that may stand between tokens. -/
def isBlank (c : Char) : Bool :=
  c == ' ' || c == '\n' || c == '\t' || c == '\r'

/- What follows a word whose first letter has been seen. -/
def readWord
    (word : List Char)
    (cs : List Char) : Except Fault (List Char) :=
  match word, cs with
  | [], cs => .ok cs
  | _ :: _, [] => .error .endInValue
  | w :: ws, c :: cs =>
      if w = c then readWord ws cs else .error .expectedWord

/- Reading a word makes a text no longer. -/
theorem length_readWord
    {word cs rest : List Char}
    (h : readWord word cs = .ok rest) :
    rest.length ≤ cs.length := by
  fun_induction readWord word cs with
  | case1 => simp at h; simp [h]
  | case2 => simp at h
  | case3 w ws cs ih =>
      have := ih h
      simp only [List.length_cons]
      omega
  | case4 => simp at h

/- The token that a single character makes. -/
def mark? (c : Char) : Option Token :=
  match c with
  | '[' => some .openList
  | ']' => some .closeList
  | '{' => some .openMap
  | '}' => some .closeMap
  | ',' => some .comma
  | ':' => some .colon
  | _ => none

/- The word that a letter begins, with its token. -/
def word? (c : Char) : Option (List Char × Token) :=
  match c with
  | 'n' => some (['u', 'l', 'l'], .null)
  | 't' => some (['r', 'u', 'e'], .bool true)
  | 'f' => some (['a', 'l', 's', 'e'], .bool false)
  | _ => none

------------------------------------------------------------
-- One Token
------------------------------------------------------------

/-
  The token that begins with a character, and what follows
  it.  After a fault nothing follows.
-/
def readToken
    (c : Char)
    (cs : List Char) : Token × List Char :=
  if let some mark := mark? c then (mark, cs)
  else if c = '"' then
    match readText cs with
    | .ok (chars, rest) => (.text (String.ofList chars), rest)
    | .error fault => (.badText fault, [])
  else if let some (word, token) := word? c then
    match readWord word cs with
    | .ok rest => (token, rest)
    | .error fault => (.bad fault, [])
  else if c = '-' ∨ Text.isDigit c then
    match readNumber (c :: cs) with
    | .ok (n, rest) => (.number n, rest)
    | .error fault => (.bad fault, [])
  else (.bad .expectedValue, [])

/- After its first character a token may take nothing. -/
theorem length_readToken_le
    (c : Char)
    (cs : List Char) :
    (readToken c cs).2.length ≤ cs.length := by
  unfold readToken
  split
  · exact Nat.le_refl _
  · split
    · split
      · next hText =>
          exact Nat.le_of_lt (length_readText hText)
      · exact Nat.zero_le _
    · split
      · split
        · next hWord => exact length_readWord hWord
        · exact Nat.zero_le _
      · split
        · split
          · next hNumber =>
              exact Nat.le_of_lt_succ (length_readNumber hNumber)
          · exact Nat.zero_le _
        · exact Nat.zero_le _

/- The tokens of a text, up to its first fault. -/
def tokens (cs : List Char) : List Token :=
  match cs with
  | [] => []
  | c :: rest =>
      if isBlank c then tokens rest
      else
        (readToken c rest).1 :: tokens (readToken c rest).2
termination_by cs.length
decreasing_by
  · simp
  · have := length_readToken_le c rest
    simp only [List.length_cons]
    omega

end Json

end BlockProgram
