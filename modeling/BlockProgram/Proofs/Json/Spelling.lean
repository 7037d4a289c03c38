import BlockProgram.Json.Printer
import BlockProgram.Json.Token
import BlockProgram.Proofs.Json.Nesting

/-
  The tokens of a written JSON value.

  Both styles of writing a value have the same tokens, since
  they differ in blanks only.  Numbers are left out: where a
  number ends depends on what follows it.

  Main declarations:
    * `Json.spelled`
    * `Json.readText_textChars`
    * `Json.tokens_write`
-/

namespace BlockProgram

namespace Json

------------------------------------------------------------
-- Texts
------------------------------------------------------------

section Texts

variable {c : Char}
variable {cs chars rest : List Char}

/- A character that stands for itself in a text. -/
theorem readText_cons
    (hQuote : c ≠ '"')
    (hBackslash : c ≠ '\\')
    (hControl : ¬c.toNat < 0x20)
    (hRest : readText cs = .ok (chars, rest)) :
    readText (c :: cs) = .ok (c :: chars, rest) := by
  rw [readText, if_neg hControl, hRest]
  · rfl
  · exact hQuote
  · exact hBackslash

/- A character that is read from an escape. -/
theorem readText_backslash
    {escape : List Char}
    (hEscape : readEscape escape = .ok (c, cs))
    (hRest : readText cs = .ok (chars, rest)) :
    readText ('\\' :: escape) = .ok (c :: chars, rest) := by
  rw [readText]
  split
  · next fault hFault =>
      rw [hEscape] at hFault
      cases hFault
  · next c' cs' hOk =>
      rw [hEscape] at hOk
      cases hOk
      rw [hRest]
      rfl

/- The four digits of a control character. -/
theorem hexUnit?_control :
    ∀ n < 0x20,
      hexUnit? '0' '0' (Nat.digitChar (n / 16))
          (Nat.digitChar (n % 16)) =
        some n := by
  decide

theorem readEscape_control
    (hControl : c.toNat < 0x20)
    (cs : List Char) :
    readEscape
        ('u' :: '0' :: '0' :: Nat.digitChar (c.toNat / 16) ::
          Nat.digitChar (c.toNat % 16) :: cs) =
      .ok (c, cs) := by
  have hUnit := hexUnit?_control c.toNat hControl
  have hAlone :
      isTrailing c.toNat = false ∧ isLeading c.toNat = false := by
    constructor
    · simp only [isTrailing, Bool.and_eq_false_iff,
        decide_eq_false_iff_not]
      omega
    · simp only [isLeading, Bool.and_eq_false_iff,
        decide_eq_false_iff_not]
      omega
  simp only [readEscape, namedEscape?, readCodePoint,
    readHexUnit, hUnit]
  simp [hAlone.1, hAlone.2, bind, Except.bind, pure, Except.pure]

/- A character is read as it was written. -/
theorem readText_escaped
    (c : Char)
    (hRest : readText cs = .ok (chars, rest)) :
    readText (escaped c ++ cs) = .ok (c :: chars, rest) := by
  have hNamed {letter : Char}
      (hLetter : namedEscape? letter = some c) :
      readText ('\\' :: letter :: cs) = .ok (c :: chars, rest) := by
    apply readText_backslash _ hRest
    rw [readEscape, hLetter]
  unfold escaped
  split
  · exact hNamed rfl
  · exact hNamed rfl
  · exact hNamed rfl
  · exact hNamed rfl
  · exact hNamed rfl
  · exact hNamed rfl
  · exact hNamed rfl
  · next hQuote hBackslash _ _ _ _ _ =>
      by_cases hControl : c.toNat < 0x20
      · rw [if_pos hControl]
        exact
          readText_backslash (readEscape_control hControl cs) hRest
      · rw [if_neg hControl]
        exact readText_cons hQuote hBackslash hControl hRest

/- A text is read as it was written. -/
theorem readText_flatMap_escaped (chars rest : List Char) :
    readText (chars.flatMap escaped ++ '"' :: rest) =
      .ok (chars, rest) := by
  induction chars with
  | nil => rw [List.flatMap_nil, List.nil_append, readText]
  | cons c cs ih =>
      rw [List.flatMap_cons, List.append_assoc]
      exact readText_escaped c ih

end Texts

------------------------------------------------------------
-- Single Tokens
------------------------------------------------------------

section Tokens

variable {rest : List Char}

/- Blanks between tokens are passed over. -/
theorem tokens_append_of_blank
    {gap : List Char}
    (hGap : ∀ c ∈ gap, isBlank c = true) :
    tokens (gap ++ rest) = tokens rest := by
  induction gap with
  | nil => rfl
  | cons c cs ih =>
      rcases List.forall_mem_cons.mp hGap with ⟨hFirst, hOthers⟩
      rw [List.cons_append, tokens, if_pos hFirst, ih hOthers]

theorem tokens_lineBreak
    (style : Style)
    (depth : Nat) :
    tokens (style.lineBreak depth ++ rest) = tokens rest := by
  apply tokens_append_of_blank
  cases style with
  | compact => simp [Style.lineBreak]
  | pretty =>
      intro c hc
      rcases List.mem_cons.mp hc with rfl | hc
      · rfl
      · rw [List.eq_of_mem_replicate hc]
        rfl

theorem tokens_afterColon (style : Style) :
    tokens (style.afterColon ++ rest) = tokens rest := by
  apply tokens_append_of_blank
  cases style with
  | compact => simp [Style.afterColon]
  | pretty => simp [Style.afterColon, isBlank]

/- A character that is a token. -/
theorem tokens_mark
    {c : Char}
    {token : Token}
    (hMark : mark? c = some token)
    (hBlank : isBlank c = false) :
    tokens (c :: rest) = token :: tokens rest := by
  have hToken : readToken c rest = (token, rest) := by
    simp [readToken, hMark]
  rw [tokens, hToken, hBlank]
  rfl

theorem tokens_openList :
    tokens ('[' :: rest) = .openList :: tokens rest :=
  tokens_mark rfl rfl

theorem tokens_closeList :
    tokens (']' :: rest) = .closeList :: tokens rest :=
  tokens_mark rfl rfl

theorem tokens_openMap :
    tokens ('{' :: rest) = .openMap :: tokens rest :=
  tokens_mark rfl rfl

theorem tokens_closeMap :
    tokens ('}' :: rest) = .closeMap :: tokens rest :=
  tokens_mark rfl rfl

theorem tokens_comma :
    tokens (',' :: rest) = .comma :: tokens rest :=
  tokens_mark rfl rfl

theorem tokens_colon :
    tokens (':' :: rest) = .colon :: tokens rest :=
  tokens_mark rfl rfl

/- A text between its quotes. -/
theorem tokens_textChars (s : String) :
    tokens (textChars s ++ rest) = .text s :: tokens rest := by
  have hToken :
      readToken '"' (s.toList.flatMap escaped ++ '"' :: rest) =
        (.text s, rest) := by
    simp [readToken, mark?, readText_flatMap_escaped]
  rw [textChars, List.cons_append, List.append_assoc,
    List.singleton_append, tokens, hToken]
  rfl

/- A word for a value. -/
theorem tokens_word
    {c : Char}
    {token : Token}
    (word : List Char)
    (hWord : word? c = some (word, token))
    (hMark : mark? c = none)
    (hQuote : c ≠ '"')
    (hBlank : isBlank c = false) :
    tokens (c :: (word ++ rest)) = token :: tokens rest := by
  have hRead : readWord word (word ++ rest) = .ok rest := by
    clear hWord
    induction word with
    | nil => rw [List.nil_append, readWord]
    | cons w ws ih => rw [List.cons_append, readWord, if_pos rfl, ih]
  have hToken : readToken c (word ++ rest) = (token, rest) := by
    simp [readToken, hMark, hQuote, hWord, hRead]
  rw [tokens, hToken, hBlank]
  rfl

end Tokens

------------------------------------------------------------
-- Values
------------------------------------------------------------

mutual

/- The tokens of a value, and those that follow them. -/
def spelled :
    Json →
    List Token →
    List Token
  | .null, rest => .null :: rest
  | .bool b, rest => .bool b :: rest
  | .number n, rest => .number n :: rest
  | .text s, rest => .text s :: rest
  | .array [], rest => .openList :: .closeList :: rest
  | .array (v :: vs), rest =>
      .openList :: spelled v (spelledItems vs (.closeList :: rest))
  | .object [], rest => .openMap :: .closeMap :: rest
  | .object ((k, v) :: ms), rest =>
      .openMap :: .text k :: .colon ::
        spelled v (spelledMembers ms (.closeMap :: rest))

/- The tokens of the items of a list after the first. -/
def spelledItems :
    List Json →
    List Token →
    List Token
  | [], rest => rest
  | v :: vs, rest => .comma :: spelled v (spelledItems vs rest)

/- The tokens of the members of an object after the first. -/
def spelledMembers :
    List (String × Json) →
    List Token →
    List Token
  | [], rest => rest
  | (k, v) :: ms, rest =>
      .comma :: .text k :: .colon ::
        spelled v (spelledMembers ms rest)

end

section Values

variable {style : Style}

theorem tokens_writeItems_of_forall
    {vs : List Json}
    (h :
      ∀ v ∈ vs,
        v.isNumberFree = true →
          ∀ depth rest,
            tokens (write style depth v rest) =
              spelled v (tokens rest))
    (hFree : areNumberFree vs = true)
    (depth : Nat)
    (rest : List Char) :
    tokens (writeItems style depth vs rest) =
      spelledItems vs (tokens rest) := by
  induction vs with
  | nil => rfl
  | cons v vs ih =>
      rw [areNumberFree, Bool.and_eq_true] at hFree
      rw [writeItems, tokens_comma, tokens_lineBreak,
        h v List.mem_cons_self hFree.1,
        ih (fun w hw => h w (List.mem_cons_of_mem v hw)) hFree.2,
        spelledItems]

theorem tokens_writeMembers_of_forall
    {ms : List (String × Json)}
    (h :
      ∀ m ∈ ms,
        m.2.isNumberFree = true →
          ∀ depth rest,
            tokens (write style depth m.2 rest) =
              spelled m.2 (tokens rest))
    (hFree : areMembersNumberFree ms = true)
    (depth : Nat)
    (rest : List Char) :
    tokens (writeMembers style depth ms rest) =
      spelledMembers ms (tokens rest) := by
  induction ms with
  | nil => rfl
  | cons m ms ih =>
      rcases m with ⟨k, v⟩
      rw [areMembersNumberFree, Bool.and_eq_true] at hFree
      rw [writeMembers, tokens_comma, List.append_assoc,
        tokens_lineBreak, tokens_textChars, tokens_colon,
        tokens_afterColon, h (k, v) List.mem_cons_self hFree.1,
        ih (fun m hm => h m (List.mem_cons_of_mem (k, v) hm))
          hFree.2,
        spelledMembers]

/- The tokens of a written value, whatever the style. -/
theorem tokens_write
    {v : Json}
    (hFree : v.isNumberFree = true)
    (depth : Nat)
    (rest : List Char) :
    tokens (write style depth v rest) = spelled v (tokens rest) := by
  have hNotQuote : 'n' ≠ '"' ∧ 't' ≠ '"' ∧ 'f' ≠ '"' := by
    decide
  induction v using Json.induction generalizing depth rest with
  | null => exact tokens_word ['u', 'l', 'l'] rfl rfl hNotQuote.1 rfl
  | bool b =>
      cases b with
      | true =>
          exact tokens_word ['r', 'u', 'e'] rfl rfl hNotQuote.2.1 rfl
      | false =>
          exact
            tokens_word ['a', 'l', 's', 'e'] rfl rfl hNotQuote.2.2 rfl
  | number n => cases hFree
  | text s => rw [write, tokens_textChars, spelled]
  | array items ih =>
      cases items with
      | nil =>
          rw [write, tokens_openList, tokens_closeList, spelled]
      | cons v vs =>
          rw [isNumberFree, areNumberFree, Bool.and_eq_true] at hFree
          rw [write, tokens_openList, tokens_lineBreak,
            ih v List.mem_cons_self hFree.1,
            tokens_writeItems_of_forall
              (fun w hw => ih w (List.mem_cons_of_mem v hw))
              hFree.2,
            tokens_lineBreak, tokens_closeList, spelled]
  | object members ih =>
      rcases members with _ | ⟨⟨k, v⟩, ms⟩
      · rw [write, tokens_openMap, tokens_closeMap, spelled]
      · rw [isNumberFree, areMembersNumberFree,
          Bool.and_eq_true] at hFree
        rw [write, tokens_openMap, List.append_assoc,
          tokens_lineBreak, tokens_textChars, tokens_colon,
          tokens_afterColon,
          ih (k, v) List.mem_cons_self hFree.1,
          tokens_writeMembers_of_forall
            (fun m hm => ih m (List.mem_cons_of_mem (k, v) hm))
            hFree.2,
          tokens_lineBreak, tokens_closeMap, spelled]

end Values

end Json

end BlockProgram
