import BlockProgram.Proofs.Text.Runs
import BlockProgram.Proofs.Value.Induction
import BlockProgram.Value.Source

/-
  An expression text is the text of one value only.

  Simple values are opaque, so a value can hold the text of
  another one.  When the texts are atoms this cannot happen:
  the first character after the leading atom says which form
  the value has, and the brackets, separators and quotes say
  where each part of it ends.

  The induction needs values that are read off the front of
  a longer text, since that is how the parts of a value are
  read.  What follows a part is a separator or a closing
  bracket.

  Main declarations:
    * `Value.IsPlain`
    * `Value.source_distinguishes`
    * `Value.source_eq_iff`
-/

namespace BlockProgram

namespace Value

open Text

------------------------------------------------------------
-- Plain Values
------------------------------------------------------------

/- The characters that give an expression text its form. -/
def marks : List Char :=
  ['[', ']', '\x7b', '\x7d', '(', ')', ',', ':', '=', '"',
    '\x27']

/- The characters of atoms. -/
def isAtomChar (c : Char) : Bool :=
  !isSpace c && !marks.contains c

/- A non-empty text without white space and marks. -/
def IsAtom (text : String) : Prop :=
  text ≠ "" ∧ ∀ c ∈ text.toList, isAtomChar c = true

instance (text : String) : Decidable (IsAtom text) :=
  @instDecidableAnd _ _ inferInstance (List.decidableBAll _ _)

/- A key that leaves one of the two quotes to its quotation. -/
def IsQuotable (key : String) : Prop :=
  '"' ∉ key.toList ∨ '\x27' ∉ key.toList

instance (key : String) : Decidable (IsQuotable key) :=
  inferInstanceAs (Decidable (_ ∨ _))

/-
  A value whose texts are atoms, at any depth.  Simple texts
  may be empty too, and keys are any quotable texts.
-/
inductive IsPlain : Value → Prop where
  | empty : IsPlain (.simple "")
  | atom
      {text : String}
      (hText : IsAtom text) :
      IsPlain (.simple text)
  | array
      {items : List Value}
      (hItems : ∀ v ∈ items, IsPlain v) :
      IsPlain (.array items)
  | object
      {properties : List (String × Value)}
      (hKeys : ∀ p ∈ properties, IsQuotable p.1)
      (hValues : ∀ p ∈ properties, IsPlain p.2) :
      IsPlain (.object properties)
  | call
      {callee : String}
      {arguments : List (Option String × Value)}
      (hCallee : IsAtom callee)
      (hNames : ∀ a ∈ arguments, ∀ name ∈ a.1, IsAtom name)
      (hValues : ∀ a ∈ arguments, IsPlain a.2) :
      IsPlain (.call callee arguments)

theorem isPlain_array_iff
    {items : List Value} :
    (array items).IsPlain ↔ ∀ v ∈ items, v.IsPlain :=
  ⟨fun | .array hItems => hItems, .array⟩

theorem isPlain_object_iff
    {properties : List (String × Value)} :
    (object properties).IsPlain ↔
      ∀ p ∈ properties, IsQuotable p.1 ∧ p.2.IsPlain :=
  ⟨fun
    | .object hKeys hValues =>
        fun p hp => ⟨hKeys p hp, hValues p hp⟩,
    fun h => .object (fun p hp => (h p hp).1)
      (fun p hp => (h p hp).2)⟩

theorem isPlain_call_iff
    {callee : String}
    {arguments : List (Option String × Value)} :
    (call callee arguments).IsPlain ↔
      IsAtom callee ∧
        ∀ a ∈ arguments,
          (∀ name ∈ a.1, IsAtom name) ∧ a.2.IsPlain :=
  ⟨fun
    | .call hCallee hNames hValues =>
        ⟨hCallee, fun a ha => ⟨hNames a ha, hValues a ha⟩⟩,
    fun h => .call h.1 (fun a ha => (h.2 a ha).1)
      (fun a ha => (h.2 a ha).2)⟩

------------------------------------------------------------
-- The Texts Of Parts
------------------------------------------------------------

/- The expression text of a property. -/
def propertySource (p : String × Value) : String :=
  quotedKey p.1 ++ ": " ++ p.2.source

/- The expression text of an argument. -/
def argumentSource (a : Option String × Value) : String :=
  argumentLead a.1 ++ a.2.source

theorem itemSources_eq_map (items : List Value) :
    itemSources items = items.map source := by
  induction items with
  | nil => rfl
  | cons v vs ih => rw [itemSources, ih, List.map_cons]

theorem propertySources_eq_map
    (properties : List (String × Value)) :
    propertySources properties =
      properties.map propertySource := by
  induction properties with
  | nil => rfl
  | cons p ps ih =>
      rw [propertySources, ih, List.map_cons, propertySource]

theorem argumentSources_eq_map
    (arguments : List (Option String × Value)) :
    argumentSources arguments =
      arguments.map argumentSource := by
  induction arguments with
  | nil => rfl
  | cons a as ih =>
      rw [argumentSources, ih, List.map_cons, argumentSource]

------------------------------------------------------------
-- Leading Atoms
------------------------------------------------------------

/- The atom at the front of an expression text. -/
def lead : Value → List Char
  | .simple text => text.toList
  | .array _ => []
  | .object _ => []
  | .call callee _ => callee.toList

/- What follows the leading atom. -/
def body : Value → List Char
  | .simple text => if text = "" then ['"', '"'] else []
  | .array items =>
      '[' ::
        ((", ".intercalate (items.map source)).toList ++ [']'])
  | .object properties =>
      '\x7b' ::
        ((", ".intercalate
            (properties.map propertySource)).toList ++
          ['\x7d'])
  | .call _ arguments =>
      '(' ::
        ((", ".intercalate
            (arguments.map argumentSource)).toList ++
          [')'])

/- The bracket after the leading atom. -/
def opening : Value → Option Char
  | .simple _ => none
  | .array _ => some '['
  | .object _ => some '\x7b'
  | .call _ _ => some '('

theorem toList_source (v : Value) :
    v.source.toList = v.lead ++ v.body := by
  cases v with
  | simple text =>
      by_cases hEmpty : text = "" <;>
        simp [source, lead, body, hEmpty]
  | array items =>
      simp [source, lead, body, itemSources_eq_map]
  | object properties =>
      simp [source, lead, body, propertySources_eq_map]
  | call callee arguments =>
      simp [source, lead, body, argumentSources_eq_map]

theorem isAtomChar_of_mem_lead
    {v : Value}
    (hPlain : v.IsPlain) :
    ∀ c ∈ v.lead, isAtomChar c = true := by
  cases hPlain with
  | empty => simp [lead]
  | atom hText => exact hText.2
  | array _ => simp [lead]
  | object _ _ => simp [lead]
  | call hCallee _ _ => exact hCallee.2

------------------------------------------------------------
-- Where A Part Ends
------------------------------------------------------------

/- The characters that follow a part of a value. -/
def ends : List Char :=
  [',', ']', '\x7d', ')']

/- A text that can follow a part of a value. -/
def Ends (rest : List Char) : Prop :=
  ∀ c ∈ rest.head?, c ∈ ends

/- The brackets that begin a body. -/
def openings : List Char :=
  ['[', '\x7b', '(']

theorem ends_nil : Ends [] := by
  simp [Ends]

theorem ends_cons
    {c : Char}
    (hEnd : c ∈ ends)
    (rest : List Char) :
    Ends (c :: rest) := by
  simpa [Ends] using hEnd

/- A body begins with a quote or a bracket, and an empty body
   is followed by an end. -/
theorem mem_of_head?_body_append
    (v : Value)
    {rest : List Char}
    (hRest : Ends rest) :
    ∀ c ∈ (v.body ++ rest).head?, c ∈ '"' :: openings ++ ends := by
  intro c hHead
  cases v with
  | simple text =>
      by_cases hEmpty : text = ""
      · have hQuote : '"' = c := by
          simpa [body, hEmpty] using hHead
        simp [← hQuote]
      · rw [body, if_neg hEmpty, List.nil_append] at hHead
        exact List.mem_append_right _ (hRest c hHead)
  | array items =>
      have hBracket : '[' = c := by simpa [body] using hHead
      simp [← hBracket, openings]
  | object properties =>
      have hBrace : '\x7b' = c := by simpa [body] using hHead
      simp [← hBrace, openings]
  | call callee arguments =>
      have hBracket : '(' = c := by simpa [body] using hHead
      simp [← hBracket, openings]

/- The leading atom ends where the body begins. -/
theorem isAtomChar_of_head?_body_append
    (v : Value)
    {rest : List Char}
    (hRest : Ends rest) :
    ∀ c ∈ (v.body ++ rest).head?, isAtomChar c = false := by
  have hMarks :
      ('"' :: openings ++ ends).any isAtomChar = false := by
    decide
  intro c hHead
  rw [Bool.eq_false_iff]
  exact
    List.any_eq_false.mp hMarks c
      (mem_of_head?_body_append v hRest c hHead)

/- The first character after the atom tells the form. -/
theorem filter_head?_body_append
    (v : Value)
    {rest : List Char}
    (hRest : Ends rest) :
    (v.body ++ rest).head?.filter (fun c => c ∈ openings) =
      v.opening := by
  cases v with
  | simple text =>
      by_cases hEmpty : text = ""
      · simp [body, opening, openings, hEmpty]
      · rw [body, if_neg hEmpty, List.nil_append, opening]
        have hMarks : ends.any (openings.contains ·) = false := by
          decide
        cases hHead : rest.head? with
        | none => rfl
        | some c =>
            have hOther :=
              List.any_eq_false.mp hMarks c (hRest c hHead)
            rw [List.contains_iff_mem] at hOther
            simp [hOther]
  | array items => simp [body, opening, openings]
  | object properties => simp [body, opening, openings]
  | call callee arguments => simp [body, opening, openings]

theorem not_ends_atom_append
    {text : String}
    (hText : IsAtom text)
    (rest : List Char) :
    ¬Ends (text.toList ++ rest) := by
  intro hEnds
  cases hChars : text.toList with
  | nil => exact hText.1 (String.toList_eq_nil_iff.mp hChars)
  | cons c cs =>
      have hMarks : ends.any isAtomChar = false := by decide
      have hFirst := hText.2 c (by simp [hChars])
      have hEnd := hEnds c (by simp [hChars])
      exact List.any_eq_false.mp hMarks c hEnd hFirst

/- An expression text is not taken for an end. -/
theorem not_ends_source_append
    {v : Value}
    (hPlain : v.IsPlain)
    (rest : List Char) :
    ¬Ends (v.source.toList ++ rest) := by
  rw [toList_source, List.append_assoc]
  cases hPlain with
  | empty => simp [lead, body, Ends, ends]
  | atom hText => exact not_ends_atom_append hText _
  | array _ => simp [lead, body, Ends, ends]
  | object _ _ => simp [lead, body, Ends, ends]
  | call hCallee _ _ => exact not_ends_atom_append hCallee _

------------------------------------------------------------
-- Lists Between Brackets
------------------------------------------------------------

variable {β : Type}

/- The text of the items after the first. -/
def laterText
    (text : β → String)
    (xs : List β) : List Char :=
  xs.flatMap fun x => ',' :: ' ' :: (text x).toList

theorem toList_intercalate_cons
    (text : β → String)
    (x : β)
    (xs : List β) :
    (", ".intercalate ((x :: xs).map text)).toList =
      (text x).toList ++ laterText text xs := by
  induction xs generalizing x with
  | nil => simp [laterText]
  | cons y ys ih =>
      have hOthers := ih y
      rw [List.map_cons] at hOthers
      rw [List.map_cons, List.map_cons,
        String.intercalate_cons_cons, String.toList_append,
        String.toList_append, hOthers]
      simp [laterText]

theorem ends_laterText_append
    (text : β → String)
    (xs : List β)
    {rest : List Char}
    (hRest : Ends rest) :
    Ends (laterText text xs ++ rest) := by
  cases xs with
  | nil => exact hRest
  | cons x xs => exact ends_cons (by decide) _

/-
  Two items have different texts unless they are the same
  one, whatever follows them; and then the same follows.
-/
def Distinguishes
    (text : β → String)
    (x y : β) : Prop :=
  ∀ rest rest',
    Ends rest → Ends rest' →
      (text x).toList ++ rest = (text y).toList ++ rest' →
        x = y ∧ rest = rest'

variable {text : β → String}
variable {xs ys : List β}
variable {close : Char}
variable {rest rest' : List Char}

/- Each further item is read after its separator. -/
theorem laterText_append_inj
    (hItems : ∀ x ∈ xs, ∀ y ∈ ys, Distinguishes text x y)
    (hClose : close ∈ ends)
    (hComma : close ≠ ',')
    (hEq :
      laterText text xs ++ close :: rest =
        laterText text ys ++ close :: rest') :
    xs = ys ∧ rest = rest' := by
  induction xs generalizing ys with
  | nil =>
      cases ys with
      | nil => simpa [laterText] using hEq
      | cons y ys =>
          have hFirst : close = ',' := by
            simp [laterText] at hEq
            exact hEq.1
          exact absurd hFirst hComma
  | cons x xs ih =>
      cases ys with
      | nil =>
          have hFirst : ',' = close := by
            simp [laterText] at hEq
            exact hEq.1
          exact absurd hFirst.symm hComma
      | cons y ys =>
          have hTexts :
              (text x).toList ++
                  (laterText text xs ++ close :: rest) =
                (text y).toList ++
                  (laterText text ys ++ close :: rest') := by
            simpa [laterText] using hEq
          rcases
              hItems x List.mem_cons_self y List.mem_cons_self _ _
                (ends_laterText_append _ _ (ends_cons hClose _))
                (ends_laterText_append _ _ (ends_cons hClose _))
                hTexts with
            ⟨hSame, hLater⟩
          have hOthers :
              ∀ x ∈ xs, ∀ y ∈ ys, Distinguishes text x y :=
            fun x hx y hy =>
              hItems x (List.mem_cons_of_mem _ hx) y
                (List.mem_cons_of_mem _ hy)
          rcases ih hOthers hLater with ⟨hLists, hRest⟩
          exact ⟨by rw [hSame, hLists], hRest⟩

/-
  A list is read up to the bracket that closes it, when no
  item begins like an end.
-/
theorem intercalate_append_inj
    (hItems : ∀ x ∈ xs, ∀ y ∈ ys, Distinguishes text x y)
    (hBegins :
      ∀ x, x ∈ xs ∨ x ∈ ys →
        ∀ later, ¬Ends ((text x).toList ++ later))
    (hClose : close ∈ ends)
    (hComma : close ≠ ',')
    (hEq :
      (", ".intercalate (xs.map text)).toList ++ close :: rest =
        (", ".intercalate (ys.map text)).toList ++
          close :: rest') :
    xs = ys ∧ rest = rest' := by
  have hEmpty :
      ∀ tail,
        (", ".intercalate (([] : List β).map text)).toList ++
            close :: tail =
          close :: tail := by
    simp
  cases xs with
  | nil =>
      cases ys with
      | nil => simpa using hEq
      | cons y ys =>
          rw [hEmpty, toList_intercalate_cons,
            List.append_assoc] at hEq
          have hEnds := ends_cons hClose rest
          rw [hEq] at hEnds
          exact absurd hEnds (hBegins y (by simp) _)
  | cons x xs =>
      cases ys with
      | nil =>
          rw [hEmpty, toList_intercalate_cons,
            List.append_assoc] at hEq
          have hEnds := ends_cons hClose rest'
          rw [← hEq] at hEnds
          exact absurd hEnds (hBegins x (by simp) _)
      | cons y ys =>
          -- With a separator before both, the first items
          -- are read like all others.
          refine laterText_append_inj hItems hClose hComma ?_
          rw [toList_intercalate_cons,
            toList_intercalate_cons] at hEq
          simpa [laterText] using hEq

------------------------------------------------------------
-- Properties
------------------------------------------------------------

/- The quote around a key. -/
def quoteOf (key : String) : Char :=
  if '"' ∈ key.toList then '\x27' else '"'

theorem toList_quotedKey (key : String) :
    (quotedKey key).toList =
      quoteOf key :: (key.toList ++ [quoteOf key]) := by
  by_cases hQuote : '"' ∈ key.toList <;>
    simp [quotedKey, quoteOf, hQuote]

theorem quoteOf_notMem
    {key : String}
    (hKey : IsQuotable key) :
    quoteOf key ∉ key.toList := by
  by_cases hQuote : '"' ∈ key.toList
  · rw [quoteOf, if_pos hQuote]
    exact hKey.resolve_left (not_not_intro hQuote)
  · rwa [quoteOf, if_neg hQuote]

/- A key ends where its quote comes again. -/
theorem quotedKey_append_inj
    {key key' : String}
    (hKey : IsQuotable key)
    (hKey' : IsQuotable key')
    (hEq :
      (quotedKey key).toList ++ rest =
        (quotedKey key').toList ++ rest') :
    key = key' ∧ rest = rest' := by
  have hFirst := quoteOf_notMem hKey
  have hSecond := quoteOf_notMem hKey'
  rw [toList_quotedKey, toList_quotedKey, List.cons_append,
    List.cons_append, List.cons.injEq] at hEq
  rcases hEq with ⟨hQuote, hEq⟩
  rw [← hQuote] at hSecond hEq
  have hText :
      key.toList ++ quoteOf key :: rest =
        key'.toList ++ quoteOf key :: rest' := by
    simpa using hEq
  have hParts :=
    append_stop_inj (p := fun c => c != quoteOf key)
      (fun c hc => bne_iff_ne.mpr (ne_of_mem_of_not_mem hc hFirst))
      (fun c hc => bne_iff_ne.mpr (ne_of_mem_of_not_mem hc hSecond))
      (by simp) (by simp) hText
  exact
    ⟨String.toList_inj.mp hParts.1, (List.cons.inj hParts.2).2⟩

theorem propertySource_distinguishes
    {p q : String × Value}
    (hKeys : IsQuotable p.1 ∧ IsQuotable q.1)
    (hValues : Distinguishes source p.2 q.2) :
    Distinguishes propertySource p q := by
  intro rest rest' hRest hRest' hEq
  have hText :
      (quotedKey p.1).toList ++
          (": ".toList ++ (p.2.source.toList ++ rest)) =
        (quotedKey q.1).toList ++
          (": ".toList ++ (q.2.source.toList ++ rest')) := by
    simpa [propertySource] using hEq
  rcases quotedKey_append_inj hKeys.1 hKeys.2 hText with
    ⟨hKey, hValue⟩
  rcases hValues rest rest' hRest hRest'
      (List.append_cancel_left hValue) with
    ⟨hSame, hRests⟩
  exact ⟨Prod.ext hKey hSame, hRests⟩

theorem not_ends_propertySource_append
    (p : String × Value)
    (rest : List Char) :
    ¬Ends ((propertySource p).toList ++ rest) := by
  by_cases hQuote : '"' ∈ p.1.toList <;>
    simp [propertySource, toList_quotedKey, quoteOf, Ends, ends,
      hQuote]

------------------------------------------------------------
-- Arguments
------------------------------------------------------------

/- A value is not taken for a keyword. -/
theorem keyword_ne_source_append
    {name : String}
    (hName : IsAtom name)
    {v : Value}
    (hPlain : v.IsPlain)
    {rest : List Char}
    (hRest : Ends rest)
    (later : List Char) :
    name.toList ++ '=' :: later ≠ v.source.toList ++ rest := by
  intro hEq
  rw [toList_source, List.append_assoc] at hEq
  have hParts :=
    append_stop_inj hName.2 (isAtomChar_of_mem_lead hPlain)
      (by simp [isAtomChar, marks])
      (isAtomChar_of_head?_body_append v hRest) hEq
  have hOther : '=' ∉ '"' :: openings ++ ends := by decide
  apply hOther
  apply mem_of_head?_body_append v hRest
  simp [← hParts.2]

/- An argument tells whether it has a name, and which one. -/
theorem argumentSource_distinguishes
    {a b : Option String × Value}
    (hFirst : (∀ name ∈ a.1, IsAtom name) ∧ a.2.IsPlain)
    (hSecond : (∀ name ∈ b.1, IsAtom name) ∧ b.2.IsPlain)
    (hValues : Distinguishes source a.2 b.2) :
    Distinguishes argumentSource a b := by
  rcases a with ⟨name, v⟩
  rcases b with ⟨name', w⟩
  intro rest rest' hRest hRest' hEq
  cases name with
  | none =>
      cases name' with
      | none =>
          have hText :
              v.source.toList ++ rest =
                w.source.toList ++ rest' := by
            simpa [argumentSource, argumentLead] using hEq
          rcases hValues rest rest' hRest hRest' hText with
            ⟨rfl, hRests⟩
          exact ⟨rfl, hRests⟩
      | some name' =>
          exfalso
          refine
            keyword_ne_source_append (hSecond.1 name' rfl)
              hFirst.2 hRest (w.source.toList ++ rest') ?_
          simpa [argumentSource, argumentLead] using hEq.symm
  | some name =>
      cases name' with
      | none =>
          exfalso
          refine
            keyword_ne_source_append (hFirst.1 name rfl)
              hSecond.2 hRest' (v.source.toList ++ rest) ?_
          simpa [argumentSource, argumentLead] using hEq
      | some name' =>
          have hText :
              name.toList ++ '=' :: (v.source.toList ++ rest) =
                name'.toList ++
                  '=' :: (w.source.toList ++ rest') := by
            simpa [argumentSource, argumentLead] using hEq
          have hParts :=
            append_stop_inj (hFirst.1 name rfl).2
              (hSecond.1 name' rfl).2
              (by simp [isAtomChar, marks])
              (by simp [isAtomChar, marks]) hText
          rcases hValues rest rest' hRest hRest'
              (List.cons.inj hParts.2).2 with
            ⟨rfl, hRests⟩
          rw [String.toList_inj.mp hParts.1]
          exact ⟨rfl, hRests⟩

theorem not_ends_argumentSource_append
    {a : Option String × Value}
    (hArgument : (∀ name ∈ a.1, IsAtom name) ∧ a.2.IsPlain)
    (rest : List Char) :
    ¬Ends ((argumentSource a).toList ++ rest) := by
  rcases a with ⟨name, v⟩
  cases name with
  | none =>
      simpa [argumentSource, argumentLead] using
        not_ends_source_append hArgument.2 rest
  | some name =>
      have hText :
          (argumentSource (some name, v)).toList ++ rest =
            name.toList ++
              ("=".toList ++ (v.source.toList ++ rest)) := by
        simp [argumentSource, argumentLead]
      rw [hText]
      exact not_ends_atom_append (hArgument.1 name rfl) _

------------------------------------------------------------
-- Unique Reading
------------------------------------------------------------

/- Both values have the same atom and the same bracket. -/
theorem lead_opening_body_eq
    {v w : Value}
    (hPlain : v.IsPlain)
    (hPlain' : w.IsPlain)
    (hRest : Ends rest)
    (hRest' : Ends rest')
    (hEq :
      v.source.toList ++ rest = w.source.toList ++ rest') :
    v.lead = w.lead ∧
      v.opening = w.opening ∧
        v.body ++ rest = w.body ++ rest' := by
  rw [toList_source, toList_source, List.append_assoc,
    List.append_assoc] at hEq
  rcases
      append_stop_inj (isAtomChar_of_mem_lead hPlain)
        (isAtomChar_of_mem_lead hPlain')
        (isAtomChar_of_head?_body_append v hRest)
        (isAtomChar_of_head?_body_append w hRest') hEq with
    ⟨hLead, hBody⟩
  refine ⟨hLead, ?_, hBody⟩
  rw [← filter_head?_body_append v hRest, hBody,
    filter_head?_body_append w hRest']

section Forms

variable {w : Value}

theorem simple_distinguishes
    {text : String}
    (hPlain : (simple text).IsPlain)
    (hPlain' : w.IsPlain) :
    Distinguishes source (simple text) w := by
  intro rest rest' hRest hRest' hEq
  rcases lead_opening_body_eq hPlain hPlain' hRest hRest' hEq with
    ⟨hLead, hOpening, hBody⟩
  cases w with
  | simple text' =>
      have hText : text = text' := String.toList_inj.mp hLead
      subst hText
      exact ⟨rfl, List.append_cancel_left hBody⟩
  | array _ | object _ | call _ _ =>
      exact absurd hOpening (by simp [opening])

theorem array_distinguishes
    {items : List Value}
    (hPlain : (array items).IsPlain)
    (hPlain' : w.IsPlain)
    (hItems :
      ∀ v ∈ items, ∀ x : Value,
        x.IsPlain → Distinguishes source v x) :
    Distinguishes source (array items) w := by
  intro rest rest' hRest hRest' hEq
  rcases lead_opening_body_eq hPlain hPlain' hRest hRest' hEq with
    ⟨-, hOpening, hBody⟩
  cases w with
  | array items' =>
      rw [isPlain_array_iff] at hPlain hPlain'
      have hInside :
          (", ".intercalate (items.map source)).toList ++
              ']' :: rest =
            (", ".intercalate (items'.map source)).toList ++
              ']' :: rest' := by
        simpa [body] using hBody
      have hLists :=
        intercalate_append_inj
          (fun v hv x hx => hItems v hv x (hPlain' x hx))
          (fun v hv =>
            not_ends_source_append
              (hv.elim (hPlain v) (hPlain' v)))
          (by decide) (by decide) hInside
      exact ⟨congrArg array hLists.1, hLists.2⟩
  | simple _ | object _ | call _ _ =>
      exact absurd hOpening (by simp [opening])

theorem object_distinguishes
    {properties : List (String × Value)}
    (hPlain : (object properties).IsPlain)
    (hPlain' : w.IsPlain)
    (hValues :
      ∀ p ∈ properties, ∀ x : Value,
        x.IsPlain → Distinguishes source p.2 x) :
    Distinguishes source (object properties) w := by
  intro rest rest' hRest hRest' hEq
  rcases lead_opening_body_eq hPlain hPlain' hRest hRest' hEq with
    ⟨-, hOpening, hBody⟩
  cases w with
  | object properties' =>
      rw [isPlain_object_iff] at hPlain hPlain'
      have hInside :
          (", ".intercalate
                (properties.map propertySource)).toList ++
              '\x7d' :: rest =
            (", ".intercalate
                (properties'.map propertySource)).toList ++
              '\x7d' :: rest' := by
        simpa [body] using hBody
      have hLists :=
        intercalate_append_inj
          (fun p hp q hq =>
            propertySource_distinguishes
              ⟨(hPlain p hp).1, (hPlain' q hq).1⟩
              (hValues p hp q.2 (hPlain' q hq).2))
          (fun p _ => not_ends_propertySource_append p)
          (by decide) (by decide) hInside
      exact ⟨congrArg object hLists.1, hLists.2⟩
  | simple _ | array _ | call _ _ =>
      exact absurd hOpening (by simp [opening])

theorem call_distinguishes
    {callee : String}
    {arguments : List (Option String × Value)}
    (hPlain : (call callee arguments).IsPlain)
    (hPlain' : w.IsPlain)
    (hValues :
      ∀ a ∈ arguments, ∀ x : Value,
        x.IsPlain → Distinguishes source a.2 x) :
    Distinguishes source (call callee arguments) w := by
  intro rest rest' hRest hRest' hEq
  rcases lead_opening_body_eq hPlain hPlain' hRest hRest' hEq with
    ⟨hLead, hOpening, hBody⟩
  cases w with
  | call callee' arguments' =>
      have hCallee : callee = callee' := String.toList_inj.mp hLead
      rw [isPlain_call_iff] at hPlain hPlain'
      have hInside :
          (", ".intercalate
                (arguments.map argumentSource)).toList ++
              ')' :: rest =
            (", ".intercalate
                (arguments'.map argumentSource)).toList ++
              ')' :: rest' := by
        simpa [body] using hBody
      have hLists :=
        intercalate_append_inj
          (fun a ha b hb =>
            argumentSource_distinguishes (hPlain.2 a ha)
              (hPlain'.2 b hb)
              (hValues a ha b.2 (hPlain'.2 b hb).2))
          (fun a ha =>
            not_ends_argumentSource_append
              (ha.elim (hPlain.2 a) (hPlain'.2 a)))
          (by decide) (by decide) hInside
      exact ⟨by rw [hCallee, hLists.1], hLists.2⟩
  | simple _ | array _ | object _ =>
      exact absurd hOpening (by simp [opening])

end Forms

/-
  The text of a plain value is read off the front of a longer
  one in one way: both values have one form, and their lists
  agree item by item.
-/
theorem source_distinguishes
    {v w : Value}
    (hPlain : v.IsPlain)
    (hPlain' : w.IsPlain) :
    Distinguishes source v w := by
  induction v using Value.induction generalizing w with
  | simple text => exact simple_distinguishes hPlain hPlain'
  | array items ih =>
      have hItems := isPlain_array_iff.mp hPlain
      exact
        array_distinguishes hPlain hPlain' fun v hv x hPlain'' =>
          ih v hv (hItems v hv) hPlain''
  | object properties ih =>
      have hItems := isPlain_object_iff.mp hPlain
      exact
        object_distinguishes hPlain hPlain' fun p hp x hPlain'' =>
          ih p hp (hItems p hp).2 hPlain''
  | call callee arguments ih =>
      have hItems := (isPlain_call_iff.mp hPlain).2
      exact
        call_distinguishes hPlain hPlain' fun a ha x hPlain'' =>
          ih a ha (hItems a ha).2 hPlain''

/-
  Plain values have the same expression text only when they
  are the same value.
-/
theorem source_eq_iff
    {v w : Value}
    (hPlain : v.IsPlain)
    (hPlain' : w.IsPlain) :
    v.source = w.source ↔ v = w := by
  constructor
  · intro hEq
    have hReading :=
      source_distinguishes hPlain hPlain' [] [] ends_nil ends_nil
        (by rw [hEq])
    exact hReading.1
  · intro hEq
    rw [hEq]

/-
  An object with two keys, and one whose only key holds the
  quotes, the colon and the comma between them.
-/
theorem source_ne_of_quoted_separators :
    let x : Value := .simple "x"
    let y : Value := .array [.simple ""]
    let two : Value :=
      .call "f" [(some "o", .object [("a", x), ("b", y)])]
    let one : Value :=
      .call "f" [(some "o", .object [("a\": x, \"b", y)])]
    two.IsPlain ∧ one.IsPlain ∧ two.source ≠ one.source := by
  intro x y two one
  have hX : x.IsPlain := .atom (by decide)
  have hY : y.IsPlain := by
    simp [y, isPlain_array_iff, IsPlain.empty]
  have hTwo : two.IsPlain := by
    simp only [two, isPlain_call_iff, isPlain_object_iff,
      List.forall_mem_cons]
    exact
      ⟨by decide, ⟨by decide, ⟨by decide, hX⟩, ⟨by decide, hY⟩,
        by simp⟩, by simp⟩
  have hOne : one.IsPlain := by
    simp only [one, isPlain_call_iff, isPlain_object_iff,
      List.forall_mem_cons]
    exact
      ⟨by decide, ⟨by decide, ⟨by decide, hY⟩, by simp⟩, by simp⟩
  refine ⟨hTwo, hOne, ?_⟩
  rw [Ne, source_eq_iff hTwo hOne]
  simp [two, one]

end Value

end BlockProgram
