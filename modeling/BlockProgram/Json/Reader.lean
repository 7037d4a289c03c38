import BlockProgram.Json.Token

/-
  Reading a JSON text token by token.

  The reader is a machine with a stack.  A state says what
  may come next, and it holds whatever has been read of the
  lists and objects that are still open.

  Key definitions:
    * `Json.State`
    * `Json.State.step`
    * `Json.State.finish`
    * `Json.read`
-/

namespace BlockProgram

namespace Json

------------------------------------------------------------
-- States
------------------------------------------------------------

/-
  An open list or object that waits for a value, with what it
  holds already, newest first.
-/
inductive Frame where
  | item (items : List Json)
  | member
      (members : List (String × Json))
      (key : String)

/-
  What the reader expects.  The stack holds the frames around
  the place, innermost first.
-/
inductive State where
  /- A value for the innermost frame, or for the text. -/
  | value (stack : List Frame)
  /- The first item of a list, or its end. -/
  | firstItem (stack : List Frame)
  /- A comma, or the end of a list. -/
  | afterItem
      (items : List Json)
      (stack : List Frame)
  /- The first key of an object, or its end. -/
  | firstKey (stack : List Frame)
  /- Another key of an object. -/
  | nextKey
      (members : List (String × Json))
      (stack : List Frame)
  /- The colon after a key. -/
  | colon
      (members : List (String × Json))
      (key : String)
      (stack : List Frame)
  /- A comma, or the end of an object. -/
  | afterMember
      (members : List (String × Json))
      (stack : List Frame)
  /- Nothing more. -/
  | ended (value : Json)

------------------------------------------------------------
-- Steps
------------------------------------------------------------

/- How many lists and objects may be open at once. -/
def maxDepth : Nat :=
  127

/- Hand a value to the innermost frame. -/
def complete
    (value : Json) :
    List Frame →
    State
  | [] => .ended value
  | .item items :: stack => .afterItem (value :: items) stack
  | .member members key :: stack =>
      .afterMember ((key, value) :: members) stack

/- Begin a value for the innermost frame. -/
def beginValue
    (stack : List Frame)
    (token : Token) : Except Fault State :=
  match token with
  | .openList =>
      if stack.length < maxDepth then .ok (.firstItem stack)
      else .error .tooDeep
  | .openMap =>
      if stack.length < maxDepth then .ok (.firstKey stack)
      else .error .tooDeep
  | .null => .ok (complete .null stack)
  | .bool b => .ok (complete (.bool b) stack)
  | .number n => .ok (complete (.number n) stack)
  | .text s => .ok (complete (.text s) stack)
  | .badText fault => .error fault
  | .bad fault => .error fault
  | .closeList | .closeMap | .comma | .colon =>
      .error .expectedValue

/- Begin a member of an object. -/
def beginMember
    (members : List (String × Json))
    (stack : List Frame)
    (token : Token) : Except Fault State :=
  match token with
  | .text key => .ok (.colon members key stack)
  | .badText fault => .error fault
  | _ => .error .keyNotText

namespace State

/- The state after one more token. -/
def step
    (state : State)
    (token : Token) : Except Fault State :=
  match state with
  | .value stack =>
      match stack, token with
      | .item _ :: _, .closeList => .error .trailingComma
      | _, _ => beginValue stack token
  | .firstItem stack =>
      match token with
      | .closeList => .ok (complete (.array []) stack)
      | _ => beginValue (.item [] :: stack) token
  | .afterItem items stack =>
      match token with
      | .comma => .ok (.value (.item items :: stack))
      | .closeList =>
          .ok (complete (.array items.reverse) stack)
      | _ => .error .expectedCommaOrBracket
  | .firstKey stack =>
      match token with
      | .closeMap => .ok (complete (.object []) stack)
      | _ => beginMember [] stack token
  | .nextKey members stack =>
      match token with
      | .closeMap => .error .trailingComma
      | _ => beginMember members stack token
  | .colon members key stack =>
      match token with
      | .colon => .ok (.value (.member members key :: stack))
      | _ => .error .expectedColon
  | .afterMember members stack =>
      match token with
      | .comma => .ok (.nextKey members stack)
      | .closeMap =>
          .ok (complete (.object members.reverse) stack)
      | _ => .error .expectedCommaOrBrace
  | .ended _ => .error .trailingCharacters

/- The value read, when the text may end here. -/
def finish : State → Except Fault Json
  | .value _ => .error .endInValue
  | .firstItem _ => .error .endInList
  | .afterItem _ _ => .error .endInList
  | .firstKey _ => .error .endInObject
  | .nextKey _ _ => .error .endInValue
  | .colon _ _ _ => .error .endInObject
  | .afterMember _ _ => .error .endInObject
  | .ended v => .ok v

/- The state after a run of tokens. -/
def run
    (state : State) :
    List Token →
    Except Fault State
  | [] => .ok state
  | token :: rest =>
      match state.step token with
      | .ok next => next.run rest
      | .error fault => .error fault

end State

------------------------------------------------------------
-- Reading A Text
------------------------------------------------------------

/- The state before the first token. -/
def start : State :=
  .value []

/- The JSON value of a text. -/
def read (source : String) : Except Fault Json := do
  let state ← start.run (tokens source.toList)
  state.finish

end Json

end BlockProgram
