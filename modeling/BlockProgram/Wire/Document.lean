import BlockProgram.Block.Check
import BlockProgram.Error
import BlockProgram.Json.Reader
import BlockProgram.Wire.Decode

/-
  Programs read from JSON text.

  A text is checked while it is read, so that the first
  problem in it is the one reported.  The tag of a block is
  settled where it stands, and the rest of the block once the
  block is complete.

  Key definitions:
    * `Wire.notice`
    * `Wire.readBlocks`
    * `Wire.readProgram`
-/

namespace BlockProgram

namespace Wire

open Json (State Frame Token)

------------------------------------------------------------
-- Tokens In Place Of Values
------------------------------------------------------------

/- What a token that begins a value is found to be. -/
def Found.ofToken? : Token → Option Found
  | .openList => some .sequence
  | .openMap => some .map
  | .null => some .null
  | .bool b => some (.bool b)
  | .number n => some (.number n)
  | .text s => some (.text s)
  | .closeList | .closeMap | .comma | .colon => none
  | .badText _ | .bad _ => none

/- What keeps a text from being a list, by its first token. -/
def noticeList (token : Token) : Option Mismatch :=
  match Found.ofToken? token with
  | none => none
  | some .sequence => none
  | some found => some (.wrongType found .sequence)

/- What keeps a token from being the tag of a block. -/
def noticeTag (token : Token) : Option Mismatch :=
  match token with
  | .text s =>
      match kindOf .words (.text s) with
      | .ok _ => none
      | .error why => some why
  | token =>
      (Found.ofToken? token).map fun found =>
        .wrongType found .tag

/- What keeps a token from being the next key of a block. -/
def noticeKey
    (members : List (String × Json))
    (token : Token) : Option Mismatch :=
  if token = .text tagKey ∧ tagKey ∈ members.map Prod.fst then
    some (.duplicateField tagKey)
  else none

/-
  What is wrong with a token at its place, before the rest of
  its block is known: the text is no list, or a block has a
  second tag or a bad one.
-/
def notice
    (state : State)
    (token : Token) : Option Mismatch :=
  match state with
  | .value [] => noticeList token
  | .nextKey members [.item _] => noticeKey members token
  | .value [.member _ key, .item _] =>
      if key = tagKey then noticeTag token else none
  | .firstItem [.item _] => noticeTag token
  | _ => none

/- What is wrong with a block that has just been completed. -/
def noticeBlock (state : State) : Option Mismatch :=
  match state with
  | .afterItem (json :: _) [] =>
      match decode (.block .words) json with
      | .ok _ => none
      | .error why => some why
  | _ => none

------------------------------------------------------------
-- Reading
------------------------------------------------------------

/- One step of the reader, watched. -/
def watchedStep
    (state : State)
    (token : Token) : Except Problem State :=
  match notice state token with
  | some why => .error (.mismatch why)
  | none =>
      match state.step token with
      | .error why => .error (.fault why)
      | .ok next =>
          match noticeBlock next with
          | some why => .error (.mismatch why)
          | none => .ok next

/- The state after a run of tokens, watched. -/
def watchedRun
    (state : State) :
    List Token →
    Except Problem State
  | [] => .ok state
  | token :: rest =>
      match watchedStep state token with
      | .ok next => watchedRun next rest
      | .error problem => .error problem

/- The blocks of a JSON value. -/
def decodeBlocks
    (json : Json) : Except Mismatch (List Block) :=
  decode (.list (.block .words)) json

/- The blocks of a JSON text. -/
def readBlocks
    (source : String) : Except Problem (List Block) :=
  match watchedRun Json.start (Json.tokens source.toList) with
  | .error problem => .error problem
  | .ok state =>
      match state.finish with
      | .error why => .error (.fault why)
      | .ok json =>
          match decodeBlocks json with
          | .error why => .error (.mismatch why)
          | .ok blocks => .ok blocks

------------------------------------------------------------
-- Programs
------------------------------------------------------------

/- Read a program and check its tree. -/
def readProgram
    (source : String) : Except Error (List Block) :=
  match readBlocks source with
  | .error problem => .error (.json problem)
  | .ok blocks =>
      match checkTree blocks with
      | .error fault => .error (.tree fault)
      | .ok () => .ok blocks

end Wire

end BlockProgram
