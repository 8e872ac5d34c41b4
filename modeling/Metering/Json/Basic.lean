import Metering.Json.Token

/-!
This module contains JSON values, how they are written as tokens and as bytes, and how they are
built from tokens.

Building a value is the work of a machine with a stack of the arrays and objects that are still
open. It takes one token at a time, so values of any depth are built in constant space besides that
stack.
-/

namespace Metering

/--
A JSON value. The members of an object stand in the order in which they are written, and nothing
is said about their names.
-/
inductive Json where
  | null
  | bool (b : Bool)
  | number (n : Decimal.Numeral)
  | string (ps : List Json.Piece)
  | array (items : List Json)
  | object (members : List (List Json.Piece × Json))

namespace Json

/-!
## Writing
-/

mutual

def tokens : Json → List Token
  | null => [.null]
  | bool b => [.bool b]
  | number n => [.number n]
  | string ps => [.string ps]
  | array [] => [.openBracket, .closeBracket]
  | array (item :: items) => .openBracket :: tokens item ++ itemTokens items
  | object [] => [.openBrace, .closeBrace]
  | object ((name, item) :: members) =>
    .openBrace :: .string name :: .colon :: tokens item ++ memberTokens members

/--
The tokens of the items of an array after the first one, with the closing bracket.
-/
def itemTokens : List Json → List Token
  | [] => [.closeBracket]
  | item :: items => .comma :: tokens item ++ itemTokens items

def memberTokens : List (List Piece × Json) → List Token
  | [] => [.closeBrace]
  | (name, item) :: members =>
    .comma :: .string name :: .colon :: tokens item ++ memberTokens members

end

def bytes (j : Json) : Bytes :=
  j.tokens.flatMap Token.bytes

/-!
## Building
-/

/--
An array or an object that is still open, with the items or members built so far, the latest first.
An object that waits for an item holds the name the item will have.
-/
inductive Frame where
  | array (items : List Json)
  | object (members : List (List Piece × Json)) (name : List Piece)

inductive Waiting where
  | value
  | firstItem
  | firstName
  | name (members : List (List Piece × Json))
  | colon (members : List (List Piece × Json)) (name : List Piece)
  /-- What comes after a finished value: a comma, the end of what is open, or nothing at all. -/
  | next (j : Json)

structure Builder where
  waiting : Waiting
  frames : List Frame

namespace Builder

def start : Builder :=
  ⟨.value, []⟩

def value? (fs : List Frame) : Token → Option Builder
  | .null => some ⟨.next .null, fs⟩
  | .bool b => some ⟨.next (.bool b), fs⟩
  | .number n => some ⟨.next (.number n), fs⟩
  | .string ps => some ⟨.next (.string ps), fs⟩
  | .openBracket => some ⟨.firstItem, fs⟩
  | .openBrace => some ⟨.firstName, fs⟩
  | _ => none

def next? (j : Json) : List Frame → Token → Option Builder
  | .array items :: fs, .comma => some ⟨.value, .array (j :: items) :: fs⟩
  | .array items :: fs, .closeBracket => some ⟨.next (.array (j :: items).reverse), fs⟩
  | .object members name :: fs, .comma => some ⟨.name ((name, j) :: members), fs⟩
  | .object members name :: fs, .closeBrace =>
    some ⟨.next (.object ((name, j) :: members).reverse), fs⟩
  | _, _ => none

def step? (s : Builder) (t : Token) : Option Builder :=
  match s.waiting, t with
  | .value, t => value? s.frames t
  | .firstItem, .closeBracket => some ⟨.next (.array []), s.frames⟩
  | .firstItem, t => value? (.array [] :: s.frames) t
  | .firstName, .closeBrace => some ⟨.next (.object []), s.frames⟩
  | .firstName, .string ps => some ⟨.colon [] ps, s.frames⟩
  | .name members, .string ps => some ⟨.colon members ps, s.frames⟩
  | .colon members ps, .colon => some ⟨.value, .object members ps :: s.frames⟩
  | .next j, t => next? j s.frames t
  | _, _ => none

def run? : Builder → List Token → Option Builder
  | s, [] => some s
  | s, t :: ts =>
    match step? s t with
    | none => none
    | some s => run? s ts

def result? (s : Builder) : Option Json :=
  match s.waiting, s.frames with
  | .next j, [] => some j
  | _, _ => none

end Builder

def ofTokens? (ts : List Token) : Option Json :=
  (Builder.start.run? ts).bind Builder.result?

def ofBytes? (bs : Bytes) : Option Json :=
  (Token.list? bs).bind ofTokens?

end Json

end Metering
