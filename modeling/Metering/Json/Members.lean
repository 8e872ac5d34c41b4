import Metering.Json.Basic

/-!
This module contains the members of objects by name, and the reading of JSON values as texts,
integers and objects with named members.
-/

namespace Metering.Json

def member (name : String) (j : Json) : List Piece × Json :=
  (Piece.ofString name, j)

def text? : Json → Option String
  | string ps => Piece.text? ps
  | _ => none

def int? : Json → Option Int
  | number n => n.toInt?
  | _ => none

def items? : Json → Option (List Json)
  | array items => some items
  | _ => none

def members? : Json → Option (List (String × Json))
  | object members => members.mapM fun (name, j) => (Piece.text? name).map (·, j)
  | _ => none

def named (name : String) (members : List (String × Json)) : List Json :=
  (members.filter (·.1 = name)).map (·.2)

/--
Read the member with a name, which there has to be exactly once.
-/
def required? (members : List (String × Json)) (name : String) (read? : Json → Option α) :
    Option α :=
  match named name members with
  | [j] => read? j
  | _ => none

/--
Read the member with a name, which there may be at most once.
-/
def optional? (members : List (String × Json)) (name : String) (absent : α)
    (read? : Json → Option α) : Option α :=
  match named name members with
  | [] => some absent
  | [j] => read? j
  | _ => none

end Metering.Json
