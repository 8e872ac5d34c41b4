import Metering.Double.Nearest
import Metering.Double.Notation
import Metering.Integer
import Metering.Json.Members
import Metering.Metric.Kind
import Metering.Text.Quoted

/-!
This module contains the values of metrics apart from the metrics: their texts and their JSON.
-/

namespace Metering

/--
A value that is not yet known to fit a metric. Doubles are equal here if their bits are.
-/
inductive Value where
  | integer (n : Int64)
  | double (x : Double)
  | text (s : String)
  deriving DecidableEq

namespace Value

def agrees : Value → Value → Bool
  | integer n, integer m => n = m
  | double x, double y => x.agrees y
  | text s, text t => s = t
  | _, _ => false

def display : Value → String
  | integer n => Integer.text n
  | double x => x.text .plain
  | text s => s

/--
The text of a value in a message, which shows what kind of value it is.
-/
def describe : Value → String
  | integer n => "Integer(" ++ Integer.text n ++ ")"
  | double x => "Double(" ++ x.text .message ++ ")"
  | text s => "Text(" ++ Text.quoted s ++ ")"

/--
The JSON of a value. Numbers that are not finite have no JSON and are replaced by their names.
-/
def toJson : Value → Json
  | integer n => .number (.ofInt n.toInt)
  | double x =>
    if x.isFinite then .number (x.numeral .snapshot)
    else .string (Json.Piece.ofString x.nonFiniteName)
  | text s => .string (Json.Piece.ofString s)

/--
The value of a numeral: an integer if it spells one out that has 64 bits, and otherwise a double.
-/
def ofNumeral? (n : Decimal.Numeral) : Option Value :=
  match n.toInt?.bind Integer.ofInt? with
  | some i => some (integer i)
  | none => (Double.ofNumeral? n).map double

def ofJson? : Json → Option Value
  | .number n => ofNumeral? n
  | .string ps => (Json.Piece.text? ps).map text
  | _ => none

end Value

namespace Kind

def toJson (k : Kind) : Json :=
  .string (Json.Piece.ofString k.name)

/--
A kind is read from its name, or from an object whose only member has that name and the value null.
-/
def ofJson? : Json → Option Kind
  | .string ps => (Json.Piece.text? ps).bind ofName?
  | .object [(ps, .null)] => (Json.Piece.text? ps).bind ofName?
  | _ => none

end Kind

end Metering
