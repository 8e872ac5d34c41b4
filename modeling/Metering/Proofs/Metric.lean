import Metering.Metric.Basic
import Metering.Proofs.Double.Numeral
import Metering.Proofs.Json.Members

/-!
This module contains that values and kinds are read back from their JSON. A number that is not
finite is read back as its name, which is a text until the kind of the metric is known.
-/

namespace Metering

namespace Value

/--
What is read back for a value.
-/
def written : Value → Value
  | double x => if x.isFinite then double x else text x.nonFiniteName
  | v => v

def canonical : Value → Value
  | double x => double x.canonical
  | v => v

theorem wellFormed_toJson (v : Value) : v.toJson.WellFormed := by
  cases v with
  | integer n => apply Json.wellFormed_number (Decimal.Numeral.wellFormed_ofInt _)
  | double x =>
    simp only [toJson]
    split
    . apply Json.wellFormed_number (Double.wellFormed_numeral _ x)
    . apply Json.wellFormed_string
  | text s => apply Json.wellFormed_string s

theorem ofNumeral?_numeral {x : Double} (h : x.isFinite) :
    ofNumeral? (x.numeral .snapshot) = some (double x) := by
  have hstyle : ∀ e, Double.Style.snapshot.positional e → e < 700 := by
    intro e he
    simp only [Double.Style.snapshot, Bool.and_eq_true, decide_eq_true_eq] at he
    omega
  unfold ofNumeral?
  rw [Double.toInt?_numeral (by decide), Option.bind_none]
  dsimp only
  rw [Double.ofNumeral?_numeral h hstyle, Option.map_some]

theorem ofJson?_toJson (v : Value) : ofJson? v.toJson = some v.written := by
  cases v with
  | integer n =>
    simp only [toJson, ofJson?, ofNumeral?, Decimal.Numeral.toInt?_ofInt, Option.bind_some,
      Integer.ofInt?_toInt]
    rfl
  | double x =>
    simp only [toJson, written]
    split
    . next hfinite => apply ofNumeral?_numeral hfinite
    . simp only [ofJson?, Json.Piece.text?_ofString, Option.map_some]
  | text s =>
    simp only [toJson, ofJson?, Json.Piece.text?_ofString, Option.map_some]
    rfl

end Value

namespace Kind

theorem wellFormed_toJson (k : Kind) : k.toJson.WellFormed :=
  Json.wellFormed_string k.name

theorem ofJson?_toJson (k : Kind) : ofJson? k.toJson = some k := by
  simp only [toJson, ofJson?, Json.Piece.text?_ofString, Option.bind_some, ofName?_name]

end Kind

/-!
## Taking values back for a kind
-/

namespace Reading

def canonical : Reading → Reading
  | doubleGauge x => doubleGauge x.canonical
  | r => r

@[simp]
theorem value_canonical (r : Reading) : r.canonical.value = r.value.canonical := by
  cases r <;> rfl

/--
The name of a number that is not finite is taken for the number on a double gauge only, where no
text can stand.
-/
theorem ofValue?_written (r : Reading) : ofValue? r.kind r.value.written = some r.canonical := by
  cases r with
  | doubleGauge x =>
    simp only [value, kind, Value.written]
    split
    . next hfinite =>
      simp only [ofValue?, Value.double?, canonical, Double.canonical_of_isFinite hfinite,
        Option.map_some]
    . next hinfinite =>
      simp only [ofValue?, Value.double?, canonical,
        Double.ofNonFiniteName?_nonFiniteName hinfinite, Option.map_some]
  | _ => rfl

end Reading

end Metering
