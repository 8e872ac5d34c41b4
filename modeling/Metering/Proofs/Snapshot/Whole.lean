import Metering.Proofs.Double.Numeral
import Metering.Proofs.Metric.Whole
import Metering.Proofs.Snapshot.Slot
import Metering.Proofs.Snapshot.Validation

/-!
This module contains that a whole number is decoded alike with a point and without, wherever a
snapshot carries a value of a gauge for doubles, and as which number.
-/

namespace Metering

open Decimal

/-!
## Another value in one place
-/

namespace Tracked

open Snapshot (Place)

def valueAt? (t : Tracked) (place : Place) : Option Value :=
  place.of? t.current.value t.history

/--
A metric with a double in one place, all else being left as it is.
-/
def putDouble (x : Double) (t : Tracked) : Place → Tracked
  | .value => { t with current := { t.current with reading := .doubleGauge x } }
  | .history i => { t with history := t.history.modify i fun r => { r with value := .double x } }

theorem valueAt?_putDouble {x : Double} {t : Tracked} {place : Place}
    (h : (t.valueAt? place).isSome) : (t.putDouble x place).valueAt? place = some (.double x) := by
  cases place with
  | value => rfl
  | history i =>
    have hi := Snapshot.Place.isSome_of?_history_iff.1 h
    simp [valueAt?, Place.of?, putDouble, hi]

end Tracked

namespace Snapshot

theorem mapM_modify {ε α β : Type} {f : α → Except ε β} {g g' : α → α} {h : β → β}
    (hfg : ∀ a, f (g a) = (f (g' a)).map h) (as : List α) (i : Nat) :
    (as.modify i g).mapM f = ((as.modify i g').mapM f).map (·.modify i h) := by
  induction as generalizing i with
  | nil =>
    rw [List.modify_nil, List.modify_nil, List.mapM_nil]
    show _ = Except.ok (List.modify [] i h)
    rw [List.modify_nil]
    rfl
  | cons a as ih =>
    cases i with
    | zero =>
      simp only [List.modify_zero_cons, List.mapM_cons, hfg]
      cases f (g' a) with
      | error e => rfl
      | ok b => cases as.mapM f <;> rfl
    | succ i =>
      simp only [List.modify_succ_cons, List.mapM_cons, ih]
      cases f a with
      | error e => rfl
      | ok b => cases (as.modify i g').mapM f <;> rfl

namespace Entry

variable {e : Entry} {a b : Value} {x : Double}

theorem checkHistory_put (v : Value) (e : Entry) (place : Place) :
    (e.put v place).checkHistory = e.checkHistory := by
  cases place with
  | value => rfl
  | history i =>
    unfold checkHistory put
    simp only [List.modify_eq_nil_iff]

theorem exists_stores_double (h : Kind.doubleGauge.Holds a) :
    ∃ y, Kind.doubleGauge.Stores a (.double y) := by
  obtain ⟨w, hw⟩ := h
  cases hw <;> exact ⟨_, by constructor⟩

theorem checkRecord_of_stores (h : Kind.doubleGauge.Stores a (.double x)) (name : String)
    (r : Record) :
    checkRecord name .doubleGauge { r with value := a } = .ok { r with value := .double x } :=
  checkRecord_eq_ok_iff.2 ⟨h, rfl⟩

theorem ofParts_of_stores (h : Kind.doubleGauge.Stores a (.double x)) (name description : String)
    (timestamp : Int64) :
    Metric.ofParts .doubleGauge name description a timestamp
      = .ok ⟨name, description, .doubleGauge x, timestamp⟩ :=
  Metric.ofParts_eq_ok_iff.2 ⟨rfl, rfl, rfl, rfl, h⟩

/--
Which of the values that it can hold is given to a gauge for doubles only shows in what is stored
for it.
-/
theorem toTracked_put (hkind : e.kind = .doubleGauge) (ha : Kind.doubleGauge.Stores a (.double x))
    (hb : Kind.doubleGauge.Holds b) (place : Place) :
    (e.put a place).toTracked = ((e.put b place).toTracked).map (·.putDouble x place) := by
  obtain ⟨y, hy⟩ := exists_stores_double hb
  unfold toTracked
  rw [checkHistory_put, checkHistory_put]
  cases e.checkHistory with
  | error f => rfl
  | ok _ =>
    cases place with
    | value =>
      simp only [put, hkind, ofParts_of_stores ha, ofParts_of_stores hy]
      cases e.history.mapM (checkRecord e.name .doubleGauge) <;> rfl
    | history i =>
      have hrecord (r : Record) : checkRecord e.name .doubleGauge { r with value := a }
          = (checkRecord e.name .doubleGauge { r with value := b }).map
            fun r => { r with value := .double x } := by
        rw [checkRecord_of_stores ha, checkRecord_of_stores hy]
        rfl
      simp only [put, hkind, mapM_modify hrecord]
      cases (e.history.modify i fun r => { r with value := b }).mapM
          (checkRecord e.name .doubleGauge) with
      | error f => rfl
      | ok rs => cases Metric.ofParts .doubleGauge e.name e.description e.value e.timestamp <;> rfl

theorem valueAt?_of_toTracked_put (hkind : e.kind = .doubleGauge)
    (ha : Kind.doubleGauge.Stores a (.double x)) {place : Place}
    (hplace : (e.valueAt? place).isSome) {t : Tracked} (ht : (e.put a place).toTracked = .ok t) :
    t.valueAt? place = some (.double x) := by
  have hput := toTracked_put hkind ha ⟨_, ha⟩ place
  rw [ht] at hput
  have hsame : t = t.putDouble x place := Except.ok.inj hput
  rw [hsame]
  apply Tracked.valueAt?_putDouble
  cases place with
  | value => rfl
  | history i =>
    have hlength := (toTracked_eq_ok_iff_tells.1 ht).2.history.length_eq
    have hi := Place.isSome_of?_history_iff.1 hplace
    apply Place.isSome_of?_history_iff.2
    simp only [put, List.length_modify] at hlength
    omega

end Entry

theorem checkEntries_put {e : Entry} {a b : Value} {x : Double} (hkind : e.kind = .doubleGauge)
    (ha : Kind.doubleGauge.Stores a (.double x)) (hb : Kind.doubleGauge.Holds b) (place : Place)
    (seen : List String) (before after : List Entry) :
    checkEntries seen (before ++ e.put a place :: after)
      = (checkEntries seen (before ++ e.put b place :: after)).map
        fun ts => ts.modify before.length (·.putDouble x place) := by
  have hname (v : Value) : (e.put v place).name = e.name := by cases place <;> rfl
  induction before generalizing seen with
  | nil =>
    simp only [List.nil_append, checkEntries, hname]
    split
    . rfl
    . rw [Entry.toTracked_put hkind ha hb]
      cases (e.put b place).toTracked with
      | error f => rfl
      | ok t => cases checkEntries (e.name :: seen) after <;> rfl
  | cons d before ih =>
    simp only [List.cons_append, checkEntries, ih]
    split
    . rfl
    . cases d.toTracked with
      | error f => rfl
      | ok t => cases checkEntries (d.name :: seen) (before ++ e.put b place :: after) <;> rfl

/-!
## Decoding
-/

variable {slot : Json → Json} {place : Place} {before after : List Json} {v w : Json}
  {a b : Value} {x : Double}

/--
The bytes of a list of entries in which a value `j` stands in a place.
-/
def Carries (bs : Bytes) (before : List Json) (slot : Json → Json) (j : Json) (after : List Json) :
    Prop :=
  Json.ofBytes? bs = some (.array (before ++ slot j :: after))

theorem exists_entries? (hslot : Slot .doubleGauge place slot) (before after : List Json) :
    ∃ parts? : Option (List Entry × Entry × List Entry),
      (∀ p ∈ parts?, p.1.length = before.length ∧ p.2.1.kind = .doubleGauge
        ∧ (p.2.1.valueAt? place).isSome)
      ∧ ∀ bs j, Carries bs before slot j after →
        entries? bs = (Value.ofJson? j).bind fun v =>
          parts?.map fun p => p.1 ++ p.2.1.put v place :: p.2.2 := by
  obtain ⟨e?, he, hread⟩ := hslot.ofJson?
  have hentries (bs : Bytes) (j : Json) (h : Carries bs before slot j after) : entries? bs
      = (Entry.ofJson? (slot j)).bind fun e =>
        (around? Entry.ofJson? before after).map fun p => p.1 ++ e :: p.2 := by
    unfold entries?
    rw [h, Option.bind_some]
    exact mapM_middle
  cases e? with
  | none => exact ⟨none, nofun, fun bs j h => by rw [hentries bs j h, hread]; simp⟩
  | some e =>
    cases haround : around? Entry.ofJson? before after with
    | none => exact ⟨none, nofun, fun bs j h => by rw [hentries bs j h, haround]; simp⟩
    | some p =>
      refine ⟨some (p.1, e, p.2), ?_, ?_⟩
      . rintro _ ⟨⟩
        exact ⟨length_of_around? haround, he e rfl⟩
      . intro bs j h
        rw [hentries bs j h, hread, haround]
        cases Value.ofJson? j <;> rfl

theorem decode_eq_map {bs bs' : Bytes} (hslot : Slot .doubleGauge place slot)
    (hbs : Carries bs before slot v after) (hbs' : Carries bs' before slot w after)
    (hv : Value.ofJson? v = some a) (ha : Kind.doubleGauge.Stores a (.double x))
    (hw : Value.ofJson? w = some b) (hb : Kind.doubleGauge.Holds b) :
    decode bs = (decode bs').map fun ts => ts.modify before.length (·.putDouble x place) := by
  obtain ⟨parts?, hparts, hread⟩ := exists_entries? hslot before after
  unfold decode
  rw [hread bs v hbs, hread bs' w hbs', hv, hw]
  cases parts? with
  | none => rfl
  | some p =>
    obtain ⟨hlength, hkind, -⟩ := hparts p rfl
    simp only [Option.bind_some, Option.map_some,
      checkEntries_put hkind ha hb place [] p.1 p.2.2, hlength]
    cases checkEntries [] (p.1 ++ p.2.1.put b place :: p.2.2) <;> rfl

theorem valueAt?_of_decode {bs : Bytes} (hslot : Slot .doubleGauge place slot)
    (hbs : Carries bs before slot v after) (hv : Value.ofJson? v = some a)
    (ha : Kind.doubleGauge.Stores a (.double x)) {ts : List Tracked} (hts : decode bs = .ok ts) :
    ∃ t, ts[before.length]? = some t ∧ t.valueAt? place = some (.double x) := by
  obtain ⟨parts?, hparts, hread⟩ := exists_entries? hslot before after
  obtain ⟨es, hes, hcheck⟩ := decode_eq_ok_iff.1 hts
  rw [hread bs v hbs, hv] at hes
  obtain ⟨p, hp, rfl⟩ := Option.map_eq_some_iff.1 hes
  obtain ⟨hlength, hkind, hplace⟩ := hparts p hp
  have hall := (checkEntries_eq_ok_iff.1 hcheck).2
  have hi : before.length < (p.1 ++ p.2.1.put a place :: p.2.2).length := by
    rw [List.length_append, List.length_cons]
    omega
  have hi' : before.length < ts.length := hall.length_eq ▸ hi
  refine ⟨ts[before.length], List.getElem?_eq_getElem hi', ?_⟩
  apply Entry.valueAt?_of_toTracked_put hkind ha hplace
  have hentry := hall.get hi hi'
  simpa [← hlength] using hentry

/--
A number that is too large for a double is not decoded.
-/
theorem decode_eq_error {bs : Bytes} (hslot : Slot .doubleGauge place slot)
    (hbs : Carries bs before slot v after) (hv : Value.ofJson? v = none) :
    decode bs = .error .decode := by
  obtain ⟨parts?, -, hread⟩ := exists_entries? hslot before after
  unfold decode
  rw [hread bs v hbs, hv]
  rfl

/--
A whole number is decoded alike with a point and without. If it is too large for a double, neither
is decoded. Else what is stored for it is the nearest double, with its sign, and a snapshot with any
other value in the place is decoded the same, error or not, but for what is stored there.
-/
theorem decode_withPoint {n : Numeral} (hn : n.Whole) (hslot : Slot .doubleGauge place slot)
    {bs bs' : Bytes} (hbs : Carries bs before slot (.number n) after)
    (hbs' : Carries bs' before slot (.number n.withPoint) after) :
    decode bs = decode bs'
      ∧ (2 ^ 1024 - 2 ^ 970 ≤ n.coefficient → decode bs = .error .decode)
      ∧ (n.coefficient < 2 ^ 1024 - 2 ^ 970 → ∃ x : Double,
        x.negative = n.negative ∧ x.NearestTo n.integer
          ∧ (∀ ts, decode bs = .ok ts →
            ∃ t, ts[before.length]? = some t ∧ t.valueAt? place = some (.double x))
          ∧ ∀ bs'' v w, Carries bs'' before slot v after → Value.ofJson? v = some w →
            Kind.doubleGauge.Holds w →
            decode bs = (decode bs'').map
              fun ts => ts.modify before.length (·.putDouble x place)) := by
  have hpoint := Value.ofNumeral?_withPoint hn
  by_cases hlt : n.coefficient < 2 ^ 1024 - 2 ^ 970
  . obtain ⟨v, hv, hstores⟩ := Value.stores_of_whole hn hlt
    rw [hn.ofNumeral?_eq, if_neg (Nat.not_le_of_lt hlt)] at hpoint
    refine ⟨?_, fun hle => absurd hlt (Nat.not_lt_of_le hle), fun _ => ⟨Double.ofWhole n,
      Double.negative_ofWhole, Double.nearestTo_ofWhole hlt, ?_, ?_⟩⟩
    . have hsame := decode_eq_map hslot hbs' hbs' hpoint (.doubleGauge _) hpoint ⟨_, .doubleGauge _⟩
      rw [hsame]
      exact decode_eq_map hslot hbs hbs' hv hstores hpoint ⟨_, .doubleGauge _⟩
    . intro ts hts
      exact valueAt?_of_decode hslot hbs hv hstores hts
    . intro bs'' v w hbs'' hw hholds
      exact decode_eq_map hslot hbs hbs'' hv hstores hw hholds
  . have hle := Nat.le_of_not_lt hlt
    rw [hn.ofNumeral?_eq, if_pos hle] at hpoint
    have herror := decode_eq_error hslot hbs (Value.ofNumeral?_of_le hn hle)
    refine ⟨?_, fun _ => herror, fun h => absurd h hlt⟩
    rw [herror, decode_eq_error hslot hbs' hpoint]

theorem carries_of_tokens {bs : Bytes} {j : Json}
    (h : Json.Token.list? bs = some (Json.array [slot j]).tokens) : Carries bs [] slot j [] := by
  unfold Carries Json.ofBytes?
  rw [h, Option.bind_some, Json.ofTokens?_tokens]
  rfl

/--
The least whole number that is no double lies halfway between two of them.
-/
theorem decode_withPoint_odd :
    let whole := Bytes.ofString <|
      "[[\"double_gauge\",\"load\",\"\",9007199254740993,7,1,[[2,6]]]]"
    let pointed := Bytes.ofString <|
      "[[\"double_gauge\",\"load\",\"\",9007199254740993.0,7,1,[[2,6]]]]"
    decode whole = decode pointed ∧ ∃ ts t x, decode whole = .ok ts ∧ ts[0]? = some t
      ∧ t.valueAt? .value = some (.double x) ∧ x.negative = false
      ∧ x.NearestTo 9007199254740993 := by
  intro whole pointed
  let n := Numeral.ofInt 9007199254740993
  let slot (j : Json) : Json := .array <|
    [.string (Json.Piece.ofString "double_gauge"), .string (Json.Piece.ofString "load"),
      .string [], j, .number (.ofInt 7), .number (.ofInt 1),
      .array [.array [.number (.ofInt 2), .number (.ofInt 6)]]]
  have hn : n.Whole := ⟨Numeral.wellFormed_ofInt _, rfl, rfl⟩
  have hslot : Slot .doubleGauge .value slot := .item (by decide +kernel) _ _ _ _ _
  have hwhole : Carries whole [] slot (.number n) [] := carries_of_tokens (by decide +kernel)
  have hpointed : Carries pointed [] slot (.number n.withPoint) [] :=
    carries_of_tokens (by decide +kernel)
  obtain ⟨hsame, -, hnear⟩ := decode_withPoint hn hslot hwhole hpointed
  obtain ⟨x, hnegative, hnearest, hstored, -⟩ := hnear (by decide +kernel)
  have hok : (decode whole).toOption.isSome := by decide +kernel
  obtain ⟨ts, hts⟩ := Option.isSome_iff_exists.1 hok
  have hts : decode whole = .ok ts := by
    cases hdecode : decode whole with
    | error f =>
      rw [hdecode] at hts
      cases hts
    | ok us =>
      rw [hdecode] at hts
      cases hts
      rfl
  obtain ⟨t, ht, hvalue⟩ := hstored ts hts
  have hinteger : n.integer = 9007199254740993 := by decide +kernel
  exact ⟨hsame, ts, t, x, hts, ht, hvalue, hnegative, hinteger ▸ hnearest⟩

end Snapshot

end Metering
