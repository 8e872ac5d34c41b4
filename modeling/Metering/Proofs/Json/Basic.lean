import Metering.Json.Basic
import Metering.Proofs.Json.Token

/-!
This module contains the ways of writing a JSON value. A byte sequence is read as a value exactly if
it is one of the ways of writing it.
-/

namespace Metering.Json

open Metering.Decimal

def WellFormed (j : Json) : Prop :=
  ∀ t ∈ j.tokens, t.WellFormed

/--
Whether a byte sequence is a way of writing a value: its tokens, each in a way of its own, with any
white space around them.
-/
def Written (j : Json) (bs : Bytes) : Prop :=
  Token.Spread j.tokens bs

/-!
## The tokens of a value can be told apart
-/

open Token (Apart)

mutual

theorem apart_tokens {ts : List Token} (hts : Apart ts) (h : ∀ u ∈ ts.head?, ¬u.IsNumber) :
    ∀ j : Json, Apart (j.tokens ++ ts)
  | null => ⟨nofun, hts⟩
  | bool _ => ⟨nofun, hts⟩
  | number _ => ⟨fun _ => h, hts⟩
  | string _ => ⟨nofun, hts⟩
  | array [] => ⟨nofun, nofun, hts⟩
  | array (item :: items) => by
    have hitems := apart_itemTokens hts items
    rw [tokens]
    simp only [List.cons_append, List.append_assoc]
    exact ⟨nofun, apart_tokens hitems.1 hitems.2 item⟩
  | object [] => ⟨nofun, nofun, hts⟩
  | object ((name, item) :: members) => by
    have hmembers := apart_memberTokens hts members
    rw [tokens]
    simp only [List.cons_append, List.append_assoc]
    exact ⟨nofun, nofun, nofun, apart_tokens hmembers.1 hmembers.2 item⟩

theorem apart_itemTokens {ts : List Token} (hts : Apart ts) :
    ∀ items : List Json, Apart (itemTokens items ++ ts)
      ∧ ∀ u ∈ (itemTokens items ++ ts).head?, ¬u.IsNumber
  | [] => ⟨⟨nofun, hts⟩, by rintro _ ⟨⟩; exact id⟩
  | item :: items => by
    have hitems := apart_itemTokens hts items
    rw [itemTokens]
    simp only [List.cons_append, List.append_assoc]
    refine ⟨⟨nofun, apart_tokens hitems.1 hitems.2 item⟩, ?_⟩
    rintro _ ⟨⟩
    exact id

theorem apart_memberTokens {ts : List Token} (hts : Apart ts) :
    ∀ members : List (List Piece × Json), Apart (memberTokens members ++ ts)
      ∧ ∀ u ∈ (memberTokens members ++ ts).head?, ¬u.IsNumber
  | [] => ⟨⟨nofun, hts⟩, by rintro _ ⟨⟩; exact id⟩
  | (name, item) :: members => by
    have hmembers := apart_memberTokens hts members
    rw [memberTokens]
    simp only [List.cons_append, List.append_assoc]
    refine ⟨⟨nofun, nofun, nofun, apart_tokens hmembers.1 hmembers.2 item⟩, ?_⟩
    rintro _ ⟨⟩
    exact id

end

/-!
## Building from tokens
-/

namespace Builder

theorem run?_firstItem (fs : List Frame) (j : Json) (ts : List Token) :
    run? ⟨.firstItem, fs⟩ (j.tokens ++ ts) = run? ⟨.value, .array [] :: fs⟩ (j.tokens ++ ts) := by
  cases j with
  | array items => cases items <;> rfl
  | object members => cases members <;> rfl
  | _ => rfl

mutual

theorem run?_tokens (fs : List Frame) (ts : List Token) :
    ∀ j : Json, run? ⟨.value, fs⟩ (j.tokens ++ ts) = run? ⟨.next j, fs⟩ ts
  | null => rfl
  | bool _ => rfl
  | number _ => rfl
  | string _ => rfl
  | array [] => rfl
  | array (item :: items) => by
    have hopen : run? ⟨.value, fs⟩ (tokens (array (item :: items)) ++ ts)
        = run? ⟨.firstItem, fs⟩ (item.tokens ++ (itemTokens items ++ ts)) := by
      rw [tokens]
      simp only [List.cons_append, List.append_assoc]
      rfl
    -- An item does not begin with the closing bracket.
    rw [hopen, run?_firstItem, run?_tokens _ _ item, run?_itemTokens fs ts [] item items]
    rfl
  | object [] => rfl
  | object ((name, item) :: members) => by
    have hopen : run? ⟨.value, fs⟩ (tokens (object ((name, item) :: members)) ++ ts)
        = run? ⟨.value, .object [] name :: fs⟩ (item.tokens ++ (memberTokens members ++ ts)) := by
      rw [tokens]
      simp only [List.cons_append, List.append_assoc]
      rfl
    rw [hopen, run?_tokens _ _ item, run?_memberTokens fs ts [] name item members]
    rfl

theorem run?_itemTokens (fs : List Frame) (ts : List Token) (done : List Json) (j : Json) :
    ∀ items : List Json, run? ⟨.next j, .array done :: fs⟩ (itemTokens items ++ ts)
      = run? ⟨.next (.array ((j :: done).reverse ++ items)), fs⟩ ts
  | [] => by
    rw [List.append_nil]
    rfl
  | item :: items => by
    have hcomma : run? ⟨.next j, .array done :: fs⟩ (itemTokens (item :: items) ++ ts)
        = run? ⟨.value, .array (j :: done) :: fs⟩ (item.tokens ++ (itemTokens items ++ ts)) := by
      rw [itemTokens]
      simp only [List.cons_append, List.append_assoc]
      rfl
    rw [hcomma, run?_tokens _ _ item, run?_itemTokens fs ts (j :: done) item items,
      List.reverse_cons, List.append_assoc, List.singleton_append]

theorem run?_memberTokens (fs : List Frame) (ts : List Token) (done : List (List Piece × Json))
    (name : List Piece) (j : Json) :
    ∀ members : List (List Piece × Json),
      run? ⟨.next j, .object done name :: fs⟩ (memberTokens members ++ ts)
        = run? ⟨.next (.object (((name, j) :: done).reverse ++ members)), fs⟩ ts
  | [] => by
    rw [List.append_nil]
    rfl
  | (next, item) :: members => by
    have hcomma : run? ⟨.next j, .object done name :: fs⟩
          (memberTokens ((next, item) :: members) ++ ts)
        = run? ⟨.value, .object ((name, j) :: done) next :: fs⟩
          (item.tokens ++ (memberTokens members ++ ts)) := by
      rw [memberTokens]
      simp only [List.cons_append, List.append_assoc]
      rfl
    rw [hcomma, run?_tokens _ _ item, run?_memberTokens fs ts ((name, j) :: done) next item members,
      List.reverse_cons, List.append_assoc, List.singleton_append]

end

end Builder

theorem ofTokens?_tokens (j : Json) : ofTokens? j.tokens = some j := by
  have hrun := Builder.run?_tokens [] [] j
  rw [List.append_nil] at hrun
  unfold ofTokens? Builder.start
  rw [hrun]
  rfl

/-!
## Nothing else is built
-/

/--
The tokens of an array up to the next item, if these items were built, the latest first.
-/
def beforeItem : List Json → List Token
  | [] => [.openBracket]
  | item :: items => beforeItem items ++ (item.tokens ++ [.comma])

def beforeName : List (List Piece × Json) → List Token
  | [] => [.openBrace]
  | (name, item) :: members =>
    beforeName members ++ (.string name :: .colon :: (item.tokens ++ [.comma]))

theorem beforeItem_append (items : List Json) (item : Json) (after : List Json) :
    beforeItem items ++ (item.tokens ++ itemTokens after)
      = (array ((item :: items).reverse ++ after)).tokens := by
  induction items generalizing item after with
  | nil => rfl
  | cons item' items ih =>
    have hnext := ih item' (item :: after)
    rw [itemTokens] at hnext
    rw [List.reverse_cons, List.append_assoc, List.singleton_append, ← hnext, beforeItem]
    simp only [List.cons_append, List.append_assoc, List.nil_append]

theorem beforeName_append (members : List (List Piece × Json)) (name : List Piece) (item : Json)
    (after : List (List Piece × Json)) :
    beforeName members ++ (.string name :: .colon :: (item.tokens ++ memberTokens after))
      = (object (((name, item) :: members).reverse ++ after)).tokens := by
  induction members generalizing name item after with
  | nil => rfl
  | cons m members ih =>
    obtain ⟨name', item'⟩ := m
    have hnext := ih name' item' ((name, item) :: after)
    rw [memberTokens] at hnext
    rw [List.reverse_cons, List.append_assoc, List.singleton_append, ← hnext, beforeName]
    simp only [List.cons_append, List.append_assoc, List.nil_append]

namespace Builder

def frameTokens : Frame → List Token
  | .array items => beforeItem items
  | .object members name => beforeName members ++ [.string name, .colon]

def framesTokens : List Frame → List Token
  | [] => []
  | f :: fs => framesTokens fs ++ frameTokens f

def waitingTokens : Waiting → List Token
  | .value => []
  | .firstItem => [.openBracket]
  | .firstName => [.openBrace]
  | .name members => beforeName members
  | .colon members name => beforeName members ++ [.string name]
  | .next j => j.tokens

/--
The tokens that were taken to get here.
-/
def taken (s : Builder) : List Token :=
  framesTokens s.frames ++ waitingTokens s.waiting

theorem taken_value? {fs : List Frame} {t : Token} {s : Builder} (h : value? fs t = some s) :
    s.taken = framesTokens fs ++ [t] := by
  unfold value? at h
  split at h <;> cases h <;> rfl

theorem taken_next? {j : Json} {fs : List Frame} {t : Token} {s : Builder}
    (h : next? j fs t = some s) : s.taken = framesTokens fs ++ j.tokens ++ [t] := by
  unfold next? at h
  split at h
  . cases h
    simp [taken, framesTokens, frameTokens, waitingTokens, beforeItem]
  . next items fs =>
    cases h
    have hclose := beforeItem_append items j []
    rw [List.append_nil] at hclose
    show framesTokens fs ++ (array (j :: items).reverse).tokens = _
    rw [← hclose]
    simp [framesTokens, frameTokens, itemTokens]
  . cases h
    simp [taken, framesTokens, frameTokens, waitingTokens, beforeName]
  . next members name fs =>
    cases h
    have hclose := beforeName_append members name j []
    rw [List.append_nil] at hclose
    show framesTokens fs ++ (object ((name, j) :: members).reverse).tokens = _
    rw [← hclose]
    simp [framesTokens, frameTokens, memberTokens]
  . cases h

theorem taken_step? {s s' : Builder} {t : Token} (h : s.step? t = some s') :
    s'.taken = s.taken ++ [t] := by
  unfold step? at h
  split at h
  . next hwaiting =>
    rw [taken_value? h]
    simp [taken, hwaiting, waitingTokens]
  . next hwaiting =>
    cases h
    simp [taken, hwaiting, waitingTokens, tokens]
  . next hwaiting _ =>
    rw [taken_value? h]
    simp [taken, hwaiting, waitingTokens, framesTokens, frameTokens, beforeItem]
  . next hwaiting =>
    cases h
    simp [taken, hwaiting, waitingTokens, tokens]
  . next hwaiting =>
    cases h
    simp [taken, hwaiting, waitingTokens, beforeName]
  . next hwaiting =>
    cases h
    simp [taken, hwaiting, waitingTokens]
  . next hwaiting =>
    cases h
    simp [taken, hwaiting, waitingTokens, framesTokens, frameTokens]
  . next hwaiting =>
    rw [taken_next? h]
    simp [taken, hwaiting, waitingTokens]
  . cases h

theorem taken_run? {s s' : Builder} {ts : List Token} (h : s.run? ts = some s') :
    s'.taken = s.taken ++ ts := by
  induction ts generalizing s with
  | nil =>
    cases h
    rw [List.append_nil]
  | cons t ts ih =>
    unfold run? at h
    split at h
    . cases h
    . next s₁ hstep => rw [ih h, taken_step? hstep, List.append_assoc, List.singleton_append]

end Builder

theorem ofTokens?_eq_some_iff {ts : List Token} {j : Json} :
    ofTokens? ts = some j ↔ ts = j.tokens := by
  constructor
  . intro h
    obtain ⟨s, hrun, hresult⟩ := Option.bind_eq_some_iff.1 h
    have htaken := Builder.taken_run? hrun
    obtain ⟨waiting, fs⟩ := s
    unfold Builder.result? at hresult
    split at hresult
    . next hwaiting hfs =>
      cases hresult
      cases hwaiting
      cases hfs
      exact htaken.symm
    . cases hresult
  . rintro rfl
    apply ofTokens?_tokens

/--
Bytes are read as the values that they are ways of writing.
-/
theorem ofBytes?_eq_some_iff {bs : Bytes} {j : Json} : ofBytes? bs = some j ↔ j.Written bs := by
  unfold ofBytes? Written
  rw [Option.bind_eq_some_iff]
  constructor
  . rintro ⟨ts, hts, hj⟩
    rw [← ofTokens?_eq_some_iff.1 hj]
    apply Token.spread_of_list? hts
  . intro h
    have hnil : Apart [] := trivial
    have hapart := apart_tokens hnil nofun j
    rw [List.append_nil] at hapart
    exact ⟨j.tokens, h.list? hapart, ofTokens?_tokens j⟩

theorem ofBytes?_bytes {j : Json} (h : j.WellFormed) : ofBytes? j.bytes = some j :=
  ofBytes?_eq_some_iff.2 (Token.spread_flatMap_bytes h)

end Metering.Json
