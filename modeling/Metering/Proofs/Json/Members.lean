import Metering.Json.Members
import Metering.Proofs.Json.Basic
import Metering.Proofs.Traversal

/-!
This module contains that values are written correctly if their parts are, and how the members of an
object are found again under their names.
-/

namespace Metering.Json

theorem wellFormed_string (s : String) : WellFormed (.string (Piece.ofString s)) := by
  intro t ht
  rw [List.mem_singleton.1 ht]
  apply Piece.readable_ofString s

theorem wellFormed_number {n : Decimal.Numeral} (h : n.WellFormed) : WellFormed (.number n) := by
  intro t ht
  rw [List.mem_singleton.1 ht]
  exact h

theorem wellFormed_itemTokens {items : List Json} (h : ∀ j ∈ items, j.WellFormed) :
    ∀ t ∈ itemTokens items, t.WellFormed := by
  induction items with
  | nil =>
    simp only [itemTokens, List.forall_mem_singleton]
    trivial
  | cons item items ih =>
    rw [List.forall_mem_cons] at h
    simp only [itemTokens, List.cons_append, List.forall_mem_cons, List.forall_mem_append]
    exact ⟨trivial, h.1, ih h.2⟩

theorem wellFormed_array {items : List Json} (h : ∀ j ∈ items, j.WellFormed) :
    WellFormed (.array items) := by
  unfold WellFormed
  cases items with
  | nil =>
    simp only [tokens, List.forall_mem_cons]
    exact ⟨trivial, trivial, nofun⟩
  | cons item items =>
    rw [List.forall_mem_cons] at h
    simp only [tokens, List.cons_append, List.forall_mem_cons, List.forall_mem_append]
    exact ⟨trivial, h.1, wellFormed_itemTokens h.2⟩

theorem wellFormed_memberTokens {members : List (String × Json)}
    (h : ∀ m ∈ members, m.2.WellFormed) :
    ∀ t ∈ memberTokens (members.map fun m => member m.1 m.2), t.WellFormed := by
  induction members with
  | nil =>
    simp only [List.map_nil, memberTokens, List.forall_mem_singleton]
    trivial
  | cons m members ih =>
    rw [List.forall_mem_cons] at h
    simp only [member, List.map_cons, memberTokens, List.cons_append, List.forall_mem_cons,
      List.forall_mem_append]
    exact ⟨trivial, Piece.readable_ofString m.1, trivial, h.1, ih h.2⟩

theorem wellFormed_object {members : List (String × Json)} (h : ∀ m ∈ members, m.2.WellFormed) :
    WellFormed (.object (members.map fun m => member m.1 m.2)) := by
  unfold WellFormed
  cases members with
  | nil =>
    simp only [List.map_nil, tokens, List.forall_mem_cons]
    exact ⟨trivial, trivial, nofun⟩
  | cons m members =>
    rw [List.forall_mem_cons] at h
    simp only [member, List.map_cons, tokens, List.cons_append, List.forall_mem_cons,
      List.forall_mem_append]
    exact ⟨trivial, Piece.readable_ofString m.1, trivial, h.1, wellFormed_memberTokens h.2⟩

/-!
## Reading members
-/

theorem text?_string (s : String) : text? (.string (Piece.ofString s)) = some s :=
  Piece.text?_ofString s

theorem members?_object (members : List (String × Json)) :
    members? (.object (members.map fun m => member m.1 m.2)) = some members := by
  have hmapM : members? (.object (members.map fun m => member m.1 m.2))
      = pure (members.map id) := by
    apply mapM_map_eq_pure
    intro m _
    dsimp only [member]
    rw [Piece.text?_ofString]
    rfl
  rwa [List.map_id] at hmapM

theorem required?_of_named {α : Type} {members : List (String × Json)} {name : String} {j : Json}
    (h : named name members = [j]) (read? : Json → Option α) :
    required? members name read? = read? j := by
  unfold required?
  rw [h]

theorem optional?_of_named {α : Type} {members : List (String × Json)} {name : String} {j : Json}
    (h : named name members = [j]) (absent : α) (read? : Json → Option α) :
    optional? members name absent read? = read? j := by
  unfold optional?
  rw [h]

theorem optional?_of_absent {α : Type} {members : List (String × Json)} {name : String}
    (h : named name members = []) (absent : α) (read? : Json → Option α) :
    optional? members name absent read? = some absent := by
  unfold optional?
  rw [h]

theorem named_append (name : String) (ms ns : List (String × Json)) :
    named name (ms ++ ns) = named name ms ++ named name ns := by
  unfold named
  rw [List.filter_append, List.map_append]

end Metering.Json
