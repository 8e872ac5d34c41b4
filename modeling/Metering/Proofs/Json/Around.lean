import Metering.Proofs.Json.Members
import Metering.Proofs.Traversal

/-!
This module contains what is read of a list or of an object around one of its members.
-/

namespace Metering

section

variable {α β : Type} {f : α → Option β} {before after : List α} {a : α}

/--
What is read from the members of a list before and after one of them.
-/
def around? (f : α → Option β) (before after : List α) : Option (List β × List β) :=
  (before.mapM f).bind fun bs => (after.mapM f).map (bs, ·)

theorem mapM_middle :
    (before ++ a :: after).mapM f
      = (f a).bind fun b => (around? f before after).map fun p => p.1 ++ b :: p.2 := by
  unfold around?
  rw [List.mapM_append, List.mapM_cons]
  cases before.mapM f <;> cases f a <;> cases after.mapM f <;> rfl

theorem mapM_append_eq_around? :
    (before ++ after).mapM f = (around? f before after).map fun p => p.1 ++ p.2 := by
  unfold around?
  rw [List.mapM_append]
  cases before.mapM f <;> cases after.mapM f <;> rfl

theorem around?_eq_some_iff {p : List β × List β} :
    around? f before after = some p ↔ before.mapM f = some p.1 ∧ after.mapM f = some p.2 := by
  obtain ⟨bs, cs⟩ := p
  simp [around?, Option.bind_eq_some_iff]

theorem length_of_around? {p : List β × List β} (h : around? f before after = some p) :
    p.1.length = before.length :=
  (mapM_eq_some_iff.1 (around?_eq_some_iff.1 h).1).length_eq.symm

theorem exists_of_mapM_eq_middle {as : List α} {bs cs : List β} {b : β}
    (h : as.mapM f = some (bs ++ b :: cs)) :
    ∃ before a after, as = before ++ a :: after ∧ f a = some b
      ∧ around? f before after = some (bs, cs) := by
  simp only [around?_eq_some_iff]
  induction as generalizing bs with
  | nil => cases bs <;> cases h
  | cons a as ih =>
    rw [List.mapM_cons] at h
    obtain ⟨d, hd, h⟩ := Option.bind_eq_some_iff.1 h
    obtain ⟨ds, hds, h⟩ := Option.bind_eq_some_iff.1 h
    cases bs with
    | nil =>
      cases h
      exact ⟨[], a, as, rfl, hd, rfl, hds⟩
    | cons _ bs =>
      cases h
      obtain ⟨before, a', after, rfl, ha', hbefore, hafter⟩ := ih hds
      refine ⟨a :: before, a', after, rfl, ha', ?_, hafter⟩
      rw [List.mapM_cons, hd, hbefore]
      rfl

theorem modify_middle (g : β → β) (bs : List β) (b : β) (cs : List β) :
    (bs ++ b :: cs).modify bs.length g = bs ++ g b :: cs := by
  induction bs with
  | nil => rfl
  | cons c bs ih => simp [ih]

end

namespace Json

def memberOf? (m : List Piece × Json) : Option (String × Json) :=
  (Piece.text? m.1).map (·, m.2)

theorem memberOf?_of_text? {name : List Piece} {text : String} (h : Piece.text? name = some text)
    (j : Json) : memberOf? (name, j) = some (text, j) := by
  unfold memberOf?
  rw [h, Option.map_some]

theorem members?_eq (members : List (List Piece × Json)) :
    members? (.object members) = members.mapM memberOf? := rfl

theorem named_middle (name : String) (ms ns : List (String × Json)) (j : Json) :
    named name (ms ++ (name, j) :: ns) = named name ms ++ j :: named name ns := by
  simp [named]

theorem named_middle_of_ne {name name' : String} (h : name ≠ name') (ms ns : List (String × Json))
    (j : Json) : named name' (ms ++ (name, j) :: ns) = named name' (ms ++ ns) := by
  simp [named, h]

/--
A member that is read has no other of its name beside it.
-/
theorem required?_middle {α : Type} (name : String) (ms ns : List (String × Json)) (j : Json)
    (read? : Json → Option α) :
    required? (ms ++ (name, j) :: ns) name read?
      = if named name (ms ++ ns) = [] then read? j else none := by
  unfold required?
  rw [named_middle, named_append]
  cases named name ms with
  | nil => cases named name ns <;> rfl
  | cons m ms => cases ms <;> rfl

theorem required?_middle_of_ne {α : Type} {name name' : String} (h : name ≠ name')
    (ms ns : List (String × Json)) (j : Json) (read? : Json → Option α) :
    required? (ms ++ (name, j) :: ns) name' read? = required? (ms ++ ns) name' read? := by
  unfold required?
  rw [named_middle_of_ne h]

theorem optional?_middle {α : Type} (name : String) (ms ns : List (String × Json)) (j : Json)
    (absent : α) (read? : Json → Option α) :
    optional? (ms ++ (name, j) :: ns) name absent read?
      = if named name (ms ++ ns) = [] then read? j else none := by
  unfold optional?
  rw [named_middle, named_append]
  cases named name ms with
  | nil => cases named name ns <;> rfl
  | cons m ms => cases ms <;> rfl

theorem optional?_middle_of_ne {α : Type} {name name' : String} (h : name ≠ name')
    (ms ns : List (String × Json)) (j : Json) (absent : α) (read? : Json → Option α) :
    optional? (ms ++ (name, j) :: ns) name' absent read?
      = optional? (ms ++ ns) name' absent read? := by
  unfold optional?
  rw [named_middle_of_ne h]

/-!
## Finding a member that was read
-/

theorem eq_middle_of_named {name : String} {ms : List (String × Json)} {j : Json}
    (h : named name ms = [j]) : ∃ bs cs, ms = bs ++ (name, j) :: cs := by
  have hmem : j ∈ named name ms := h ▸ List.mem_singleton_self j
  unfold named at hmem
  obtain ⟨⟨name', j'⟩, hfilter, rfl⟩ := List.mem_map.1 hmem
  obtain ⟨hmem, hname⟩ := List.mem_filter.1 hfilter
  obtain ⟨bs, cs, rfl⟩ := List.append_of_mem hmem
  exact ⟨bs, cs, by rw [← of_decide_eq_true hname]⟩

theorem named_of_required? {α : Type} {ms : List (String × Json)} {name : String}
    {read? : Json → Option α} {a : α} (h : required? ms name read? = some a) :
    ∃ j, named name ms = [j] ∧ read? j = some a := by
  unfold required? at h
  split at h
  . next j hj => exact ⟨j, hj, h⟩
  . cases h

theorem exists_member_of_named {members : List (List Piece × Json)} {ms : List (String × Json)}
    (hms : members? (.object members) = some ms) {name : String} {j : Json}
    (h : named name ms = [j]) :
    ∃ before ps after p, members = before ++ (ps, j) :: after ∧ Piece.text? ps = some name
      ∧ around? memberOf? before after = some p ∧ ms = p.1 ++ (name, j) :: p.2 := by
  obtain ⟨bs, cs, rfl⟩ := eq_middle_of_named h
  rw [members?_eq] at hms
  obtain ⟨before, ⟨ps, j'⟩, after, rfl, hmember, haround⟩ := exists_of_mapM_eq_middle hms
  obtain ⟨text, htext, hj⟩ := Option.map_eq_some_iff.1 hmember
  cases hj
  exact ⟨before, ps, after, _, rfl, htext, haround, rfl⟩

end Json

end Metering
