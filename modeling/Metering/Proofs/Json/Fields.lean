import Mathlib.Data.List.Perm.Basic
import Metering.Proofs.Json.Around

/-!
This module contains objects of which only the members with certain names count. These may stand in
any order and among any others.
-/

namespace Metering

namespace Json

/--
Whether a member has this name, spelled in one way or another, and this value.
-/
def MemberSpelled (member : List Piece × Json) (m : String × Json) : Prop :=
  Piece.Spelled m.1 member.1 ∧ member.2 = m.2

/--
Whether a value is an object whose members with one of the names `known` are `fields`, in any order.
Its other members have any names and values.
-/
def HasFields (known : List String) (fields : List (String × Json)) (j : Json) : Prop :=
  ∃ members ms, j = .object members ∧ List.Forall₂ MemberSpelled members ms
    ∧ (ms.filter (·.1 ∈ known)).Perm fields

theorem memberOf?_eq_some_iff {member : List Piece × Json} {m : String × Json} :
    memberOf? member = some m ↔ MemberSpelled member m := by
  obtain ⟨name, j⟩ := m
  unfold memberOf? MemberSpelled
  rw [Option.map_eq_some_iff, ← Piece.text?_eq_some_iff]
  simp

theorem members?_eq_some_iff {j : Json} {ms : List (String × Json)} :
    j.members? = some ms ↔
      ∃ members, j = .object members ∧ List.Forall₂ MemberSpelled members ms := by
  cases j with
  | object members =>
    rw [members?_eq, mapM_eq_some_iff]
    simp only [memberOf?_eq_some_iff, object.injEq, exists_eq_left']
  | _ => simp [members?]

/-!
## Members by name
-/

theorem named_cons (name : String) (m : String × Json) (ms : List (String × Json)) :
    named name (m :: ms) = if m.1 = name then m.2 :: named name ms else named name ms := by
  unfold named
  rw [List.filter_cons]
  by_cases h : m.1 = name <;> simp [h]

theorem named_map_self (name : String) (js : List Json) : named name (js.map (name, ·)) = js := by
  induction js with
  | nil => rfl
  | cons j js ih => rw [List.map_cons, named_cons, if_pos rfl, ih]

theorem named_map_of_ne {name name' : String} (h : name' ≠ name) (js : List Json) :
    named name (js.map (name', ·)) = [] := by
  induction js with
  | nil => rfl
  | cons j js ih => rw [List.map_cons, named_cons, if_neg h, ih]

theorem perm_named {ms ns : List (String × Json)} (h : ms.Perm ns) (name : String) :
    (named name ms).Perm (named name ns) :=
  (h.filter _).map _

theorem named_filter {known : List String} {name : String} (h : name ∈ known)
    (ms : List (String × Json)) : named name (ms.filter (·.1 ∈ known)) = named name ms := by
  unfold named
  rw [List.filter_filter]
  congr 1
  apply List.filter_congr
  intro m _
  by_cases hm : m.1 = name
  . simp [hm, h]
  . simp [hm]

theorem map_named (name : String) (ms : List (String × Json)) :
    (named name ms).map (name, ·) = ms.filter (·.1 = name) := by
  unfold named
  rw [List.map_map, List.map_congr_left, List.map_id]
  intro m hm
  have hname := of_decide_eq_true (List.mem_filter.1 hm).2
  rw [← hname]
  rfl

/--
The members with certain names are those with the first of them, those with the second, and so on.
-/
theorem filter_perm_flatMap_named {known : List String} (h : known.Nodup)
    (ms : List (String × Json)) :
    (ms.filter (·.1 ∈ known)).Perm (known.flatMap fun name => (named name ms).map (name, ·)) := by
  induction known with
  | nil => simp
  | cons name known ih =>
    rw [List.nodup_cons] at h
    rw [List.flatMap_cons, map_named]
    have hsplit := List.filter_append_perm (·.1 = name) (ms.filter (·.1 ∈ name :: known))
    have hfirst : (ms.filter (·.1 ∈ name :: known)).filter (·.1 = name)
        = ms.filter (·.1 = name) := by
      rw [List.filter_filter]
      apply List.filter_congr
      intro m _
      by_cases hm : m.1 = name <;> simp [hm]
    have hrest : (ms.filter (·.1 ∈ name :: known)).filter (fun m => !decide (m.1 = name))
        = ms.filter (·.1 ∈ known) := by
      rw [List.filter_filter]
      apply List.filter_congr
      intro m _
      by_cases hm : m.1 = name
      . simp [hm, h.1]
      . simp [hm]
    rw [hfirst, hrest] at hsplit
    exact hsplit.symm.trans ((ih h.2).append_left _)

theorem hasFields_iff {known : List String} (hknown : known.Nodup) {fields : List (String × Json)}
    (hfields : ∀ m ∈ fields, m.1 ∈ known) {j : Json} :
    HasFields known fields j ↔ ∃ ms, j.members? = some ms
      ∧ ∀ name ∈ known, (named name ms).Perm (named name fields) := by
  constructor
  . rintro ⟨members, ms, hj, hmembers, hperm⟩
    refine ⟨ms, members?_eq_some_iff.2 ⟨members, hj, hmembers⟩, ?_⟩
    intro name hname
    rw [← named_filter hname]
    apply perm_named hperm
  . rintro ⟨ms, hms, hnamed⟩
    obtain ⟨members, hj, hmembers⟩ := members?_eq_some_iff.1 hms
    refine ⟨members, ms, hj, hmembers, ?_⟩
    have hall : fields.filter (·.1 ∈ known) = fields := by
      rw [List.filter_eq_self]
      intro m hm
      exact decide_eq_true (hfields m hm)
    have hflat : (known.flatMap fun name => (named name ms).map (name, ·)).Perm
        (known.flatMap fun name => (named name fields).map (name, ·)) :=
      List.Perm.flatMap_left _ fun name hname => (hnamed name hname).map _
    rw [← hall]
    exact (filter_perm_flatMap_named hknown ms).trans
      (hflat.trans (filter_perm_flatMap_named hknown fields).symm)

/-!
## Reading members by name
-/

/--
Whether a value is given, or is the one that goes without saying and is left out.
-/
inductive Given {α : Type} (spelled : α → Json → Prop) (silent : α) : α → List Json → Prop where
  | silent : Given spelled silent silent []
  | said {a : α} {j : Json} (h : spelled a j) : Given spelled silent a [j]

theorem given_singleton_iff {α : Type} {spelled : α → Json → Prop} {silent a : α} {j : Json} :
    Given spelled silent a [j] ↔ spelled a j := by
  constructor
  . intro h
    cases h with
    | said h => exact h
  . exact .said

theorem Given.of_mem {α : Type} {spelled : α → Json → Prop} {silent a : α} {js : List Json}
    (h : Given spelled silent a js) {j : Json} (hj : j ∈ js) : spelled a j := by
  cases h with
  | silent => cases hj
  | said h =>
    rw [List.mem_singleton.1 hj]
    exact h

theorem Given.eq_of_perm {α : Type} {spelled : α → Json → Prop} {silent a : α} {js js' : List Json}
    (h : Given spelled silent a js) (hperm : js'.Perm js) : js' = js := by
  cases h with
  | silent => exact List.perm_nil.1 hperm
  | said _ => exact List.perm_singleton.1 hperm

section

variable {α : Type} {ms : List (String × Json)} {name : String} {read? : Json → Option α} {a : α}

theorem required?_eq_some_iff :
    required? ms name read? = some a ↔ ∃ j, named name ms = [j] ∧ read? j = some a := by
  constructor
  . apply named_of_required?
  . rintro ⟨j, hj, ha⟩
    rw [required?_of_named hj, ha]

theorem optional?_eq_some_iff {absent : α} :
    optional? ms name absent read? = some a
      ↔ Given (fun a j => read? j = some a) absent a (named name ms) := by
  unfold optional?
  constructor
  . intro h
    split at h
    . next hnone =>
      cases h
      rw [hnone]
      exact .silent
    . next j hone =>
      rw [hone]
      exact .said h
    . cases h
  . intro h
    generalize named name ms = js at h
    cases h with
    | silent => rfl
    | said h => exact h

end

/-!
## Objects that are refused
-/

/--
Whether one of the members with certain names is there twice, is missing though it is required, or
is null.
-/
inductive Flawed (known required : List String) (members : List (List Piece × Json)) : Prop where
  | repeated {name : String} (hname : name ∈ known)
    {before between after : List (List Piece × Json)} {ps qs : List Piece} {j k : Json}
    (hmembers : members = before ++ (ps, j) :: (between ++ (qs, k) :: after))
    (hps : Piece.Spelled name ps) (hqs : Piece.Spelled name qs)
  | missing {name : String} (hname : name ∈ required)
    (h : ∀ m ∈ members, ¬Piece.Spelled name m.1)
  | null {name : String} (hname : name ∈ known) {ps : List Piece}
    (hmem : (ps, Json.null) ∈ members) (hps : Piece.Spelled name ps)

theorem named_eq_of_members? {members : List (List Piece × Json)} {ms : List (String × Json)}
    (h : members? (.object members) = some ms) (name : String) :
    named name ms = (members.filter fun m => Piece.text? m.1 = some name).map Prod.snd := by
  rw [members?_eq, mapM_eq_some_iff] at h
  induction h with
  | nil => rfl
  | @cons member m members ms hm _ ih =>
    obtain ⟨hname, hj⟩ := memberOf?_eq_some_iff.1 hm
    rw [← Piece.text?_eq_some_iff] at hname
    rw [named_cons, ih, List.filter_cons, hname, ← hj]
    by_cases heq : m.1 = name <;> simp [heq]

theorem mem_named_of_members? {members : List (List Piece × Json)} {ms : List (String × Json)}
    (h : members? (.object members) = some ms) {name : String} {ps : List Piece} {j : Json}
    (hmem : (ps, j) ∈ members) (hps : Piece.Spelled name ps) : j ∈ named name ms := by
  rw [← Piece.text?_eq_some_iff] at hps
  rw [named_eq_of_members? h, List.mem_map]
  exact ⟨_, List.mem_filter.2 ⟨hmem, decide_eq_true hps⟩, rfl⟩

/--
Whether members with certain names are there once at most and not null, and those that are required
are there.
-/
structure Sane (known required : List String) (ms : List (String × Json)) : Prop where
  clean : ∀ name ∈ known, (named name ms).length ≤ 1 ∧ .null ∉ named name ms
  present : ∀ name ∈ required, named name ms ≠ []

section

variable {α : Type} {spelled : α → Json → Prop}

theorem clean_singleton (hnull : ∀ a, ¬spelled a .null) {a : α} {j : Json} (h : spelled a j) :
    [j].length ≤ 1 ∧ .null ∉ [j] := by
  refine ⟨Nat.le_refl 1, ?_⟩
  rw [List.mem_singleton]
  rintro rfl
  exact hnull a h

theorem Given.clean (hnull : ∀ a, ¬spelled a .null) {silent a : α} {js : List Json}
    (h : Given spelled silent a js) : js.length ≤ 1 ∧ .null ∉ js := by
  cases h with
  | silent => simp
  | said h => exact clean_singleton hnull h

end

theorem Sane.not_flawed {known required : List String} {members : List (List Piece × Json)}
    {ms : List (String × Json)} (h : Sane known required ms)
    (hms : members? (.object members) = some ms) : ¬Flawed known required members := by
  have hnamed := named_eq_of_members? hms
  intro hflawed
  cases hflawed with
  | @repeated name hname before between after ps qs j k hmembers hps hqs =>
    have hlength := (h.clean name hname).1
    rw [← Piece.text?_eq_some_iff] at hps hqs
    rw [hnamed, hmembers] at hlength
    simp [List.filter_append, hps, hqs] at hlength
    omega
  | @missing name hname hnone =>
    apply h.present name hname
    rw [hnamed, List.map_eq_nil_iff, List.filter_eq_nil_iff]
    intro m hm
    rw [decide_eq_true_eq, Piece.text?_eq_some_iff]
    apply hnone m hm
  | @null name hname ps hmem hps =>
    apply (h.clean name hname).2
    apply mem_named_of_members? hms hmem hps

end Json

end Metering
