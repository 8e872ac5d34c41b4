import Mathlib.Data.List.Forall2
import Metering.Metric.Error

/-!
This module contains what becomes of a list when each of its members is read or checked.
-/

namespace Metering

variable {ε α β γ : Type} {as : List α}

theorem mapM_eq_some_iff {f : α → Option β} {bs : List β} :
    as.mapM f = some bs ↔ List.Forall₂ (fun a b => f a = some b) as bs := by
  induction as generalizing bs with
  | nil =>
    rw [List.mapM_nil, List.forall₂_nil_left_iff]
    exact ⟨fun h => (Option.some.inj h).symm, fun h => h ▸ rfl⟩
  | cons a as ih =>
    rw [List.mapM_cons, Option.bind_eq_bind, Option.bind_eq_some_iff, List.forall₂_cons_left_iff]
    constructor
    . rintro ⟨b, hb, h⟩
      obtain ⟨bs', hbs, h⟩ := Option.bind_eq_some_iff.1 h
      exact ⟨b, bs', hb, ih.1 hbs, (Option.some.inj h).symm⟩
    . rintro ⟨b, bs', hb, hbs, rfl⟩
      exact ⟨b, hb, Option.bind_eq_some_iff.2 ⟨bs', ih.2 hbs, rfl⟩⟩

theorem mapM_eq_ok_iff {f : α → Except ε β} {bs : List β} :
    as.mapM f = .ok bs ↔ List.Forall₂ (fun a b => f a = .ok b) as bs := by
  induction as generalizing bs with
  | nil =>
    rw [List.mapM_nil, List.forall₂_nil_left_iff]
    exact ⟨fun h => (Except.ok.inj h).symm, fun h => h ▸ rfl⟩
  | cons a as ih =>
    rw [List.mapM_cons, bind_eq_ok_iff, List.forall₂_cons_left_iff]
    constructor
    . rintro ⟨b, hb, h⟩
      obtain ⟨bs', hbs, h⟩ := bind_eq_ok_iff.1 h
      exact ⟨b, bs', hb, ih.1 hbs, (Except.ok.inj h).symm⟩
    . rintro ⟨b, bs', hb, hbs, rfl⟩
      exact ⟨b, hb, bind_eq_ok_iff.2 ⟨bs', ih.2 hbs, rfl⟩⟩

/--
The error of a list is that of its first member that has one.
-/
theorem mapM_eq_error_iff {f : α → Except ε β} {e : ε} :
    as.mapM f = .error e ↔
      ∃ before a after, as = before ++ a :: after ∧ (∀ b ∈ before, ∃ c, f b = .ok c)
        ∧ f a = .error e := by
  induction as with
  | nil => simp [pure, Except.pure]
  | cons a as ih =>
    rw [List.mapM_cons, bind_eq_error_iff]
    constructor
    . rintro (ha | ⟨b, hb, h⟩)
      . exact ⟨[], a, as, rfl, by simp, ha⟩
      . rw [bind_eq_error_iff] at h
        obtain h | ⟨bs, -, h⟩ := h
        . obtain ⟨before, a', after, rfl, hbefore, ha'⟩ := ih.1 h
          exact ⟨a :: before, a', after, rfl, List.forall_mem_cons.2 ⟨⟨b, hb⟩, hbefore⟩, ha'⟩
        . cases h
    . rintro ⟨before, a', after, heq, hbefore, ha'⟩
      cases before with
      | nil =>
        cases heq
        exact .inl ha'
      | cons b before =>
        cases heq
        rw [List.forall_mem_cons] at hbefore
        obtain ⟨⟨c, hc⟩, hbefore⟩ := hbefore
        refine .inr ⟨c, hc, bind_eq_error_iff.2 (.inl ?_)⟩
        exact ih.2 ⟨before, a', after, rfl, hbefore, ha'⟩

theorem mapM_map_eq_pure {μ : Type → Type} [Monad μ] [LawfulMonad μ] {f : α → β}
    {g : β → μ γ} {h : α → γ} (hfg : ∀ a ∈ as, g (f a) = pure (h a)) :
    (as.map f).mapM g = pure (as.map h) := by
  induction as with
  | nil => apply List.mapM_nil
  | cons a as ih =>
    rw [List.forall_mem_cons] at hfg
    rw [List.map_cons, List.mapM_cons, hfg.1, pure_bind, ih hfg.2, pure_bind, List.map_cons]

theorem exists_forall₂_iff {R : α → β → Prop} :
    (∃ bs, List.Forall₂ R as bs) ↔ ∀ a ∈ as, ∃ b, R a b := by
  induction as with
  | nil => simp
  | cons a as ih =>
    rw [List.forall_mem_cons, ← ih]
    constructor
    . rintro ⟨bs, h⟩
      obtain ⟨b, bs', hb, hbs, -⟩ := List.forall₂_cons_left_iff.1 h
      exact ⟨⟨b, hb⟩, bs', hbs⟩
    . rintro ⟨⟨b, hb⟩, bs, hbs⟩
      exact ⟨b :: bs, .cons hb hbs⟩

end Metering
