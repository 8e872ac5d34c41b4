import Metering.Proofs.Registry.Sound

/-!
This module contains what a program does with its registries: it makes them, changes them one by one
or by each other, and uses them up. Whatever it does, all of its registries stay sound.
-/

namespace Metering

/--
The registries of a program by their numbers. The number of a registry that was used up is free
again.
-/
def World : Type := Nat → Option Registry

inductive Action where
  | create (i : Nat)
  | deserialize (i : Nat) (payload : Bytes)
  | register (i : Nat) (m : Metric)
  | update (i : Nat) (now : Int64) (name : String) (u : Update)
  | merge (i j : Nat)
  | absorb (i j : Nat)
  | reset (i : Nat)
  | drain (i : Nat)

namespace World

def empty : World :=
  fun _ => none

def place (w : World) (i : Nat) (r : Registry) : World :=
  fun k => if k = i then some ((w i).getD r) else w k

def alter (w : World) (i : Nat) (f : Registry → Registry) : World :=
  fun k => if k = i then (w i).map f else w k

def remove (w : World) (i : Nat) : World :=
  fun k => if k = i then none else w k

def step (w : World) : Action → World
  | .create i => w.place i .empty
  | .deserialize i payload =>
    match Registry.deserialize payload with
    | .ok r => w.place i r
    | .error _ => w
  | .register i m => w.alter i fun r => (r.register? m).getD r
  | .update i now name u => w.alter i fun r => (r.perform now name u).1
  | .merge i j =>
    match w j with
    | some s => w.alter i fun r => (r.merge s).1
    | none => w
  | .absorb i j =>
    -- A registry cannot be used up by itself.
    match w i, w j, decide (i = j) with
    | some _, some s, false => (w.alter i fun r => (r.absorb s).1.1).remove j
    | _, _, _ => w
  | .reset i => w.alter i Registry.reset
  | .drain i => w.alter i fun r => r.drain.2

def run (as : List Action) : World :=
  as.foldl step empty

theorem run_append (as bs : List Action) : run (as ++ bs) = bs.foldl step (run as) :=
  List.foldl_append

theorem run_concat (as : List Action) (a : Action) : run (as ++ [a]) = (run as).step a :=
  run_append as [a]

def Sound (w : World) : Prop :=
  ∀ i r, w i = some r → r.Sound

/--
An operation on a registry that keeps it sound, its names and their kinds.
-/
def Keeps (f : Registry → Registry) : Prop :=
  ∀ r, r.Sound → (f r).Sound ∧ (f r).Extends r

theorem keeps_register (m : Metric) : Keeps fun r => (r.register? m).getD r := by
  intro r hr
  cases h : r.register? m with
  | none => simpa only [h, Option.getD_none] using ⟨hr, Registry.Extends.refl r⟩
  | some r' => simpa only [h, Option.getD_some] using hr.register? h

theorem keeps_update (now : Int64) (name : String) (u : Update) :
    Keeps fun r => (r.perform now name u).1 := by
  intro r hr
  dsimp only
  rw [Registry.perform_eq]
  split
  . next r' h => apply hr.update h
  . exact ⟨hr, Registry.Extends.refl r⟩

theorem keeps_merge {s : Registry} (hs : s.Sound) : Keeps fun r => (r.merge s).1 :=
  fun _ hr => hr.merge hs

theorem keeps_absorb {s : Registry} (hs : s.Sound) : Keeps fun r => (r.absorb s).1.1 := by
  intro r hr
  dsimp only
  rw [hs.absorb_eq_merge]
  apply hr.merge hs

theorem keeps_reset : Keeps Registry.reset :=
  fun r hr => ⟨hr.reset, Registry.extends_reset r⟩

theorem keeps_drain : Keeps fun r => r.drain.2 :=
  keeps_reset

/--
Whatever an action is, it makes a registry, changes one, changes one by another one that is used up,
or does nothing.
-/
theorem step_cases {w : World} (h : w.Sound) (a : Action) :
    w.step a = w
      ∨ (∃ i r, r.Sound ∧ w.step a = w.place i r)
      ∨ (∃ i f, Keeps f ∧ w.step a = w.alter i f)
      ∨ ∃ i j f, a = .absorb i j ∧ i ≠ j ∧ Keeps f ∧ w.step a = (w.alter i f).remove j := by
  cases a with
  | create i => exact .inr (.inl ⟨i, .empty, Registry.sound_empty, rfl⟩)
  | deserialize i payload =>
    cases hr : Registry.deserialize payload with
    | error e => simp [step, hr]
    | ok r => exact .inr (.inl ⟨i, r, Registry.sound_of_deserialize hr, by simp only [step, hr]⟩)
  | register i m => exact .inr (.inr (.inl ⟨i, _, keeps_register m, rfl⟩))
  | update i now name u => exact .inr (.inr (.inl ⟨i, _, keeps_update now name u, rfl⟩))
  | merge i j =>
    cases hs : w j with
    | none => simp [step, hs]
    | some s => exact .inr (.inr (.inl ⟨i, _, keeps_merge (h j s hs), by simp only [step, hs]⟩))
  | absorb i j =>
    by_cases hij : i = j
    . simp [step, hij]
    . cases hr : w i with
      | none => simp [step, hr]
      | some r =>
        cases hs : w j with
        | none => simp [step, hs]
        | some s =>
          refine .inr (.inr (.inr ⟨i, j, _, rfl, hij, keeps_absorb (h j s hs), ?_⟩))
          simp only [step, hr, hs, decide_eq_false hij]
  | reset i => exact .inr (.inr (.inl ⟨i, _, keeps_reset, rfl⟩))
  | drain i => exact .inr (.inr (.inl ⟨i, _, keeps_drain, rfl⟩))

theorem place_of_some {w : World} {i k : Nat} {r s : Registry} (h : w k = some s) :
    w.place i r k = some s := by
  unfold place
  split
  . next heq => rw [← heq, h, Option.getD_some]
  . exact h

theorem sound_place {w : World} (h : w.Sound) {i : Nat} {r : Registry} (hr : r.Sound) :
    (w.place i r).Sound := by
  intro k s hs
  unfold place at hs
  split at hs
  . cases hw : w i with
    | none =>
      rw [hw] at hs
      exact Option.some.inj hs ▸ hr
    | some s' =>
      rw [hw] at hs
      exact Option.some.inj hs ▸ h i s' hw
  . apply h k s hs

theorem alter_of_some {w : World} (h : w.Sound) {i : Nat} {f : Registry → Registry} (hf : Keeps f)
    {k : Nat} {r : Registry} (hr : w k = some r) :
    ∃ s, w.alter i f k = some s ∧ s.Sound ∧ s.Extends r := by
  unfold alter
  split
  . next hk =>
    subst hk
    rw [hr]
    exact ⟨f r, rfl, hf r (h k r hr)⟩
  . exact ⟨r, hr, h k r hr, Registry.Extends.refl r⟩

theorem sound_alter {w : World} (h : w.Sound) {i : Nat} {f : Registry → Registry} (hf : Keeps f) :
    (w.alter i f).Sound := by
  intro k s hs
  cases hr : w k with
  | none =>
    unfold alter at hs
    split at hs
    . next hk =>
      rw [← hk, hr] at hs
      cases hs
    . rw [hr] at hs
      cases hs
  | some r =>
    obtain ⟨s', hs', hsound, -⟩ := alter_of_some (i := i) h hf hr
    rw [hs'] at hs
    apply Option.some.inj hs ▸ hsound

theorem sound_step {w : World} (h : w.Sound) (a : Action) : (w.step a).Sound := by
  obtain heq | ⟨i, r, hr, heq⟩ | ⟨i, f, hf, heq⟩ | ⟨i, j, f, -, -, hf, heq⟩ := step_cases h a
  . rwa [heq]
  . rw [heq]
    apply sound_place h hr
  . rw [heq]
    apply sound_alter h hf
  . rw [heq]
    intro k s hk
    unfold remove at hk
    split at hk
    . cases hk
    . apply sound_alter h hf k s hk

theorem step_extends {w : World} (h : w.Sound) (a : Action) {k : Nat} {r : Registry}
    (hr : w k = some r) :
    (∃ i, a = .absorb i k ∧ i ≠ k ∧ w.step a k = none)
      ∨ ∃ s, w.step a k = some s ∧ s.Extends r := by
  obtain heq | ⟨i, s, -, heq⟩ | ⟨i, f, hf, heq⟩ | ⟨i, j, f, ha, hij, hf, heq⟩ := step_cases h a
  . right
    rw [heq]
    exact ⟨r, hr, Registry.Extends.refl r⟩
  . right
    rw [heq]
    exact ⟨r, place_of_some hr, Registry.Extends.refl r⟩
  . right
    rw [heq]
    obtain ⟨s, hs, -, hext⟩ := alter_of_some (i := i) h hf hr
    exact ⟨s, hs, hext⟩
  . rw [heq]
    unfold remove
    -- Of the two registries only the one that is used up is gone.
    by_cases hk : k = j
    . left
      subst hk
      exact ⟨i, ha, hij, if_pos rfl⟩
    . right
      obtain ⟨s, hs, -, hext⟩ := alter_of_some (i := i) h hf hr
      exact ⟨s, by rw [if_neg hk, hs], hext⟩

theorem sound_foldl {w : World} (h : w.Sound) (as : List Action) : (as.foldl step w).Sound := by
  induction as generalizing w with
  | nil => exact h
  | cons a as ih =>
    apply ih
    apply sound_step h

theorem sound_run (as : List Action) : (run as).Sound := by
  apply sound_foldl
  -- A program starts without any registry.
  intro i r hr
  cases hr

/--
In every state that a program reaches, each registry lists the names of its map once, finds every
metric under its own name, and has histories only where there were changes and where the kind of the
metric keeps them. No action takes a name from a registry, moves it or changes the kind under it.
-/
theorem invariant_of_run (as : List Action) :
    (∀ i r, run as i = some r →
      r.names.Nodup
        ∧ (∀ name, name ∈ r.names ↔ name ∈ r.map)
        ∧ (∀ (name : String) (t : Tracked), r.map[name]? = some t → t.name = name)
        ∧ r.size = r.names.length
        ∧ r.entries.length = r.names.length
        ∧ ∀ (name : String) (t : Tracked), r.map[name]? = some t →
          (t.changes.toNat = 0 → t.history = [])
            ∧ (t.kind = .counter ∨ t.kind = .state → t.history = [])
            ∧ (t.kind = .integerGauge → ∀ old ∈ t.history, ∃ n, old.value = .integer n)
            ∧ (t.kind = .doubleGauge → ∀ old ∈ t.history, ∃ x, old.value = .double x))
      ∧ ∀ a i r, run as i = some r →
        (∃ j, a = .absorb j i ∧ j ≠ i ∧ (run as).step a i = none)
          ∨ ∃ s, (run as).step a i = some s
            ∧ r.names <+: s.names
            ∧ ∀ (name : String) (t : Tracked), r.map[name]? = some t →
              ∃ u : Tracked, s.map[name]? = some u ∧ u.kind = t.kind := by
  have hsound := sound_run as
  constructor
  . intro i r hr
    have h := hsound i r hr
    refine ⟨h.nodup_names, h.mem_names_iff, h.name_eq, h.size_eq, h.length_entries, ?_⟩
    intro name t ht
    have htracked := h.sound name t ht
    refine ⟨htracked.history_eq_nil_of_changes, ?_, ?_, ?_⟩
    . rintro (hkind | hkind) <;>
      . apply htracked.history_eq_nil_of_kind
        rw [hkind]
        decide
    . intro hkind old hold
      apply Kind.shows_integerGauge_iff.1 (hkind ▸ htracked.shows old hold)
    . intro hkind old hold
      apply Kind.shows_doubleGauge_iff.1 (hkind ▸ htracked.shows old hold)
  . intro a i r hr
    cases step_extends hsound a hr with
    | inl hused => exact .inl hused
    | inr hext =>
      obtain ⟨s, hs, hext⟩ := hext
      exact .inr ⟨s, hs, hext.names, hext.kind⟩

/--
A gauge that was updated once in a registry and then merged into another one.
-/
theorem invariant_of_run_merged_gauge :
    let as : List Action :=
      [.create 0, .register 0 (.create 0 .integerGauge "queue" ""),
        .update 0 7 "queue" (.value (.integer 5)), .create 1, .merge 1 0]
    let t : Tracked := ⟨⟨"queue", "", .integerGauge 5, 7⟩, 1, [⟨.integer 0, 0⟩]⟩
    ∃ r, run as 1 = some r ∧ r.map["queue"]? = some t ∧ r.names.Nodup
      ∧ (∀ old ∈ t.history, ∃ n, old.value = .integer n)
      ∧ ∃ s, (run as).step (.drain 1) 1 = some s ∧ r.names <+: s.names := by
  intro as t
  obtain ⟨r, hr⟩ := Option.isSome_iff_exists.1 (by decide : (run as 1).isSome)
  have ht : (run as 1).bind (·.map["queue"]?) = some t := by decide
  rw [hr, Option.bind_some] at ht
  obtain ⟨hinv, hstep⟩ := invariant_of_run as
  obtain ⟨hnodup, -, -, -, -, hentry⟩ := hinv 1 r hr
  obtain ⟨-, -, hinteger, -⟩ := hentry "queue" t ht
  refine ⟨r, hr, ht, hnodup, hinteger rfl, ?_⟩
  cases hstep (.drain 1) 1 r hr with
  | inl hused =>
    obtain ⟨j, hj, -⟩ := hused
    cases hj
  | inr hext =>
    obtain ⟨s, hs, hnames, -⟩ := hext
    exact ⟨s, hs, hnames⟩

end World

end Metering
