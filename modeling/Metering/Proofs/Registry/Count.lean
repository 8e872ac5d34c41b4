import Metering.Proofs.Registry.Total

/-!
This module contains what the changes of a registry would be if they were counted without a bound
all along. What a registry says of them is never anything but that number, cut off where a count
stops.
-/

namespace Metering

theorem Tally.ofNat_add (m n : Nat) : ofNat (m + n) = ofNat m + ofNat n := by
  ext
  simp only [toNat_add, toNat_ofNat]
  omega

theorem Registry.Sound.totalChanges_eq_ofNat {r : Registry} (h : r.Sound) :
    r.totalChanges = Tally.ofNat r.exactChanges := by
  ext
  rw [h.toNat_totalChanges, Tally.toNat_ofNat]

namespace World

def updates (w : World) (i : Nat) (now : Int64) (name : String) (u : Update) : Bool :=
  match w i with
  | some r => (r.update now name u).isOk
  | none => false

def merges (w : World) (i j : Nat) : Bool :=
  match w i, w j with
  | some r, some s => (r.merge s).2.isOk
  | _, _ => false

theorem updates_of_some {w : World} {i : Nat} {r : Registry} (hr : w i = some r) {now : Int64}
    {name : String} {u : Update} : w.updates i now name u = (r.update now name u).isOk := by
  rw [updates, hr]

theorem merges_of_some {w : World} {i j : Nat} {r s : Registry} (hr : w i = some r)
    (hs : w j = some s) : w.merges i j = (r.merge s).2.isOk := by
  rw [merges, hr, hs]

def carried (payload : Bytes) : Nat :=
  match Registry.deserialize payload with
  | .ok r => r.exactChanges
  | .error _ => 0

/--
The numbers of changes after an action. One that fails changes nothing.
-/
def count (w : World) (n : Nat → Nat) : Action → Nat → Nat
  | .create i => Function.update n i (if (w i).isSome then n i else 0)
  | .deserialize i payload => Function.update n i (if (w i).isSome then n i else carried payload)
  | .register _ _ => n
  | .update i now name u => Function.update n i (if w.updates i now name u then n i + 1 else n i)
  | .merge i j => Function.update n i (if w.merges i j then n i + n j else n i)
  | .absorb i j => Function.update n i (if i ≠ j ∧ w.merges i j then n i + n j else n i)
  | .reset i => Function.update n i 0
  | .drain i => Function.update n i 0

def countFrom (w : World) (n : Nat → Nat) : List Action → Nat → Nat
  | [] => n
  | a :: as => countFrom (w.step a) (w.count n a) as

/--
How often the metrics of each registry were changed since its last flush.
-/
def counted (as : List Action) : Nat → Nat :=
  countFrom empty (fun _ => 0) as

/--
Whether each registry of a program stands in a relation to what is said of it.
-/
def Follows {α : Type} (P : Registry → α → Prop) (w : World) (n : Nat → α) : Prop :=
  ∀ i r, w i = some r → P r (n i)

section

variable {α : Type} {P : Registry → α → Prop} {w : World} {n : Nat → α}

theorem Follows.alter (h : w.Follows P n) {i : Nat} {m : α} {f : Registry → Registry}
    (hf : ∀ r, w i = some r → P (f r) m) : (w.alter i f).Follows P (Function.update n i m) := by
  intro k s hs
  unfold World.alter at hs
  rw [Function.update_apply]
  split at hs
  . next hk =>
    obtain ⟨r, hr, rfl⟩ := Option.map_eq_some_iff.1 hs
    rw [if_pos hk]
    apply hf r hr
  . next hk =>
    rw [if_neg hk]
    apply h k s hs

theorem Follows.same (h : w.Follows P n) {i : Nat} {m : α} (hm : ∀ r, w i = some r → m = n i) :
    w.Follows P (Function.update n i m) := by
  intro k r hr
  rw [Function.update_apply]
  split
  . next hk =>
    subst hk
    rw [hm r hr]
    apply h k r hr
  . apply h k r hr

theorem Follows.place (h : w.Follows P n) {i : Nat} {m : α} {r : Registry} (hr : P r m) :
    (w.place i r).Follows P (Function.update n i (if (w i).isSome then n i else m)) := by
  intro k s hs
  unfold World.place at hs
  rw [Function.update_apply]
  split at hs
  . next hk =>
    rw [if_pos hk]
    cases hw : w i with
    | none =>
      rw [hw] at hs
      cases hs
      exact hr
    | some s' =>
      rw [hw] at hs
      cases hs
      exact h i s' hw
  . next hk =>
    rw [if_neg hk]
    apply h k s hs

theorem Follows.remove (h : w.Follows P n) (j : Nat) : (w.remove j).Follows P n := by
  intro k s hs
  unfold World.remove at hs
  split at hs
  . cases hs
  . apply h k s hs

theorem Follows.deserialize (h : w.Follows P n) {i : Nat} {payload : Bytes} {m : α}
    (hm : ∀ r, Registry.deserialize payload = .ok r → P r m) :
    (w.step (.deserialize i payload)).Follows P
      (Function.update n i (if (w i).isSome then n i else m)) := by
  simp only [World.step]
  cases hr : Registry.deserialize payload with
  | ok r => apply h.place (hm r hr)
  | error e =>
    apply h.same
    intro r hr
    simp [hr]

theorem Follows.merge (h : w.Follows P n) {i j : Nat} {m : α}
    (hm : ∀ r s, w i = some r → w j = some s → P (r.merge s).1 m) (hnone : w j = none → m = n i) :
    (w.step (.merge i j)).Follows P (Function.update n i m) := by
  simp only [World.step]
  cases hs : w j with
  | some s => apply h.alter fun r hr => hm r s hr hs
  | none => apply h.same fun _ _ => hnone hs

theorem Follows.absorb (h : w.Follows P n) (hw : w.Sound) {i j : Nat} {m : α}
    (hm : i ≠ j → ∀ r s, w i = some r → w j = some s → P (r.merge s).1 m)
    (hself : i = j → m = n i) (hnone : w j = none → m = n i) :
    (w.step (.absorb i j)).Follows P (Function.update n i m) := by
  by_cases hij : i = j
  . have hstay : w.step (.absorb i j) = w := by simp [World.step, hij]
    rw [hstay]
    apply h.same fun _ _ => hself hij
  . simp only [World.step, hij, decide_false]
    cases hr : w i with
    | none =>
      apply h.same
      intro r hr'
      rw [hr] at hr'
      cases hr'
    | some r =>
      cases hs : w j with
      | none => apply h.same fun _ _ => hnone hs
      | some s =>
        apply Follows.remove
        apply h.alter
        intro r' hr'
        rw [(hw j s hs).absorb_eq_merge]
        apply hm hij r' s hr' hs

end

def Counts (w : World) (n : Nat → Nat) : Prop :=
  ∀ i r, w i = some r → r.totalChanges = Tally.ofNat (n i)

variable {w : World} {n : Nat → Nat}

theorem Counts.follows (h : w.Counts n) :
    w.Follows (fun r m => r.totalChanges = Tally.ofNat m) n :=
  h

theorem Counts.merge (h : w.Counts n) (hw : w.Sound) {i j : Nat} {r s : Registry}
    (hr : w i = some r) (hs : w j = some s) :
    (r.merge s).1.totalChanges = Tally.ofNat (if w.merges i j then n i + n j else n i) := by
  have hsound := hw i r hr
  have hother := hw j s hs
  rw [merges_of_some hr hs]
  cases hresult : (r.merge s).2 with
  | ok k =>
    rw [hsound.totalChanges_merge hother hresult, h i r hr, h j s hs, ← Tally.ofNat_add]
    rfl
  | error e =>
    rw [hsound.merge_of_error hother hresult, h i r hr]
    rfl

theorem Counts.update (h : w.Counts n) (hw : w.Sound) {i : Nat} {r : Registry} (hr : w i = some r)
    (now : Int64) (name : String) (u : Update) :
    (r.perform now name u).1.totalChanges
      = Tally.ofNat (if w.updates i now name u then n i + 1 else n i) := by
  rw [updates_of_some hr]
  cases hresult : r.update now name u with
  | ok r' =>
    rw [Registry.fst_perform_of_ok hresult, (hw i r hr).totalChanges_update hresult, h i r hr]
    apply (Tally.ofNat_add (n i) 1).symm
  | error e =>
    rw [Registry.fst_perform_of_error hresult]
    exact h i r hr

theorem Counts.register (h : w.Counts n) (hw : w.Sound) {i : Nat} {r : Registry} (hr : w i = some r)
    (m : Metric) : ((r.register? m).getD r).totalChanges = Tally.ofNat (n i) := by
  cases hresult : r.register? m with
  | none => exact h i r hr
  | some r' =>
    rw [Option.getD_some, (hw i r hr).totalChanges_register? hresult]
    apply h i r hr

theorem Counts.step (h : w.Counts n) (hw : w.Sound) (a : Action) :
    (w.step a).Counts (w.count n a) := by
  cases a with
  | create i => exact h.follows.place rfl
  | deserialize i payload =>
    apply h.follows.deserialize
    intro r hr
    rw [(Registry.sound_of_deserialize hr).totalChanges_eq_ofNat, carried, hr]
  | register i m =>
    have hsame : w.count n (.register i m) = Function.update n i (n i) :=
      (Function.update_eq_self i n).symm
    rw [hsame]
    apply h.follows.alter fun r hr => h.register hw hr m
  | update i now name u => apply h.follows.alter fun r hr => h.update hw hr now name u
  | merge i j =>
    apply h.follows.merge
    . intro r s hr hs
      apply h.merge hw hr hs
    . intro hs
      simp [merges, hs]
  | absorb i j =>
    apply h.follows.absorb hw
    . intro hij r s hr hs
      simpa only [ne_eq, hij, not_false_eq_true, true_and] using h.merge hw hr hs
    . intro hij
      simp [hij]
    . intro hs
      simp [merges, hs]
  | reset i => apply h.follows.alter fun r _ => Registry.totalChanges_reset r
  | drain i => apply h.follows.alter fun r _ => Registry.totalChanges_reset r

theorem counts_countFrom (h : w.Counts n) (hw : w.Sound) (as : List Action) :
    (as.foldl World.step w).Counts (w.countFrom n as) := by
  induction as generalizing w n with
  | nil => exact h
  | cons a as ih =>
    apply ih (h.step hw a)
    apply sound_step hw

theorem counts_run (as : List Action) : (run as).Counts (counted as) := by
  apply counts_countFrom
  . intro i r hr
    cases hr
  . intro i r hr
    cases hr

end World

end Metering
