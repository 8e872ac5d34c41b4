import Mathlib.Data.List.Induction
import Metering.Proofs.Registry.Count
import Metering.Proofs.Registry.Past
import Metering.Proofs.Registry.Update

/-!
This module contains what the flushes of a registry send of a metric that no other registry has a
share in: of a gauge the value that the last flush ended with and all values stored since, of any
other metric the present value.
-/

namespace Metering

namespace World

def find? (w : World) (i : Nat) (name : String) : Option Tracked :=
  (w i).bind (·.find? name)

/--
What a metric of a registry is when an action has just left it without a past.
-/
inductive Opens (w : World) (i : Nat) (name : String) : Action → Record → Prop where
  | register {r : Registry} {m : Metric} (hr : w i = some r) (hnew : r.find? m.name = none)
    (hname : m.name = name) : Opens w i name (.register i m) m.record
  | reset {t : Tracked} (ht : w.find? i name = some t) : Opens w i name (.reset i) t.current.record
  | drain {t : Tracked} (ht : w.find? i name = some t) : Opens w i name (.drain i) t.current.record

/--
Whether an action neither uses a registry up nor merges another one into it that has the name.
-/
def Spares (w : World) (i : Nat) (name : String) : Action → Prop
  | .merge k j => k = i → w.find? j name = none
  | .absorb k j => j ≠ i ∧ (k = i → w.find? j name = none)
  | _ => True

def SparedBy (w : World) (i : Nat) (name : String) : List Action → Prop
  | [] => True
  | a :: as => w.Spares i name a ∧ (w.step a).SparedBy i name as

/--
What a metric of a registry is after an action, if the action is an update of it that takes place.
-/
def stored (w : World) (i : Nat) (name : String) (a : Action) : List Record :=
  match a with
  | .update k now key u =>
    if k = i ∧ key = name ∧ w.updates k now key u then
      (((w.step a).find? i name).map (·.current.record)).toList
    else []
  | _ => []

def storedBy (w : World) (i : Nat) (name : String) : List Action → List Record
  | [] => []
  | a :: as => w.stored i name a ++ (w.step a).storedBy i name as

variable {w : World} {i : Nat} {name : String} {t : Tracked} {r : Registry}

theorem find?_eq_some_iff : w.find? i name = some t ↔ ∃ r, w i = some r ∧ r.find? name = some t :=
  Option.bind_eq_some_iff

theorem find?_of_some (hr : w i = some r) : w.find? i name = r.find? name := by
  rw [find?, hr, Option.bind_some]

theorem find?_alter {k : Nat} {f : Registry → Registry} (hr : w i = some r)
    (hf : k = i → (f r).find? name = r.find? name) :
    (w.alter k f).find? i name = r.find? name := by
  unfold find? alter
  split
  . next hk =>
    subst hk
    rw [hr, Option.map_some, Option.bind_some, hf rfl]
  . rw [hr, Option.bind_some]

theorem find?_alter_reset (hr : w i = some r) (ht : r.find? name = some t) :
    (w.alter i Registry.reset).find? i name = some t.reset := by
  rw [find?, alter, if_pos rfl, hr, Option.map_some, Option.bind_some, Registry.find?_reset, ht,
    Option.map_some]

theorem find?_remove {j : Nat} (hj : j ≠ i) : (w.remove j).find? i name = w.find? i name := by
  unfold find? remove
  rw [if_neg (Ne.symm hj)]

/-!
## Single actions
-/

theorem sparedBy_append (w : World) (i : Nat) (name : String) (as bs : List Action) :
    w.SparedBy i name (as ++ bs) ↔
      w.SparedBy i name as ∧ (as.foldl step w).SparedBy i name bs := by
  induction as generalizing w with
  | nil => simp [SparedBy]
  | cons a as ih => simp only [List.cons_append, SparedBy, ih, List.foldl_cons, and_assoc]

/--
What an action that spares a metric can do to it.
-/
inductive Leaves (t : Tracked) (i : Nat) (a : Action) : Tracked → List Record → Prop where
  | same : Leaves t i a t []
  | advance {m : Metric} (hkind : m.kind = t.kind) : Leaves t i a (t.advance m) [m.record]
  | reset (ha : a = .reset i ∨ a = .drain i) : Leaves t i a t.reset []

theorem stored_eq_nil {k : Nat} {now : Int64} {key : String} {u : Update}
    (h : ¬(k = i ∧ key = name ∧ w.updates k now key u)) :
    w.stored i name (.update k now key u) = [] := by
  simp only [stored, if_neg h]

theorem leaves_update_of_ok {r' : Registry} (hr : w i = some r) (ht : r.find? name = some t)
    {now : Int64} {key : String} {u : Update} (hok : r.update now key u = .ok r') :
    ∃ t', (w.step (.update i now key u)).find? i name = some t'
      ∧ Leaves t i (.update i now key u) t' (w.stored i name (.update i now key u)) := by
  have hr' : w.step (.update i now key u) i = some r' := by
    rw [step_update_of_ok hr hok, if_pos rfl]
  obtain ⟨s, s', hs, happly, rfl⟩ := Registry.update_eq_ok_iff.1 hok
  obtain ⟨m, hm, rfl⟩ := Tracked.apply_eq_ok_iff.1 happly
  by_cases hkey : key = name
  . subst hkey
    cases ht.symm.trans hs
    have ht' : (w.step (.update i now key u)).find? i key = some (t.advance m) := by
      rw [find?_of_some hr', Registry.find?_put, if_pos rfl]
    have hupdates : w.updates i now key u = true := by
      rw [updates_of_some hr, hok]
      rfl
    have hstored : w.stored i key (.update i now key u) = [m.record] := by
      simp [stored, hupdates, ht', Tracked.advance]
    rw [hstored]
    exact ⟨_, ht', .advance (Tracked.same_of_updated hm).2⟩
  . rw [find?_of_some hr', Registry.find?_put, if_neg hkey, stored_eq_nil (hkey ·.2.1)]
    exact ⟨t, ht, .same⟩

theorem leaves_update (hr : w i = some r) (ht : r.find? name = some t) (k : Nat) (now : Int64)
    (key : String) (u : Update) :
    ∃ t', (w.step (.update k now key u)).find? i name = some t'
      ∧ Leaves t i (.update k now key u) t' (w.stored i name (.update k now key u)) := by
  by_cases hk : k = i
  . subst hk
    cases hresult : r.update now key u with
    | error e =>
      have hupdates : w.updates k now key u = false := by
        rw [updates_of_some hr, hresult]
        rfl
      rw [step_update_of_error hr hresult, find?_of_some hr, stored_eq_nil (by simp [hupdates])]
      exact ⟨t, ht, .same⟩
    | ok r' => apply leaves_update_of_ok hr ht hresult
  . rw [stored_eq_nil (hk ·.1)]
    exact ⟨t, (find?_alter hr fun heq => absurd heq hk).trans ht, .same⟩

theorem leaves_reset (hr : w i = some r) (ht : r.find? name = some t) (k : Nat) {a : Action}
    (ha : k = i → a = .reset i ∨ a = .drain i) :
    ∃ t', (w.alter k Registry.reset).find? i name = some t' ∧ Leaves t i a t' [] := by
  by_cases hk : k = i
  . subst hk
    exact ⟨t.reset, find?_alter_reset hr ht, .reset (ha rfl)⟩
  . exact ⟨t, (find?_alter hr fun heq => absurd heq hk).trans ht, .same⟩

theorem leaves_step (h : w.Sound) (ht : w.find? i name = some t) {a : Action}
    (hspares : w.Spares i name a) :
    ∃ t', (w.step a).find? i name = some t' ∧ Leaves t i a t' (w.stored i name a) := by
  obtain ⟨r, hr, ht⟩ := find?_eq_some_iff.1 ht
  cases a with
  | create k =>
    refine ⟨t, ?_, .same⟩
    rw [step, find?_of_some (place_of_some hr), ht]
  | deserialize k payload =>
    refine ⟨t, ?_, .same⟩
    cases hpayload : Registry.deserialize payload with
    | ok s => simp only [step, hpayload, find?_of_some (place_of_some hr), ht]
    | error e => simp only [step, hpayload, find?_of_some hr, ht]
  | register k m =>
    refine ⟨t, ?_, .same⟩
    refine (find?_alter hr fun _ => ?_).trans ht
    cases hresult : r.register? m with
    | none => rfl
    | some r' => rw [Option.getD_some, Registry.find?_register? hresult ht, ht]
  | update k now key u => apply leaves_update hr ht
  | merge k j =>
    refine ⟨t, ?_, .same⟩
    cases hs : w j with
    | none => simp only [step, hs, find?_of_some hr, ht]
    | some s =>
      simp only [step, hs]
      refine (find?_alter hr fun hk => ?_).trans ht
      apply (h i r hr).find?_merge_of_none (h j s hs)
      rw [← find?_of_some hs, hspares hk]
  | absorb k j =>
    refine ⟨t, ?_, .same⟩
    obtain ⟨hj, hspares⟩ := hspares
    have hstay : w.find? i name = some t := (find?_of_some hr).trans ht
    by_cases hkj : k = j
    . simpa [step, hkj] using hstay
    . simp only [step, hkj, decide_false]
      cases hq : w k with
      | none => exact hstay
      | some q =>
        cases hs : w j with
        | none => exact hstay
        | some s =>
          dsimp only
          rw [find?_remove hj, ← ht]
          apply find?_alter hr
          intro hk
          rw [(h j s hs).absorb_eq_merge]
          apply (h i r hr).find?_merge_of_none (h j s hs)
          rw [← find?_of_some hs, hspares hk]
  | reset k => apply leaves_reset hr ht k (by rintro rfl; exact .inl rfl)
  | drain k => apply leaves_reset hr ht k (by rintro rfl; exact .inr rfl)

/-!
## Windows
-/

/--
The actions of a program up to a point, with the last one that left a metric without a past. The
metric was spared since.
-/
structure Window (i : Nat) (name : String) where
  before : List Action
  opening : Action
  first : Record
  since : List Action
  opens : (run before).Opens i name opening first
  spared : (run (before ++ [opening])).SparedBy i name since
  reset_notMem : .reset i ∉ since
  drain_notMem : .drain i ∉ since

namespace Window

def actions (v : Window i name) : List Action :=
  v.before ++ v.opening :: v.since

/--
The records that the metric was given since, in order.
-/
def stored (v : Window i name) : List Record :=
  (run (v.before ++ [v.opening])).storedBy i name v.since

end Window

theorem storedBy_of_spared (h : w.Sound) (ht : w.find? i name = some t) {as : List Action}
    (hspared : w.SparedBy i name as) (hreset : .reset i ∉ as) (hdrain : .drain i ∉ as) :
    ∃ u, (as.foldl step w).find? i name = some u
      ∧ u.kind = t.kind
      ∧ u.changes.toNat = min (t.changes.toNat + (w.storedBy i name as).length) Tally.max
      ∧ (t.kind.keepsHistory → u.records = t.records ++ w.storedBy i name as) := by
  induction as generalizing w t with
  | nil =>
    refine ⟨t, ht, rfl, ?_, fun _ => (List.append_nil _).symm⟩
    simp [storedBy, t.changes.toNat_le_max]
  | cons a as ih =>
    obtain ⟨hthis, hrest⟩ := hspared
    rw [List.mem_cons, not_or] at hreset hdrain
    obtain ⟨t', ht', hleaves⟩ := leaves_step h ht hthis
    obtain ⟨u, hu, hkind, hchanges, hrecords⟩ :=
      ih (sound_step h a) ht' hrest hreset.2 hdrain.2
    unfold storedBy
    generalize w.stored i name a = records at hleaves
    cases hleaves with
    | same => exact ⟨u, hu, hkind, hchanges, hrecords⟩
    | @advance m hm =>
      have hkind' : (t.advance m).kind = t.kind := hm
      refine ⟨u, hu, hkind.trans hkind', ?_, ?_⟩
      . simp only [Tracked.advance, Tally.toNat_add, Tally.toNat_one, List.length_append,
          List.length_singleton] at hchanges ⊢
        omega
      . intro hkeeps
        rw [hrecords (hkind' ▸ hkeeps), Tracked.records_advance hkeeps hm, List.append_assoc]
    | reset ha =>
      cases ha with
      | inl ha => exact absurd ha.symm hreset.1
      | inr ha => exact absurd ha.symm hdrain.1

theorem find?_of_opens {before : List Action} {a : Action} {first : Record}
    (hopens : (run before).Opens i name a first) :
    ∃ t, (run (before ++ [a])).find? i name = some t ∧ t.current.record = first
      ∧ t.changes.toNat = 0 ∧ t.history = [] := by
  rw [run_concat]
  cases hopens with
  | @register r m hr hnew hname =>
    refine ⟨.ofMetric m, ?_, rfl, rfl, rfl⟩
    rw [step, find?, alter, if_pos rfl, hr, Option.map_some, Option.bind_some,
      Registry.register?_eq_some_iff.2 ⟨hnew, rfl⟩, Option.getD_some, Registry.find?_insert,
      Tracked.name_ofMetric, if_pos hname]
  | reset ht =>
    obtain ⟨r, hr, ht⟩ := find?_eq_some_iff.1 ht
    exact ⟨_, find?_alter_reset hr ht, rfl, rfl, rfl⟩
  | drain ht =>
    obtain ⟨r, hr, ht⟩ := find?_eq_some_iff.1 ht
    exact ⟨_, find?_alter_reset hr ht, rfl, rfl, rfl⟩

theorem Window.exists_find? (v : Window i name) :
    ∃ t, (run v.actions).find? i name = some t
      ∧ t.changes.toNat = min v.stored.length Tally.max
      ∧ (t.kind.keepsHistory → t.records = v.first :: v.stored) := by
  obtain ⟨s, hs, hfirst, hchanges, hhistory⟩ := find?_of_opens v.opens
  obtain ⟨t, ht, hkind, hchanges', hrecords⟩ :=
    storedBy_of_spared (sound_run _) hs v.spared v.reset_notMem v.drain_notMem
  rw [actions, List.append_cons, run_append]
  refine ⟨t, ht, ?_, ?_⟩
  . rw [hchanges', hchanges, Nat.zero_add, stored]
  . intro hkeeps
    rw [hrecords (hkind ▸ hkeeps), Tracked.records, hhistory, hfirst]
    rfl

theorem exists_window {before rest : List Action} {a : Action} {first : Record}
    (hopens : (run before).Opens i name a first)
    (hspared : (run (before ++ [a])).SparedBy i name rest) :
    ∃ v : Window i name, v.actions = before ++ a :: rest := by
  induction rest using List.reverseRecOn with
  | nil =>
    exact ⟨⟨before, a, first, [], hopens, trivial, List.not_mem_nil, List.not_mem_nil⟩, rfl⟩
  | append_singleton rest c ih =>
    rw [sparedBy_append, ← run_append, List.append_assoc, List.singleton_append] at hspared
    obtain ⟨hrest, hlast⟩ := hspared
    obtain ⟨v, hv⟩ := ih hrest
    have happend : v.actions ++ [c] = before ++ a :: (rest ++ [c]) := by simp [hv]
    rw [← happend]
    by_cases hc : c = .reset i ∨ c = .drain i
    . -- The window ends here and the next one begins.
      obtain ⟨t, ht, -, -⟩ := v.exists_find?
      have hopens' : (run v.actions).Opens i name c t.current.record := by
        cases hc with
        | inl hc => exact hc ▸ .reset ht
        | inr hc => exact hc ▸ .drain ht
      exact ⟨⟨v.actions, c, _, [], hopens', trivial, List.not_mem_nil, List.not_mem_nil⟩, rfl⟩
    . rw [not_or] at hc
      have hspared' : (run (v.before ++ [v.opening])).SparedBy i name (v.since ++ [c]) := by
        rw [← hv, Window.actions, List.append_cons, run_append] at hlast
        exact (sparedBy_append _ _ _ _ _).2 ⟨v.spared, hlast⟩
      refine ⟨⟨v.before, v.opening, v.first, v.since ++ [c], v.opens, hspared', ?_, ?_⟩, ?_⟩
      . rw [List.mem_append, List.mem_singleton, not_or]
        exact ⟨v.reset_notMem, Ne.symm hc.1⟩
      . rw [List.mem_append, List.mem_singleton, not_or]
        exact ⟨v.drain_notMem, Ne.symm hc.2⟩
      . simp [Window.actions]

/--
Where nothing but updates changes a metric, each point lies in a window that a flush, a reset or the
registration began. The history of a gauge is then the records it had in the window but the present
one, and a flush sends the values of them all in order. The first of these was the last that the
flush before sent. Of any other metric a flush sends the present value.
-/
theorem windows_exactly {before rest : List Action} {a : Action} {first : Record}
    (hopens : (run before).Opens i name a first)
    (hspared : (run (before ++ [a])).SparedBy i name rest) :
    (∃ v : Window i name, v.actions = before ++ a :: rest)
      ∧ ∀ v : Window i name, v.actions = before ++ a :: rest →
        ∃ r t, run (before ++ a :: rest) i = some r ∧ r.find? name = some t
          ∧ t.changes.toNat = min v.stored.length (2 ^ 64 - 1)
          ∧ (t.kind = .integerGauge ∨ t.kind = .doubleGauge →
            t.history ++ [t.current.record] = v.first :: v.stored
              ∧ r.drain.1.filter (·.1 = name)
                = (v.first :: v.stored).map fun s => (name, s.value.display))
          ∧ (t.kind = .counter ∨ t.kind = .state →
            t.history = [] ∧ r.drain.1.filter (·.1 = name) = [(name, t.current.value.display)])
          ∧ (v.opening = .drain i → ∀ q, run v.before i = some q →
            (q.drain.1.filter (·.1 = name)).getLast? = some (name, v.first.value.display)) := by
  refine ⟨exists_window hopens hspared, ?_⟩
  intro v hv
  obtain ⟨t, ht, hchanges, hrecords⟩ := v.exists_find?
  obtain ⟨r, hr, ht⟩ := find?_eq_some_iff.1 ht
  rw [hv] at hr
  have hsound := sound_run _ i r hr
  refine ⟨r, t, hr, ht, hchanges, ?_, ?_, ?_⟩
  . intro hkind
    have hrecords := hrecords (Kind.keepsHistory_iff.2 hkind)
    exact ⟨hrecords, by rw [hsound.filter_drain ht, hrecords]⟩
  . intro hkind
    have hnil := (hsound.sound name t ht).history_eq_nil_of_kind (Kind.not_keepsHistory_iff.2 hkind)
    rw [hsound.filter_drain ht, Tracked.records, hnil]
    exact ⟨rfl, rfl⟩
  . intro hdrain q hq
    have hopens := v.opens
    rw [hdrain] at hopens
    generalize v.first = first at hopens
    cases hopens with
    | drain hs =>
      rw [find?_of_some hq] at hs
      rw [(sound_run v.before i q hq).filter_drain hs, Tracked.records, List.map_append,
        List.map_singleton, List.getLast?_append, List.getLast?_singleton, Option.some_or]

/--
A gauge that is set, to no avail set to a text, flushed, to no avail registered again, and set.
-/
theorem windows_exactly_queue :
    let before : List Action :=
      [.create 0, .register 0 (.create 0 .integerGauge "queue" ""),
        .update 0 1 "queue" (.value (.integer 5)), .update 0 2 "queue" (.value (.text "six"))]
    let since : List Action :=
      [.register 0 (.create 3 .state "queue" ""), .update 0 4 "queue" (.value (.integer 6))]
    ∃ r t, run (before ++ .drain 0 :: since) 0 = some r ∧ r.find? "queue" = some t
      ∧ t.changes.toNat = 1
      ∧ t.history = [⟨.integer 5, 1⟩]
      ∧ r.drain.1.filter (·.1 = "queue") = [("queue", "5"), ("queue", "6")] := by
  intro before since
  have hopens : (run before).Opens 0 "queue" (.drain 0) ⟨.integer 5, 1⟩ :=
    .drain (t := ⟨⟨"queue", "", .integerGauge 5, 1⟩, 1, [⟨.integer 0, 0⟩]⟩) (by decide)
  have hspared : (run (before ++ [.drain 0])).SparedBy 0 "queue" since :=
    ⟨trivial, trivial, trivial⟩
  obtain ⟨-, hwindows⟩ := windows_exactly hopens hspared
  have hstored : (run (before ++ [.drain 0])).storedBy 0 "queue" since = [⟨.integer 6, 4⟩] := by
    decide
  obtain ⟨r, t, hr, ht, hchanges, hgauge, -, -⟩ := hwindows
    ⟨before, .drain 0, ⟨.integer 5, 1⟩, since, hopens, hspared, by simp [since], by simp [since]⟩
    rfl
  have hkind : ((run (before ++ .drain 0 :: since)).find? 0 "queue").map Tracked.kind
      = some .integerGauge := by decide
  rw [find?_of_some hr, ht, Option.map_some, Option.some.injEq] at hkind
  obtain ⟨hhistory, hpairs⟩ := hgauge (.inl hkind)
  rw [Window.stored, hstored] at hchanges hhistory hpairs
  have htexts : [(⟨.integer 5, 1⟩ : Record), ⟨.integer 6, 4⟩].map
      (fun s => ("queue", s.value.display)) = [("queue", "5"), ("queue", "6")] := by decide +kernel
  exact ⟨r, t, hr, ht, hchanges, List.append_inj_left' hhistory rfl, hpairs.trans htexts⟩

end World

end Metering
