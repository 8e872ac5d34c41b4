import Metering.Proofs.Integer
import Metering.Proofs.Registry.Update

/-!
This module contains what comes of a counter that is incremented and decremented many times, by
itself, with an account of its changes, or in a registry.
-/

namespace Metering

/--
An increment or a decrement, with the reading of the clock at which it is made.
-/
structure Count where
  now : Int64
  operation : Operation
  delta : Int64

namespace Count

/--
What is added to a counter if there is no bound. That of a decrement may be `2 ^ 63`, which that of
no increment is.
-/
def amount (c : Count) : Int :=
  match c.operation with
  | .increment => c.delta.toInt
  | .decrement => -c.delta.toInt

def update (c : Count) : Update :=
  .change c.operation c.delta

def total (n : Int64) (cs : List Count) : Int64 :=
  cs.foldl (fun n c => c.operation.apply n c.delta) n

end Count

def Metric.countAll (m : Metric) (cs : List Count) : Except MetricError Metric :=
  cs.foldlM (fun m c => m.change c.now c.operation c.delta) m

def Tracked.countAll (t : Tracked) (cs : List Count) : Except MetricError Tracked :=
  cs.foldlM (fun t c => t.apply c.now c.update) t

def Registry.countAll (r : Registry) (name : String) (cs : List Count) :
    Except MetricError Registry :=
  cs.foldlM (fun r c => r.update c.now name c.update) r

/-!
## The values
-/

namespace Count

open Integer

variable {n : Int64} {cs ds : List Count}

theorem toInt_apply (c : Count) (n : Int64) :
    (c.operation.apply n c.delta).toInt = bounded (n.toInt + c.amount) := by
  rw [Operation.toInt_apply]
  obtain ⟨now, operation, delta⟩ := c
  cases operation with
  | increment => rfl
  | decrement =>
    simp only [Operation.exact, amount, bounded]
    omega

theorem toInt_total (n : Int64) (cs : List Count) :
    (total n cs).toInt = boundedSum n.toInt (cs.map amount) := by
  induction cs generalizing n with
  | nil => rfl
  | cons c cs ih =>
    rw [List.map_cons, boundedSum_cons, ← toInt_apply, ← ih, total, List.foldl_cons, total]

theorem toInt_total_of_stays (h : Stays n.toInt (cs.map amount)) :
    (total n cs).toInt = n.toInt + (cs.map amount).sum := by
  rw [toInt_total, boundedSum_of_stays h]

theorem total_perm_of_stays (h : Stays n.toInt (cs.map amount))
    (h' : Stays n.toInt (ds.map amount)) (hperm : ds.Perm cs) : total n ds = total n cs := by
  apply Int64.toInt_inj.1
  rw [toInt_total_of_stays h', toInt_total_of_stays h, (hperm.map amount).sum_eq]

theorem toInt_total_of_oneWay (h : OneWay (cs.map amount)) (hperm : ds.Perm cs) :
    (total n ds).toInt = bounded (n.toInt + (cs.map amount).sum) := by
  have hsame := hperm.map amount
  have hds : OneWay (ds.map amount) := by
    unfold OneWay at h ⊢
    simpa only [hsame.mem_iff] using h
  rw [toInt_total, boundedSum_of_oneWay (inRange_toInt n) hds, hsame.sum_eq]

theorem toInt_total_mono {n' : Int64} (hn : n.toInt ≤ n'.toInt)
    (h : List.Forall₂ (fun c d => c.amount ≤ d.amount) cs ds) :
    (total n cs).toInt ≤ (total n' ds).toInt := by
  rw [toInt_total, toInt_total]
  apply boundedSum_mono hn
  rwa [List.forall₂_map_left_iff, List.forall₂_map_right_iff]

end Count

/-!
## The layers that pass the changes on
-/

namespace Metric

variable {m : Metric} {n : Int64}

theorem change_of_counter (hn : m.reading = .counter n) (c : Count) :
    m.change c.now c.operation c.delta
      = .ok ⟨m.name, m.description, .counter (c.operation.apply n c.delta), c.now⟩ :=
  change_eq_ok_iff.2 ⟨n, hn, rfl⟩

theorem exists_countAll (hn : m.reading = .counter n) (cs : List Count) :
    ∃ m', m.countAll cs = .ok m' ∧ m'.reading = .counter (Count.total n cs) ∧ m'.name = m.name
      ∧ m'.description = m.description := by
  unfold countAll
  induction cs generalizing m n with
  | nil => exact ⟨m, rfl, hn, rfl, rfl⟩
  | cons c cs ih =>
    rw [List.foldlM_cons, change_of_counter hn]
    apply ih rfl

end Metric

namespace Tracked

variable {t : Tracked} {n : Int64}

theorem apply_of_counter (hn : t.current.reading = .counter n) (c : Count) :
    ∃ t', t.apply c.now c.update = .ok t'
      ∧ t.current.change c.now c.operation c.delta = .ok t'.current
      ∧ t'.current.reading = .counter (c.operation.apply n c.delta)
      ∧ t'.changes = t.changes + 1 ∧ t'.history = t.history := by
  have hchange := Metric.change_of_counter hn c
  refine ⟨_, apply_eq_ok_iff.2 ⟨_, hchange, rfl⟩, hchange, rfl, rfl, ?_⟩
  -- A counter that is changed is still a counter, and has no history.
  simp only [advance]
  rw [if_neg]
  exact Bool.false_ne_true

/--
A counter with an account of its changes is changed like one without, and each change is counted.
-/
theorem exists_countAll_current (hn : t.current.reading = .counter n) (cs : List Count) :
    ∃ t', t.countAll cs = .ok t' ∧ t.current.countAll cs = .ok t'.current
      ∧ t'.changes = t.changes + Tally.ofNat cs.length ∧ t'.history = t.history := by
  unfold countAll Metric.countAll
  induction cs generalizing t n with
  | nil => exact ⟨t, rfl, rfl, (Tally.add_zero t.changes).symm, rfl⟩
  | cons c cs ih =>
    obtain ⟨t₁, happly, hchange, hn₁, hchanges₁, hhistory₁⟩ := apply_of_counter hn c
    obtain ⟨t', hall, hcurrent, hchanges, hhistory⟩ := ih hn₁
    refine ⟨t', ?_, ?_, ?_, hhistory.trans hhistory₁⟩
    . rw [List.foldlM_cons, happly]
      exact hall
    . rw [List.foldlM_cons, hchange]
      exact hcurrent
    . rw [hchanges, hchanges₁, Tally.add_assoc]
      ext
      simp only [Tally.toNat_add, Tally.toNat_ofNat, Tally.toNat_one, List.length_cons, Tally.max]
      omega

/--
What has become of a counter, now at `n`, that was changed a number of times.
-/
structure CountsTo (t : Tracked) (n : Int64) (times : Nat) (t' : Tracked) : Prop where
  reading : t'.current.reading = .counter n
  name : t'.name = t.name
  description : t'.current.description = t.current.description
  changes : t'.changes.toNat = min (t.changes.toNat + times) (2 ^ 64 - 1)
  history : t'.history = t.history

theorem exists_countAll (hn : t.current.reading = .counter n) (cs : List Count) :
    ∃ t', t.countAll cs = .ok t' ∧ t.CountsTo (Count.total n cs) cs.length t' := by
  obtain ⟨t', hall, hcurrent, hchanges, hhistory⟩ := exists_countAll_current hn cs
  obtain ⟨m', hm', hreading, hname, hdescription⟩ := Metric.exists_countAll hn cs
  rw [hcurrent] at hm'
  cases hm'
  refine ⟨t', hall, hreading, hname, hdescription, ?_, hhistory⟩
  rw [hchanges]
  simp only [Tally.toNat_add, Tally.toNat_ofNat, Tally.max]
  omega

theorem Sound.history_eq_nil_of_counter (h : t.Sound) (hn : t.current.reading = .counter n) :
    t.history = [] := by
  apply h.history_eq_nil_of_kind
  have hkind : t.kind = .counter := by
    unfold kind Metric.kind
    rw [hn]
    rfl
  rw [hkind]
  decide

end Tracked

namespace Registry

variable {r : Registry} {name : String} {t t' : Tracked}

theorem put_put (t : Tracked) : (r.put name t).put name t' = r.put name t' := by
  apply eq_of_find?
  . rfl
  . intro other
    simp only [find?_put]
    split <;> rfl

/--
What a registry does to one of its metrics is put back under the name, and nothing else happens.
-/
theorem countAll_of_tracked {cs : List Count} (ht : r.find? name = some t)
    (hall : t.countAll cs = .ok t') : r.countAll name cs = .ok (r.put name t') := by
  unfold Tracked.countAll at hall
  unfold countAll
  induction cs generalizing r t with
  | nil =>
    cases hall
    rw [put_eq_self ht]
    rfl
  | cons c cs ih =>
    rw [List.foldlM_cons] at hall ⊢
    obtain ⟨t₁, happly, hrest⟩ := bind_eq_ok_iff.1 hall
    have hfind : (r.put name t₁).find? name = some t₁ := by rw [find?_put, if_pos rfl]
    have hput := ih hfind hrest
    rw [put_put] at hput
    rw [update_eq_ok_iff.2 ⟨t, t₁, ht, happly, rfl⟩]
    exact hput

end Registry

namespace Count

open Integer

/--
Whichever way a counter is counted, it comes to the bounded sum of what is counted. That is the
exact sum if no partial sum leaves the range, and the exact sum brought into the range if all counts
go the same way, so that their order makes no difference in either case. Larger counts never lead to
a smaller value. With an account of changes there is one for each count, and nothing else is left
behind.
-/
theorem counted_exactly (n : Int64) (cs : List Count) :
    (total n cs).toInt = boundedSum n.toInt (cs.map amount)
      ∧ (∀ m : Metric, m.reading = .counter n → ∃ m', m.countAll cs = .ok m'
        ∧ m'.reading = .counter (total n cs) ∧ m'.name = m.name ∧ m'.description = m.description)
      ∧ (∀ t : Tracked, t.current.reading = .counter n →
        ∃ t', t.countAll cs = .ok t' ∧ t.CountsTo (total n cs) cs.length t'
          ∧ (t.Reachable → t'.history = []))
      ∧ (∀ (r : Registry) (name : String) (t : Tracked), r.find? name = some t →
        t.current.reading = .counter n →
        ∃ r' t', r.countAll name cs = .ok r' ∧ r'.find? name = some t'
          ∧ t.CountsTo (total n cs) cs.length t' ∧ (r.Reachable → t'.history = [])
          ∧ r'.names = r.names ∧ ∀ other, other ≠ name → r'.find? other = r.find? other)
      ∧ (Stays n.toInt (cs.map amount) →
        (total n cs).toInt = n.toInt + (cs.map amount).sum
          ∧ ∀ ds : List Count, ds.Perm cs → Stays n.toInt (ds.map amount) →
            total n ds = total n cs)
      ∧ (OneWay (cs.map amount) → ∀ ds : List Count, ds.Perm cs →
        (total n ds).toInt = bounded (n.toInt + (cs.map amount).sum))
      ∧ ∀ (n' : Int64) (ds : List Count), n.toInt ≤ n'.toInt →
        List.Forall₂ (fun c d => c.amount ≤ d.amount) cs ds →
        (total n cs).toInt ≤ (total n' ds).toInt := by
  refine ⟨toInt_total n cs, fun m hn => Metric.exists_countAll hn cs, ?_, ?_, ?_,
    fun h ds hperm => toInt_total_of_oneWay h hperm, fun n' ds => toInt_total_mono⟩
  . intro t hn
    obtain ⟨t', hall, hcounts⟩ := Tracked.exists_countAll hn cs
    refine ⟨t', hall, hcounts, ?_⟩
    intro ht
    rw [hcounts.history]
    apply ht.sound.history_eq_nil_of_counter hn
  . intro r name t ht hn
    obtain ⟨t', hall, hcounts⟩ := Tracked.exists_countAll hn cs
    refine ⟨_, t', Registry.countAll_of_tracked ht hall, ?_, hcounts, ?_, rfl, ?_⟩
    . rw [Registry.find?_put, if_pos rfl]
    . intro hr
      rw [hcounts.history]
      apply (hr.sound.sound name t ht).history_eq_nil_of_counter hn
    . intro other hother
      rw [Registry.find?_put, if_neg (Ne.symm hother)]
  . intro hstays
    exact ⟨toInt_total_of_stays hstays,
      fun ds hperm hds => total_perm_of_stays hstays hds hperm⟩

/--
A counter at minus one that is decremented by the least delta there is, which takes it to the end of
the range and not past it, and is incremented by less than nothing then.
-/
theorem counted_exactly_hits :
    let as : List Action := [.create 0, .register 0 ⟨"hits", "", .counter (-1), 0⟩]
    let up : List Count := [⟨1, .decrement, Int64.minValue⟩, ⟨2, .decrement, Int64.minValue⟩]
    let cs : List Count := up ++ [⟨3, .increment, -5⟩]
    ∃ r r' t', World.run as 0 = some r ∧ r.countAll "hits" cs = .ok r'
      ∧ r'.find? "hits" = some t' ∧ t'.current.reading = .counter (Int64.maxValue - 5)
      ∧ t'.changes.toNat = 3 ∧ t'.history = []
      ∧ OneWay (up.map amount) ∧ (total (-1) up.reverse).toInt = bounded (-1 + (up.map amount).sum)
      ∧ Stays (Int64.toInt (-1)) ((up.take 1).map amount)
      ∧ (total (-1) (up.take 1)).toInt = 2 ^ 63 - 1 := by
  intro as up cs
  obtain ⟨r, hr⟩ := Option.isSome_iff_exists.1 (by decide : (World.run as 0).isSome)
  have hhits : (World.run as 0).bind (·.find? "hits")
      = some ⟨⟨"hits", "", .counter (-1), 0⟩, 0, []⟩ := by decide
  rw [hr, Option.bind_some] at hhits
  obtain ⟨-, -, -, hregistry, -⟩ := counted_exactly (-1) cs
  obtain ⟨r', t', hall, ht', hcounts, hhistory, -⟩ := hregistry r "hits" _ hhits rfl
  obtain ⟨-, -, -, -, -, honeWay, -⟩ := counted_exactly (-1) up
  obtain ⟨-, -, -, -, hstays, -⟩ := counted_exactly (-1) (up.take 1)
  have hup : OneWay (up.map amount) := .inl (by decide)
  have hone : Stays (Int64.toInt (-1)) ((up.take 1).map amount) := by
    intro bs hbs
    obtain rfl | ⟨_, rfl, hnil⟩ := List.prefix_cons_iff.1 hbs
    . exact ⟨by decide, by decide⟩
    . rw [List.prefix_nil.1 hnil]
      exact ⟨by decide, by decide⟩
  refine ⟨r, r', t', hr, hall, ht', hcounts.reading, hcounts.changes, hhistory ⟨as, 0, hr⟩, hup,
    honeWay hup _ (List.reverse_perm up), hone, ?_⟩
  rw [(hstays hone).1]
  decide

end Count

end Metering
