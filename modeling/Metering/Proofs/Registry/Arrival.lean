import Mathlib.Data.List.Induction
import Mathlib.Data.List.Perm.Basic
import Metering.Proofs.Registry.Monoid
import Metering.Proofs.Registry.Total

/-!
This module contains what the order in which registries are merged has to do with what comes of
them. The metric of a name adds up those of all registries that have the name, in the order in which
they were merged, and of that order only the present metric and the order of the former values keep
a trace.
-/

namespace Metering

namespace Tracked

/--
Whether a metric is what others of its kind come to in their order.
-/
structure AddsUp (u : Tracked) (ts : List Tracked) : Prop where
  kind : ∀ t ∈ ts, t.kind = u.kind
  current : ts.getLast?.map Tracked.current = some u.current
  changes : u.changes = Tally.sum (ts.map Tracked.changes)
  history : u.history = ts.flatMap Tracked.history

variable {t u v : Tracked} {ts us : List Tracked}

theorem addsUp_singleton (t : Tracked) : t.AddsUp [t] where
  kind s hs := by rw [List.mem_singleton.1 hs]
  current := rfl
  changes := by rw [List.map_singleton, Tally.sum_cons, Tally.sum_nil, Tally.add_zero]
  history := by rw [List.flatMap_singleton]

theorem AddsUp.join (h : u.AddsUp ts) (ht : t.Sound) (hkind : t.kind = u.kind) :
    (u.join t).AddsUp (ts ++ [t]) where
  kind s hs := by
    rw [kind_join, hkind]
    cases List.mem_append.1 hs with
    | inl hs => apply h.kind s hs
    | inr hs => rw [List.mem_singleton.1 hs, hkind]
  current := by
    rw [List.getLast?_append, List.getLast?_singleton]
    rfl
  changes := by
    rw [List.map_append, Tally.sum_append, ← h.changes, List.map_singleton, Tally.sum_cons,
      Tally.sum_nil, Tally.add_zero]
    rfl
  history := by
    rw [ht.history_join hkind, List.flatMap_append, ← h.history, List.flatMap_singleton]

theorem AddsUp.perm (h : u.AddsUp ts) (h' : v.AddsUp us) (hperm : ts.Perm us) :
    u.kind = v.kind ∧ u.changes = v.changes ∧ u.history.Perm v.history := by
  refine ⟨?_, ?_, ?_⟩
  . obtain ⟨t, ht, -⟩ := Option.map_eq_some_iff.1 h.current
    have hmem := List.mem_of_getLast? ht
    rw [← h.kind t hmem, ← h'.kind t (hperm.mem_iff.1 hmem)]
  . rw [h.changes, h'.changes]
    apply Tally.sum_perm (hperm.map _)
  . rw [h.history, h'.history]
    apply hperm.flatMap_right

end Tracked

namespace Registry

/--
The metrics that some registries have under a name.
-/
def gathered (rs : List Registry) (name : String) : List Tracked :=
  rs.filterMap (·.find? name)

/--
Whether a registry has what others come to in their order.
-/
structure Collects (s : Registry) (rs : List Registry) : Prop where
  sound : s.Sound
  find?_eq_none_iff : ∀ name, s.find? name = none ↔ gathered rs name = []
  addsUp : ∀ name u, s.find? name = some u → u.AddsUp (gathered rs name)
  totalChanges : s.totalChanges = Tally.sum (rs.map Registry.totalChanges)

variable {a b s s' : Registry} {bs rs rs' : List Registry}

theorem Compatible.symm (h : a.Compatible b) : b.Compatible a :=
  fun name t u ht hu => (h name u t hu ht).symm

theorem gathered_singleton (a : Registry) (name : String) :
    gathered [a] name = (a.find? name).toList := by
  unfold gathered
  cases ha : a.find? name <;> simp [ha]

theorem gathered_concat (rs : List Registry) (b : Registry) (name : String) :
    gathered (rs ++ [b]) name = gathered rs name ++ (b.find? name).toList := by
  rw [← gathered_singleton]
  apply List.filterMap_append

theorem collects_singleton (ha : a.Sound) : a.Collects [a] where
  sound := ha
  find?_eq_none_iff name := by rw [gathered_singleton, Option.toList_eq_nil_iff]
  addsUp name u hu := by
    rw [gathered_singleton, hu]
    apply u.addsUp_singleton
  totalChanges := by
    rw [List.map_singleton, Tally.sum_cons, Tally.sum_nil, Tally.add_zero]

theorem Collects.compatible (h : s.Collects rs) (hcompat : ∀ r ∈ rs, r.Compatible b) :
    s.Compatible b := by
  intro name u t hu ht
  have hadds := h.addsUp name u hu
  -- The kind is that of a registry which has the name.
  obtain ⟨v, hv, -⟩ := Option.map_eq_some_iff.1 hadds.current
  have hmem := List.mem_of_getLast? hv
  obtain ⟨r, hr, hfind⟩ := List.mem_filterMap.1 hmem
  rw [← hadds.kind v hmem]
  apply hcompat r hr name v t hfind ht

theorem Collects.join? (h : s.Collects rs) (hb : b.Sound) (hs' : s.join? b = some s') :
    s'.Collects (rs ++ [b]) := by
  obtain ⟨hcompat, -, hfind⟩ := (h.sound.join?_eq_some_iff hb).1 hs'
  obtain ⟨n, hmerge⟩ := join?_eq_some_iff_merge.1 hs'
  refine ⟨h.sound.join? hb hs', ?_, ?_, ?_⟩
  . intro name
    rw [hfind, gathered_concat, List.append_eq_nil_iff, ← h.find?_eq_none_iff]
    cases s.find? name <;> cases b.find? name <;> simp
  . intro name u hu
    rw [hfind] at hu
    rw [gathered_concat]
    cases hb' : b.find? name with
    | none =>
      rw [hb', Option.merge_none_right] at hu
      rw [Option.toList_none, List.append_nil]
      apply h.addsUp name u hu
    | some t =>
      rw [hb'] at hu
      cases hs : s.find? name with
      | none =>
        rw [hs, Option.merge_none_left, Option.some.injEq] at hu
        rw [(h.find?_eq_none_iff name).1 hs, List.nil_append, ← hu]
        apply t.addsUp_singleton
      | some v =>
        rw [hs, Option.merge_some_some, Option.some.injEq] at hu
        rw [← hu]
        apply (h.addsUp name v hs).join (hb.sound name t hb')
        exact (hcompat name v t hs hb').symm
  . have htotal := h.sound.totalChanges_merge hb (n := n) (by rw [hmerge])
    rw [hmerge] at htotal
    rw [htotal, h.totalChanges, List.map_append, Tally.sum_append, List.map_singleton,
      Tally.sum_cons, Tally.sum_nil, Tally.add_zero]

/--
Registries of which no two disagree about a kind can all be merged.
-/
theorem Sound.exists_collects (ha : a.Sound) (hbs : ∀ b ∈ bs, b.Sound)
    (hcompat : (a :: bs).Pairwise Compatible) :
    ∃ s, bs.foldlM Registry.join? a = some s ∧ s.Collects (a :: bs) := by
  induction bs using List.reverseRecOn with
  | nil => exact ⟨a, rfl, collects_singleton ha⟩
  | append_singleton bs b ih =>
    rw [List.forall_mem_append, List.forall_mem_singleton] at hbs
    rw [← List.cons_append, List.pairwise_append] at hcompat
    obtain ⟨hbefore, -, hlast⟩ := hcompat
    obtain ⟨s, hs, hcollects⟩ := ih hbs.1 hbefore
    have hfits := hcollects.compatible fun r hr => hlast r hr b (List.mem_singleton_self b)
    obtain ⟨s', hs'⟩ := hcollects.sound.exists_join? hbs.2 hfits
    refine ⟨s', ?_, hcollects.join? hbs.2 hs'⟩
    rw [List.foldlM_append, hs]
    simpa using hs'

theorem Collects.mem_names_iff (h : s.Collects rs) {name : String} :
    name ∈ s.names ↔ gathered rs name ≠ [] := by
  rw [ne_eq, ← h.find?_eq_none_iff, h.sound.find?_eq_none_iff, Decidable.not_not]

theorem Collects.get?_eq (h : s.Collects rs) (name : String) :
    s.get? name = rs.reverse.findSome? (·.get? name) := by
  have hlast : rs.reverse.findSome? (·.get? name)
      = (gathered rs name).getLast?.map Tracked.current := by
    unfold gathered get?
    rw [List.getLast?_filterMap, List.map_findSome?]
    rfl
  rw [hlast, get?]
  cases hs : s.find? name with
  | none =>
    rw [(h.find?_eq_none_iff name).1 hs]
    rfl
  | some u => rw [(h.addsUp name u hs).current, Option.map_some]

theorem Collects.perm (h : s.Collects rs) (h' : s'.Collects rs') (hperm : rs.Perm rs') :
    s.names.Perm s'.names
      ∧ (∀ name t, s.find? name = some t →
        ∃ t', s'.find? name = some t' ∧ t.kind = t'.kind ∧ t.changes = t'.changes
          ∧ t.history.Perm t'.history)
      ∧ s.totalChanges = s'.totalChanges := by
  have hgathered (name : String) : (gathered rs name).Perm (gathered rs' name) :=
    hperm.filterMap _
  have hnames (name : String) : name ∈ s.names ↔ name ∈ s'.names := by
    rw [h.mem_names_iff, h'.mem_names_iff, ne_eq, ne_eq, ← List.isEmpty_iff, ← List.isEmpty_iff,
      (hgathered name).isEmpty_eq]
  refine ⟨?_, ?_, ?_⟩
  . rw [List.perm_ext_iff_of_nodup h.sound.nodup_names h'.sound.nodup_names]
    exact hnames
  . intro name t ht
    have hmem := (hnames name).1 (h.sound.mem_names_iff_find?.2 ⟨t, ht⟩)
    obtain ⟨t', ht'⟩ := h'.sound.mem_names_iff_find?.1 hmem
    exact ⟨t', ht', (h.addsUp name t ht).perm (h'.addsUp name t' ht') (hgathered name)⟩
  . rw [h.totalChanges, h'.totalChanges]
    apply Tally.sum_perm (hperm.map _)

/--
Registries that agree in their kinds can be merged in any order. It is the same for the names, their
kinds, the changes of each and of all together, and which values each metric had. The order shows in
that of the former values and in the present metric, which is that of the last registry that has the
name. It makes no difference either whether a registry is used up by being merged.
-/
theorem merges_in_any_order {a : Registry} {bs bs' : List Registry} (ha : a.Reachable)
    (hbs : ∀ b ∈ bs, b.Reachable) (hcompat : (a :: bs).Pairwise Compatible)
    (hperm : bs.Perm bs') :
    ∃ s s', bs.foldlM join? a = some s ∧ bs'.foldlM join? a = some s'
      ∧ s.names.Perm s'.names
      ∧ (∀ name t, s.find? name = some t →
        ∃ t', s'.find? name = some t' ∧ t.kind = t'.kind ∧ t.changes = t'.changes
          ∧ t.history.Perm t'.history
          ∧ t.changes.toNat
            = min ((gathered (a :: bs) name).map fun u => u.changes.toNat).sum (2 ^ 64 - 1))
      ∧ s.totalChanges = s'.totalChanges
      ∧ (∀ threshold, s.flushReady threshold = s'.flushReady threshold)
      ∧ (∀ name, s.get? name = (bs.reverse.findSome? (·.get? name)).or (a.get? name)
        ∧ s'.get? name = (bs'.reverse.findSome? (·.get? name)).or (a.get? name))
      ∧ ∀ b ∈ bs, ∀ r : Registry, (r.absorb b).1 = r.merge b := by
  have hsound : ∀ b ∈ bs, b.Sound := fun b hb => (hbs b hb).sound
  have hsound' : ∀ b ∈ bs', b.Sound := fun b hb => hsound b (hperm.mem_iff.2 hb)
  have hcompat' : (a :: bs').Pairwise Compatible :=
    ((hperm.cons a).pairwise_iff fun h => h.symm).1 hcompat
  obtain ⟨s, hs, hcollects⟩ := ha.sound.exists_collects hsound hcompat
  obtain ⟨s', hs', hcollects'⟩ := ha.sound.exists_collects hsound' hcompat'
  obtain ⟨hnames, hfind, htotal⟩ := hcollects.perm hcollects' (hperm.cons a)
  have hlast (cs : List Registry) (name : String) :
      (a :: cs).reverse.findSome? (·.get? name)
        = (cs.reverse.findSome? (·.get? name)).or (a.get? name) := by
    rw [List.reverse_cons, List.findSome?_append, List.findSome?_singleton]
  refine ⟨s, s', hs, hs', hnames, ?_, htotal, ?_, ?_, ?_⟩
  . intro name t ht
    obtain ⟨t', ht', hkind, hchanges, hhistory⟩ := hfind name t ht
    refine ⟨t', ht', hkind, hchanges, hhistory, ?_⟩
    rw [(hcollects.addsUp name t ht).changes, Tally.toNat_sum, List.map_map]
    rfl
  . intro threshold
    rw [flushReady, flushReady, htotal]
  . intro name
    rw [hcollects.get?_eq, hcollects'.get?_eq, hlast, hlast]
    exact ⟨rfl, rfl⟩
  . intro b hb r
    apply (hsound b hb).absorb_eq_merge

/--
A gauge that two of three registries have, merged into the third in either order.
-/
theorem merges_in_any_order_queue :
    let as : List Action :=
      [.create 0, .register 0 (.create 0 .counter "tasks" ""),
        .create 1, .register 1 (.create 0 .integerGauge "queue" ""),
        .update 1 7 "queue" (.value (.integer 5)),
        .create 2, .register 2 (.create 1 .integerGauge "queue" ""),
        .update 2 8 "queue" (.value (.integer 6)), .register 2 (.create 0 .counter "tasks" ""),
        .update 2 9 "tasks" (.change .increment 3)]
    ∃ a b c s s', World.run as 0 = some a ∧ World.run as 1 = some b ∧ World.run as 2 = some c
      ∧ [b, c].foldlM join? a = some s ∧ [c, b].foldlM join? a = some s'
      ∧ s.names.Perm s'.names
      ∧ s.totalChanges = s'.totalChanges
      ∧ s.get? "queue" = some ⟨"queue", "", .integerGauge 6, 8⟩
      ∧ s'.get? "queue" = some ⟨"queue", "", .integerGauge 5, 7⟩ := by
  intro as
  obtain ⟨a, ha⟩ := Option.isSome_iff_exists.1 (by decide : (World.run as 0).isSome)
  obtain ⟨b, hb⟩ := Option.isSome_iff_exists.1 (by decide : (World.run as 1).isSome)
  obtain ⟨c, hc⟩ := Option.isSome_iff_exists.1 (by decide : (World.run as 2).isSome)
  have hfits : (World.run as 0).bind (fun a => (World.run as 1).bind fun b =>
      (World.run as 2).map fun c =>
        (a.conflict? b.entries, a.conflict? c.entries, b.conflict? c.entries))
      = some (none, none, none) := by decide
  have hpresent : (World.run as 0).bind (fun a => (World.run as 1).bind fun b =>
      (World.run as 2).map fun c => (a.get? "queue", b.get? "queue", c.get? "queue"))
      = some (none, some ⟨"queue", "", .integerGauge 5, 7⟩,
        some ⟨"queue", "", .integerGauge 6, 8⟩) := by decide
  simp only [ha, hb, hc, Option.bind_some, Option.map_some, Option.some.injEq, Prod.mk.injEq,
    conflict?_eq_none_iff] at hfits hpresent
  have hrb : b.Reachable := ⟨as, 1, hb⟩
  have hrc : c.Reachable := ⟨as, 2, hc⟩
  have hbs : ∀ r ∈ [b, c], r.Reachable := by simp [hrb, hrc]
  have hcompat : [a, b, c].Pairwise Compatible := by
    simpa [hrb.sound.fits_entries_iff, hrc.sound.fits_entries_iff, and_assoc] using hfits
  obtain ⟨s, s', hs, hs', hnames, -, htotal, -, hlast, -⟩ :=
    merges_in_any_order ⟨as, 0, ha⟩ hbs hcompat (.swap c b [])
  obtain ⟨hlast, hlast'⟩ := hlast "queue"
  refine ⟨a, b, c, s, s', ha, hb, hc, hs, hs', hnames, htotal, ?_, ?_⟩
  . simpa [hpresent] using hlast
  . simpa [hpresent] using hlast'

end Registry

end Metering
