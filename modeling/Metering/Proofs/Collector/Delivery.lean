import Metering.Proofs.Collector.Observations

/-!
This module contains that the sinks come to know the last value of every metric that was changed. As
long as a change was not flushed it is counted, and the counts do not come back to zero without a
flush. So the last flush takes place if a change calls for it, and only then.
-/

namespace Metering.Thread

/--
Whether a flush took place after some batches, the last one with the present value of a metric, or
will have to take place because changes of the metric are counted.
-/
inductive Covered (s : Thread) (name : String) (base : List Shipment) : Prop where
  | pending (t : Tracked) (sent : List Shipment) (hshipments : s.shipments = base ++ sent)
    (ht : s.collector.registry.find? name = some t) (hchanges : t.changes.toNat ≠ 0)
  | flushed (t : Tracked) (sent : List Shipment) (x : Shipment) (after : List Shipment)
    (hshipments : s.shipments = base ++ sent ++ x :: after)
    (ht : s.collector.registry.find? name = some t) (hx : x.cause = .flush)
    (hafter : ∀ y ∈ after, y.cause ≠ .flush)
    (hlast : (x.batch.filter (·.1 = name)).getLast? = some (name, t.current.value.display))

variable {s s' : Thread} {e : Event} {name : String} {base : List Shipment}

theorem Covered.exists_sent (h : s.Covered name base) :
    ∃ t sent, s.shipments = base ++ sent ∧ s.collector.registry.find? name = some t := by
  cases h with
  | pending t sent hshipments ht _ => exact ⟨t, sent, hshipments, ht⟩
  | flushed t sent x after hshipments ht _ _ _ =>
    exact ⟨t, sent ++ x :: after, by rw [hshipments, List.append_assoc], ht⟩

theorem Covered.congr (h : s.Covered name base) {more : List Shipment}
    (hfind : ∀ t, s.collector.registry.find? name = some t →
      s'.collector.registry.find? name = some t)
    (hshipments : s'.shipments = s.shipments ++ more) (hmore : ∀ x ∈ more, x.cause ≠ .flush) :
    s'.Covered name base := by
  cases h with
  | pending t sent hsent ht hchanges =>
    refine .pending t (sent ++ more) ?_ (hfind t ht) hchanges
    rw [hshipments, hsent, List.append_assoc]
  | flushed t sent x after hsent ht hx hafter hlast =>
    refine .flushed t sent x (after ++ more) ?_ (hfind t ht) hx ?_ hlast
    . rw [hshipments, hsent, List.append_assoc, List.cons_append]
    . intro y hy
      cases List.mem_append.1 hy with
      | inl hy => apply hafter y hy
      | inr hy => apply hmore y hy

theorem Covered.of_same (h : s.Covered name base)
    (hfind : s'.collector.registry.find? name = s.collector.registry.find? name)
    (hshipments : s'.shipments = s.shipments) : s'.Covered name base := by
  refine h.congr ?_ (hshipments.trans (List.append_nil _).symm) nofun
  rw [hfind]
  exact fun _ => id

theorem Changes.eq_of_update {key : String} {now : Int64} {u : Update}
    (h : s.Changes name (.update now key u)) : key = name := by
  cases h with
  | inl hmem => cases hmem
  | inr hupdate =>
    obtain ⟨_, _, _, heq, -⟩ := hupdate
    cases heq
    rfl

theorem Changes.mem_merged (h : s.Changes name .work) :
    name ∈ (s.merged .work).map Tracked.name := by
  cases h with
  | inl hmem => exact hmem
  | inr hupdate =>
    obtain ⟨_, _, _, heq, -⟩ := hupdate
    cases heq

theorem Effect.shipments_of_changes (h : Effect s s' e) (hchanges : s.Changes name e) :
    s'.shipments = s.shipments := by
  cases h with
  | rest sent hquiet _ _ _ => exact absurd hchanges (hquiet name)
  | flush hquiet _ _ => exact absurd hchanges (hquiet name)
  | register m hquiet _ _ => exact absurd hchanges (hquiet name)
  | update now key u _ _ hshipments => exact hshipments
  | merge n _ _ _ _ hshipments => exact hshipments

/--
A change is counted, provided that no snapshot has a metric without changes.
-/
theorem Effect.pending_of_changes (h : Effect s s' e) (hsound : s.collector.registry.Sound)
    (hpos : ∀ t ∈ s.merged e, 0 < t.changes.toNat) (hchanges : s.Changes name e) :
    ∃ t, s'.collector.registry.find? name = some t ∧ t.changes.toNat ≠ 0 := by
  cases h with
  | rest sent hquiet _ _ _ => exact absurd hchanges (hquiet name)
  | flush hquiet _ _ => exact absurd hchanges (hquiet name)
  | register m hquiet _ _ => exact absurd hchanges (hquiet name)
  | update now key u he hregistry _ =>
    subst he
    cases hchanges.eq_of_update
    obtain ⟨t, t', ht, happly, hput⟩ := Registry.update_eq_ok_iff.1 hregistry
    obtain ⟨m, -, rfl⟩ := Tracked.apply_eq_ok_iff.1 happly
    refine ⟨t.advance m, ?_, t.changes_advance_ne_zero m⟩
    rw [← hput, Registry.find?_put, if_pos rfl]
  | merge n he hts hnodup hregistry _ =>
    subst he
    obtain ⟨u, hu, hne⟩ :=
      Registry.find?_ofEntries_ne_zero hts hnodup hpos hchanges.mem_merged
    have hother := Registry.sound_ofEntries hts hnodup
    have hfind := ((hsound.merge_eq_ok_iff hother).1 hregistry).2.2.2 name
    rw [hfind, hu]
    cases s.collector.registry.find? name with
    | none => exact ⟨u, rfl, hne⟩
    | some t => exact ⟨t.join u, rfl, Tracked.changes_join_ne_zero hne⟩

theorem Effect.covered_of_not_changes (h : Effect s s' e) (hsound : s.collector.registry.Sound)
    (hchanges : ¬s.Changes name e) (hcovered : s.Covered name base) : s'.Covered name base := by
  cases h with
  | rest sent _ hregistry hshipments hsent =>
    refine hcovered.congr ?_ hshipments fun x hx => (hsent x hx).cause_ne
    rw [hregistry]
    exact fun _ => id
  | flush _ hregistry hshipments =>
    obtain ⟨t, sent, hsent, ht⟩ := hcovered.exists_sent
    refine .flushed t.reset sent ⟨.flush, s.collector.registry.pairs⟩ [] ?_ ?_ rfl nofun ?_
    . rw [hshipments, hsent]
    . rw [hregistry, Registry.find?_reset, ht]
      rfl
    . simp only [hsound.filter_pairs, ht, Option.toList_some, List.flatMap_singleton,
        Tracked.getLast?_pairs, hsound.name_eq name t ht]
      rfl
  | register m _ hregistry hshipments =>
    refine hcovered.congr ?_ (hshipments.trans (List.append_nil _).symm) nofun
    intro t ht
    apply Registry.find?_register? hregistry ht
  | update now key u he hregistry hshipments =>
    subst he
    have hne : key ≠ name := by
      rintro rfl
      exact hchanges (.inr ⟨now, u, _, rfl, hregistry⟩)
    obtain ⟨t, t', -, -, hput⟩ := Registry.update_eq_ok_iff.1 hregistry
    apply hcovered.of_same ?_ hshipments
    rw [← hput, Registry.find?_put, if_neg hne]
  | merge n he hts hnodup hregistry hshipments =>
    subst he
    have hnone : (Registry.ofEntries (s.merged .work)).find? name = none :=
      Registry.find?_ofEntries_eq_none hts hnodup fun hmem => hchanges (.inl hmem)
    have hother := Registry.sound_ofEntries hts hnodup
    have hfind := ((hsound.merge_eq_ok_iff hother).1 hregistry).2.2.2 name
    apply hcovered.of_same ?_ hshipments
    rw [hfind, hnone, Option.merge_none_right]

theorem Effect.covered (h : Effect s s' e) (hsound : s.collector.registry.Sound)
    (hpos : ∀ t ∈ s.merged e, 0 < t.changes.toNat) (hcovered : s.Covered name base) :
    s'.Covered name base := by
  by_cases hchanges : s.Changes name e
  . obtain ⟨_, sent, hsent, -⟩ := hcovered.exists_sent
    obtain ⟨t, ht, hne⟩ := h.pending_of_changes hsound hpos hchanges
    refine .pending t sent ?_ ht hne
    rw [h.shipments_of_changes hchanges, hsent]
  . apply h.covered_of_not_changes hsound hchanges hcovered

/-!
## Changes in the course of a run
-/

/--
Whether an event takes place at a thread in the course of a run.
-/
def Meets (s : Thread) (es : List Event) (t : Thread) (e : Event) : Prop :=
  ∃ fs gs, es = fs ++ e :: gs ∧ s.run? fs = some t

variable {es fs gs : List Event} {t u : Thread}

theorem meets_head (s : Thread) (e : Event) (es : List Event) : s.Meets (e :: es) s e :=
  ⟨[], es, rfl, rfl⟩

theorem Meets.tail (h : t.Meets es u e) {f : Event} (hs : s.step? f = some t) :
    s.Meets (f :: es) u e := by
  obtain ⟨fs, gs, rfl, hrun⟩ := h
  exact ⟨f :: fs, gs, rfl, run?_cons_eq_some_iff.2 ⟨t, hs, hrun⟩⟩

theorem Meets.append (h : s.Meets es u e) (fs : List Event) : s.Meets (es ++ fs) u e := by
  obtain ⟨fs', gs, rfl, hrun⟩ := h
  exact ⟨fs', gs ++ fs, by rw [List.append_assoc, List.cons_append], hrun⟩

theorem Meets.prepend (h : t.Meets es u e) (hs : s.run? fs = some t) : s.Meets (fs ++ es) u e := by
  obtain ⟨fs', gs, rfl, hrun⟩ := h
  refine ⟨fs ++ fs', gs, (List.append_assoc fs fs' _).symm, ?_⟩
  exact run?_append_eq_some_iff.2 ⟨t, hs, hrun⟩

variable {past : String → List String}

theorem Covered.run (h : s.Covered name base) (haccounts : s.Accounts past)
    (hpos : ∀ t e, s.Meets es t e → ∀ u ∈ t.merged e, 0 < u.changes.toNat)
    (hs : s.run? es = some s') : s'.Covered name base := by
  induction es generalizing s past with
  | nil =>
    cases hs
    exact h
  | cons e es ih =>
    obtain ⟨t, ht, hs⟩ := run?_cons_eq_some_iff.1 hs
    have heffect := effect_of_step haccounts.sound haccounts.sinks ht
    have hcovered := heffect.covered haccounts.sound (hpos s e (meets_head s e es)) h
    exact ih hcovered (haccounts.step ht) (fun u f hmeets => hpos u f (hmeets.tail ht)) hs

/--
A change is covered from then on.
-/
theorem covered_of_changes (haccounts : s.Accounts past)
    (hpos : ∀ t e, s.Meets es t e → ∀ u ∈ t.merged e, 0 < u.changes.toNat)
    (hs : s.run? es = some s') (hmeets : s.Meets es t e) (hchanges : t.Changes name e) :
    s'.Covered name t.shipments := by
  obtain ⟨fs, gs, rfl, ht⟩ := hmeets
  obtain ⟨t', ht', hs⟩ := run?_append_eq_some_iff.1 hs
  cases ht.symm.trans ht'
  obtain ⟨t', ht', hs⟩ := run?_cons_eq_some_iff.1 hs
  have hat := haccounts.run ht
  have heffect := effect_of_step hat.sound hat.sinks ht'
  obtain ⟨m, hm, hne⟩ :=
    heffect.pending_of_changes hat.sound (hpos t e ((meets_head t e gs).prepend ht)) hchanges
  have hpending : t'.Covered name t.shipments := by
    refine .pending m [] ?_ hm hne
    rw [heffect.shipments_of_changes hchanges, List.append_nil]
  apply hpending.run (hat.step ht') ?_ hs
  intro u f hmeets
  apply hpos u f ((hmeets.tail ht').prepend ht)

/-!
## No changes since the last flush
-/

/--
Whether nothing was flushed between two threads of a run.
-/
def Unflushed (s t : Thread) : Prop :=
  ∃ sent, t.shipments = s.shipments ++ sent ∧ ∀ x ∈ sent, x.cause ≠ .flush

theorem Unflushed.trans (hs : s.Unflushed t) (ht : t.Unflushed u) : s.Unflushed u := by
  obtain ⟨xs, hxs, hcause⟩ := hs
  obtain ⟨ys, hys, hcause'⟩ := ht
  refine ⟨xs ++ ys, ?_, ?_⟩
  . rw [hys, hxs, List.append_assoc]
  . intro x hx
    cases List.mem_append.1 hx with
    | inl hx => apply hcause x hx
    | inr hx => apply hcause' x hx

theorem unflushed_of_eq (h : t.shipments = s.shipments) : s.Unflushed t :=
  ⟨[], by rw [h, List.append_nil], nofun⟩

theorem Effect.unflushed_of_quiet (h : Effect s s' e) (hsound : s.collector.registry.Sound)
    (hquiet : ∀ name, ¬s.Changes name e)
    (hpending : s'.collector.registry.totalChanges.toNat ≠ 0) :
    s.collector.registry.totalChanges.toNat ≠ 0 ∧ s.Unflushed s' := by
  cases h with
  | rest sent _ hregistry hshipments hsent =>
    rw [hregistry] at hpending
    exact ⟨hpending, sent, hshipments, fun x hx => (hsent x hx).cause_ne⟩
  | flush _ hregistry _ =>
    rw [hregistry, Registry.totalChanges_reset] at hpending
    exact absurd Tally.toNat_zero hpending
  | register m _ hregistry hshipments =>
    rw [hsound.totalChanges_register? hregistry] at hpending
    exact ⟨hpending, unflushed_of_eq hshipments⟩
  | update now key u he hregistry hshipments =>
    exact absurd (.inr ⟨now, u, _, he, hregistry⟩) (hquiet key)
  | merge n he hts hnodup hregistry hshipments =>
    have hnil : s.merged e = [] := by
      cases hmerged : s.merged e with
      | nil => rfl
      | cons t ts => exact absurd (.inl (by rw [hmerged]; exact .head _)) (hquiet t.name)
    rw [hnil] at hregistry
    have hsame : s.collector.registry = s'.collector.registry := congrArg Prod.fst hregistry
    rw [← hsame] at hpending
    exact ⟨hpending, unflushed_of_eq hshipments⟩

/--
If there are changes in the end but none at the start, then one of them took place in between and
was not flushed since.
-/
theorem exists_changes (haccounts : s.Accounts past) (hs : s.run? es = some s')
    (hpending : s'.collector.registry.totalChanges.toNat ≠ 0) :
    s.collector.registry.totalChanges.toNat ≠ 0 ∧ s.Unflushed s'
      ∨ ∃ t e name, s.Meets es t e ∧ t.Changes name e ∧ t.Unflushed s' := by
  induction es generalizing s past with
  | nil =>
    cases hs
    left
    exact ⟨hpending, unflushed_of_eq rfl⟩
  | cons e es ih =>
    obtain ⟨t, ht, hs⟩ := run?_cons_eq_some_iff.1 hs
    have heffect := effect_of_step haccounts.sound haccounts.sinks ht
    cases ih (haccounts.step ht) hs with
    | inl hrest =>
      by_cases hquiet : ∀ name, ¬s.Changes name e
      . obtain ⟨hne, hunflushed⟩ := heffect.unflushed_of_quiet haccounts.sound hquiet hrest.1
        left
        exact ⟨hne, hunflushed.trans hrest.2⟩
      . simp only [Classical.not_forall, Classical.not_not] at hquiet
        obtain ⟨name, hchanges⟩ := hquiet
        have hsame := unflushed_of_eq (heffect.shipments_of_changes hchanges)
        right
        exact ⟨s, e, name, meets_head s e es, hchanges, hsame.trans hrest.2⟩
    | inr hlater =>
      obtain ⟨u, f, name, hmeets, hchanges, hunflushed⟩ := hlater
      right
      exact ⟨u, f, name, hmeets.tail ht, hchanges, hunflushed⟩

/-!
## The end of the service
-/

/--
A service that leaves sends nothing as long as there are no changes.
-/
theorem stays_of_step (hpoint : s.point = .leaving ∨ s.Closed)
    (hzero : s.collector.registry.totalChanges.toNat = 0) (hs : s.step? e = some s') :
    (s'.point = .leaving ∨ s'.Closed) ∧ s'.shipments = s.shipments := by
  cases step_cases hs with
  | inl hwork =>
    have hs := hwork.2
    unfold work? at hs
    obtain hleaving | hclosed | hreturned := hpoint
    . simp only [hleaving, Collector.pending, hzero] at hs
      cases hs
      exact ⟨.inr (.inl rfl), rfl⟩
    . simp only [hclosed] at hs
      split at hs
      . cases hs
        exact ⟨.inr (.inr rfl), rfl⟩
      . cases hs
    . simp only [hreturned] at hs
      cases hs
  | inr hsame =>
    obtain ⟨hpoint', hshipments, -⟩ := hsame
    rw [Closed, hpoint']
    exact ⟨hpoint, hshipments⟩

theorem shipments_of_leaving (hpoint : s.point = .leaving ∨ s.Closed)
    (hzero : ∀ fs gs t, es = fs ++ gs → s.run? fs = some t → t.shipments = s.shipments →
      t.collector.registry.totalChanges.toNat = 0)
    (hs : s.run? es = some s') : s'.shipments = s.shipments := by
  induction es generalizing s with
  | nil =>
    cases hs
    rfl
  | cons e es ih =>
    obtain ⟨t, ht, hs⟩ := run?_cons_eq_some_iff.1 hs
    obtain ⟨hpoint', hsame⟩ := stays_of_step hpoint (hzero [] (e :: es) s rfl rfl rfl) ht
    rw [← hsame]
    apply ih hpoint' ?_ hs
    rintro fs gs u rfl hu hshipments
    apply hzero (e :: fs) gs u rfl
    . exact run?_cons_eq_some_iff.2 ⟨t, ht, hu⟩
    . rw [hshipments, hsame]

/--
Nothing is pending in a service that is closed, so what was covered was flushed.
-/
theorem Covered.exists_flush (h : s.Covered name base) (haccounts : s.Accounts past)
    (hclosed : s.Closed) :
    ∃ sent x after m, s.shipments = base ++ sent ++ x :: after
      ∧ x.cause = .flush ∧ (∀ y ∈ after, y.cause ≠ .flush)
      ∧ s.collector.registry.get? name = some m
      ∧ (x.batch.filter (·.1 = name)).getLast? = some (name, m.value.display) := by
  cases h with
  | pending m sent hshipments hm hne =>
    have hzero := haccounts.closed hclosed
    exact absurd (Registry.totalChanges_eq_zero_iff.1 hzero name m hm) hne
  | flushed m sent x after hshipments hm hx hafter hlast =>
    refine ⟨sent, x, after, m.current, hshipments, hx, hafter, ?_, hlast⟩
    rw [Registry.get?, hm, Option.map_some]

/--
If each change was flushed before the service leaves, nothing is sent any more.
-/
theorem shipments_of_unchanged (haccounts : s.Accounts past)
    (hzero : s.collector.registry.totalChanges = 0) (hs : s.run? (fs ++ gs) = some s')
    (ht : s.run? fs = some t) (hleaving : t.point = .leaving)
    (hflushed : ∀ u e name, s.Meets (fs ++ gs) u e → u.Changes name e → ¬u.Unflushed t) :
    s'.shipments = t.shipments := by
  obtain ⟨t', ht', hs⟩ := run?_append_eq_some_iff.1 hs
  cases ht.symm.trans ht'
  apply shipments_of_leaving (.inl hleaving) ?_ hs
  rintro fs' gs' u rfl hu hshipments
  have hu : s.run? (fs ++ fs') = some u := run?_append_eq_some_iff.2 ⟨t, ht, hu⟩
  cases Nat.eq_zero_or_pos u.collector.registry.totalChanges.toNat with
  | inl hnone => exact hnone
  | inr hpending =>
    exfalso
    cases exists_changes haccounts hu (Nat.ne_of_gt hpending) with
    | inl hstill =>
      apply hstill.1
      rw [hzero, Tally.toNat_zero]
    | inr hlater =>
      obtain ⟨v, e, name, hmeets, hchanges, sent, hsent, hcause⟩ := hlater
      apply hflushed v e name ?_ hchanges
      . exact ⟨sent, by rw [← hshipments, hsent], hcause⟩
      . rw [← List.append_assoc]
        apply hmeets.append

/--
Once the service is closed, a flush took place after each change. The last one has the value that
the metric has in the end as the last value of its name. If no change is left that was not flushed
when the service leaves, nothing is sent any more.
-/
theorem delivered_of_closed {c : Collector} (hregistry : c.registry.Reachable)
    (hzero : c.registry.totalChanges = 0) (hsinks : c.sinks ≠ 0) {es : List Event} {s : Thread}
    (hrun : (start c).run? es = some s) (hclosed : s.Closed)
    (hpos : ∀ t e, (start c).Meets es t e → ∀ u ∈ t.merged e, 0 < u.changes.toNat) :
    (∀ t e name, (start c).Meets es t e → t.Changes name e →
        ∃ sent x after m, s.shipments = t.shipments ++ sent ++ x :: after
          ∧ x.cause = .flush ∧ (∀ y ∈ after, y.cause ≠ .flush)
          ∧ s.collector.registry.get? name = some m
          ∧ (x.batch.filter (·.1 = name)).getLast? = some (name, m.value.display))
      ∧ ∀ fs gs t, es = fs ++ gs → (start c).run? fs = some t → t.point = .leaving →
        (∀ u e name, (start c).Meets es u e → u.Changes name e → ¬u.Unflushed t) →
        s.shipments = t.shipments := by
  have hstart := accounts_start hregistry.sound hsinks
  constructor
  . intro t e name hmeets hchanges
    have hcovered := covered_of_changes hstart hpos hrun hmeets hchanges
    apply hcovered.exists_flush (hstart.run hrun) hclosed
  . rintro fs gs t rfl ht hleaving hflushed
    apply shipments_of_unchanged hstart hzero hrun ht hleaving hflushed

/-!
A run can be checked for the changes in it.
-/

def everywhere (p : Thread → Event → Bool) (s : Thread) : List Event → Bool
  | [] => true
  | e :: es =>
    p s e && match s.step? e with
      | some s => s.everywhere p es
      | none => true

theorem of_everywhere {p : Thread → Event → Bool} (h : s.everywhere p es)
    (hmeets : s.Meets es t e) : p t e := by
  obtain ⟨fs, gs, rfl, hrun⟩ := hmeets
  induction fs generalizing s with
  | nil =>
    cases hrun
    rw [List.nil_append, everywhere, Bool.and_eq_true] at h
    exact h.1
  | cons f fs ih =>
    obtain ⟨u, hu, hrun⟩ := run?_cons_eq_some_iff.1 hrun
    rw [List.cons_append, everywhere, hu, Bool.and_eq_true] at h
    exact ih hrun h.2

def quiet (s : Thread) (e : Event) : Bool :=
  (s.merged e).isEmpty
    && match e with
      | .update now name u => !(s.collector.registry.update now name u).isOk
      | _ => true

theorem not_changes_of_quiet (h : s.quiet e) : ¬s.Changes name e := by
  unfold quiet at h
  rw [Bool.and_eq_true, List.isEmpty_iff] at h
  apply not_changes h.1
  rintro now u r rfl hr
  have hok := h.2
  simp only [hr] at hok
  cases hok

theorem not_unflushed_of_any (h : (t.shipments.drop s.shipments.length).any (·.cause = .flush)) :
    ¬s.Unflushed t := by
  rintro ⟨sent, hsent, hcause⟩
  rw [hsent, List.drop_left, List.any_eq_true] at h
  obtain ⟨x, hx, hflush⟩ := h
  exact hcause x hx (of_decide_eq_true hflush)

/--
A gauge that is updated and comes with a snapshot, a flush that was asked for, and the end of the
service.
-/
theorem delivered_of_closed_queue :
    let as : List Action := [.create 0, .register 0 (.create 0 .integerGauge "queue" "")]
    let payload := Snapshot.encode [⟨⟨"queue", "", .integerGauge 7, 3⟩, 1, [⟨.integer 6, 2⟩]⟩]
    let es : List Event :=
      [.update 1 "queue" (.value (.integer 5)), .send (.command (.submit payload) false),
        .send (.command .flush false), .send .shutdown, .work, .work, .work, .work]
    ∃ r t s, World.run as 0 = some r
      ∧ (start ⟨9, r, .ofStations [.ofSink .log .wide]⟩).run? es = some t
      ∧ t.point = .leaving
      ∧ (start ⟨9, r, .ofStations [.ofSink .log .wide]⟩).run? (es ++ [.work]) = some s
      ∧ s.point = .closed
      ∧ s.shipments = t.shipments
      ∧ ∃ x ∈ s.shipments, x.cause = .flush
        ∧ (x.batch.filter (·.1 = "queue")).getLast? = some ("queue", "7") := by
  intro as payload es
  obtain ⟨r, hr⟩ := Option.isSome_iff_exists.1 (by decide : (World.run as 0).isSome)
  have hzero : (World.run as 0).map (·.totalChanges) = some 0 := by decide +kernel
  have hpos : (World.run as 0).map (fun r =>
      (start ⟨9, r, .ofStations [.ofSink .log .wide]⟩).everywhere
        (fun u e => (u.merged e).all (0 < ·.changes.toNat)) (es ++ [.work])) = some true := by
    decide +kernel
  have hmerge : (World.run as 0).bind (fun r =>
      ((start ⟨9, r, .ofStations [.ofSink .log .wide]⟩).run? (es.take 4)).map fun u =>
        (u.merged Event.work).map Tracked.name) = some ["queue"] := by decide +kernel
  have hleaving : (World.run as 0).bind (fun r =>
      ((start ⟨9, r, .ofStations [.ofSink .log .wide]⟩).run? es).map fun t =>
        (t.point, (start ⟨9, r, .ofStations [.ofSink .log .wide]⟩).everywhere
          (fun u e => u.quiet e || (t.shipments.drop u.shipments.length).any (·.cause = .flush))
          (es ++ [.work]))) = some (.leaving, true) := by decide +kernel
  have hclosed : (World.run as 0).bind (fun r =>
      ((start ⟨9, r, .ofStations [.ofSink .log .wide]⟩).run? (es ++ [.work])).map fun s =>
        (s.point, (s.collector.registry.get? "queue").map (·.value.display)))
      = some (.closed, some "7") := by decide +kernel
  simp only [hr, Option.bind_some, Option.map_some, Option.some.injEq, Option.map_eq_some_iff,
    Prod.mk.injEq] at hzero hpos hmerge hleaving hclosed
  obtain ⟨u, hu, hname⟩ := hmerge
  obtain ⟨t, ht, hpoint, hquiet⟩ := hleaving
  obtain ⟨s, hs, hclosed, m, hm, hdisplay⟩ := hclosed
  have hsinks : Collector.sinks ⟨9, r, .ofStations [.ofSink .log .wide]⟩ ≠ 0 := Nat.one_ne_zero
  obtain ⟨hdelivered, hstill⟩ := delivered_of_closed ⟨as, 0, hr⟩ hzero hsinks hs (.inl hclosed)
    (fun u e hmeets x hx =>
      of_decide_eq_true (List.all_eq_true.1 (of_everywhere hpos hmeets) x hx))
  obtain ⟨sent, x, after, m', hsent, hx, -, hm', hlast⟩ :=
    hdelivered u .work "queue" ⟨es.take 4, [.work, .work, .work, .work], rfl, hu⟩
      (.inl (by rw [hname]; exact .head _))
  have hsame : s.shipments = t.shipments := by
    apply hstill es [.work] t rfl ht hpoint
    intro u e name hmeets hchanges
    cases Bool.or_eq_true_iff.1 (of_everywhere hquiet hmeets) with
    | inl hquiet => exact absurd hchanges (not_changes_of_quiet hquiet)
    | inr hany => exact not_unflushed_of_any hany
  refine ⟨r, t, s, hr, ht, hpoint, hs, hclosed, hsame, x, ?_, hx, ?_⟩
  . rw [hsent]
    simp
  . rw [hm, Option.some.injEq] at hm'
    rw [hlast, ← hm', hdisplay]

end Metering.Thread
