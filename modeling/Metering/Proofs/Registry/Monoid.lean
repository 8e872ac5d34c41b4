import Metering.Proofs.Registry.Merge

/-!
This module contains that registries can be merged in any grouping. Merging is associative as far as
kinds allow it to take place at all, and the empty registry does nothing to it from either side.
-/

namespace Metering

/-!
## Metrics of one name
-/

namespace Tracked

@[simp]
theorem kind_join (t u : Tracked) : (t.join u).kind = u.kind := rfl

theorem Sound.join_assoc {t u v : Tracked} (hu : u.Sound) (hv : v.Sound) (htu : u.kind = t.kind)
    (huv : v.kind = u.kind) : (t.join u).join v = t.join (u.join v) := by
  ext1
  . rfl
  . apply Tally.add_assoc
  . have hjoin := hu.join hv huv
    have hleft : ((t.join u).join v).history = (t.join u).history ++ v.history :=
      hv.history_join huv
    rw [hleft, hu.history_join htu, hjoin.history_join (huv.trans htu), hv.history_join huv,
      List.append_assoc]

/--
Whether two metrics that may be missing can be merged.
-/
def Agree (x y : Option Tracked) : Prop :=
  ∀ s t, x = some s → y = some t → s.kind = t.kind

variable {s t : Tracked} {x y z : Option Tracked}

@[simp]
theorem agree_none_left : Agree none y := nofun

@[simp]
theorem agree_none_right : Agree x none := nofun

@[simp]
theorem agree_some_some : Agree (some s) (some t) ↔ s.kind = t.kind := by
  simp [Agree]

theorem agree_merge_left (h : Agree x y) :
    Agree (x.merge join y) z ↔ Agree x z ∧ Agree y z := by
  cases x with
  | none => simp
  | some s =>
    cases y with
    | none => simp
    | some t =>
      have hkind : s.kind = t.kind := agree_some_some.1 h
      cases z <;> simp [hkind]

theorem agree_merge_right (h : Agree y z) :
    Agree x (y.merge join z) ↔ Agree x y ∧ Agree x z := by
  cases y with
  | none => simp
  | some t =>
    cases z with
    | none => simp
    | some u =>
      have hkind : t.kind = u.kind := agree_some_some.1 h
      cases x <;> simp [hkind]

theorem merge_join_assoc (hy : ∀ t ∈ y, t.Sound) (hz : ∀ u ∈ z, u.Sound) (hxy : Agree x y)
    (hyz : Agree y z) : (x.merge join y).merge join z = x.merge join (y.merge join z) := by
  -- Only where all three are there is more than one metric put together on each side.
  cases x with
  | none => simp
  | some s =>
    cases y with
    | none => simp
    | some t =>
      cases z with
      | none => simp
      | some u =>
        simp only [Option.merge_some_some, Option.some.injEq]
        apply Sound.join_assoc (hy t rfl) (hz u rfl)
        . exact (hxy s t rfl rfl).symm
        . exact (hyz t u rfl rfl).symm

end Tracked

namespace Registry

/-!
## Two registries
-/

/--
The registry that comes of a merge, if the merge takes place.
-/
def join? (r other : Registry) : Option Registry :=
  match r.merge other with
  | (s, .ok _) => some s
  | (_, .error _) => none

theorem join?_eq_some_iff_merge {r other s : Registry} :
    r.join? other = some s ↔ ∃ n, r.merge other = (s, .ok n) := by
  unfold join?
  split
  . next heq => simp [heq]
  . next heq => simp [heq]

theorem Sound.join?_eq_some_iff {r other s : Registry} (h : r.Sound) (hother : other.Sound) :
    r.join? other = some s ↔
      r.Compatible other
        ∧ s.names = r.names ++ other.names.filter (· ∉ r.names)
        ∧ ∀ name, s.find? name = (r.find? name).merge Tracked.join (other.find? name) := by
  simp only [join?_eq_some_iff_merge, h.merge_eq_ok_iff hother, exists_eq_left]

theorem Sound.join? {r other s : Registry} (h : r.Sound) (hother : other.Sound)
    (hs : r.join? other = some s) : s.Sound := by
  obtain ⟨n, hmerge⟩ := join?_eq_some_iff_merge.1 hs
  have hsound := (h.merge hother).1
  rwa [hmerge] at hsound

theorem Sound.exists_join? {r other : Registry} (h : r.Sound) (hother : other.Sound)
    (hcompat : r.Compatible other) : ∃ s, r.join? other = some s := by
  exists (r.merge other).1
  rw [h.join?_eq_some_iff hother]
  exact ⟨hcompat, (h.merge_of_compatible hother hcompat).2⟩

/-!
## Three registries
-/

theorem filter_notMem_append_filter {as bs cs : List String} :
    (bs ++ cs.filter (· ∉ bs)).filter (· ∉ as)
      = bs.filter (· ∉ as) ++ cs.filter (· ∉ as ++ bs.filter (· ∉ as)) := by
  rw [List.filter_append, List.filter_filter]
  congr 1
  apply List.filter_congr
  intro name _
  by_cases has : name ∈ as <;> simp [has]

/--
Whether a registry has what three others have that agree in their kinds.
-/
structure Gathers (s a b c : Registry) : Prop where
  left : a.Compatible b
  outer : a.Compatible c
  right : b.Compatible c
  names : s.names = a.names ++ (b.names ++ c.names.filter (· ∉ b.names)).filter (· ∉ a.names)
  find? : ∀ name, s.find? name = (a.find? name).merge Tracked.join
    ((b.find? name).merge Tracked.join (c.find? name))

section

variable {a b c s : Registry} (ha : a.Sound) (hb : b.Sound) (hc : c.Sound)
include hb hc

theorem merge_join_find?_assoc (hab : a.Compatible b) (hbc : b.Compatible c) (name : String) :
    ((a.find? name).merge Tracked.join (b.find? name)).merge Tracked.join (c.find? name)
      = (a.find? name).merge Tracked.join
        ((b.find? name).merge Tracked.join (c.find? name)) :=
  Tracked.merge_join_assoc (hb.sound name) (hc.sound name) (hab name) (hbc name)

include ha

theorem gathers_iff_left : ((a.join? b).bind (·.join? c) = some s) ↔ s.Gathers a b c := by
  rw [Option.bind_eq_some_iff]
  constructor
  . rintro ⟨ab, hab, hs⟩
    obtain ⟨hcompat, hnames, hfind⟩ := (ha.join?_eq_some_iff hb).1 hab
    obtain ⟨hcompat', hnames', hfind'⟩ := ((ha.join? hb hab).join?_eq_some_iff hc).1 hs
    -- A registry fits what comes of two others if it fits both of them.
    have hboth : ∀ name, Tracked.Agree (a.find? name) (c.find? name)
        ∧ Tracked.Agree (b.find? name) (c.find? name) := by
      intro name
      rw [← Tracked.agree_merge_left (hcompat name), ← hfind]
      apply hcompat' name
    have hright : b.Compatible c := fun name => (hboth name).2
    refine ⟨hcompat, fun name => (hboth name).1, hright, ?_, ?_⟩
    . rw [hnames', hnames, filter_notMem_append_filter, List.append_assoc]
    . intro name
      rw [hfind', hfind, merge_join_find?_assoc hb hc hcompat hright]
  . rintro ⟨hleft, houter, hright, hnames, hfind⟩
    obtain ⟨ab, hab⟩ := ha.exists_join? hb hleft
    obtain ⟨-, hnames', hfind'⟩ := (ha.join?_eq_some_iff hb).1 hab
    refine ⟨ab, hab, ((ha.join? hb hab).join?_eq_some_iff hc).2 ⟨?_, ?_, ?_⟩⟩
    . intro name
      rw [hfind']
      exact (Tracked.agree_merge_left (hleft name)).2 ⟨houter name, hright name⟩
    . rw [hnames, hnames', filter_notMem_append_filter, List.append_assoc]
    . intro name
      rw [hfind, hfind', merge_join_find?_assoc hb hc hleft hright]

theorem gathers_iff_right : ((b.join? c).bind a.join? = some s) ↔ s.Gathers a b c := by
  rw [Option.bind_eq_some_iff]
  constructor
  . rintro ⟨bc, hbc, hs⟩
    obtain ⟨hcompat, hnames, hfind⟩ := (hb.join?_eq_some_iff hc).1 hbc
    obtain ⟨hcompat', hnames', hfind'⟩ := (ha.join?_eq_some_iff (hb.join? hc hbc)).1 hs
    have hboth : ∀ name, Tracked.Agree (a.find? name) (b.find? name)
        ∧ Tracked.Agree (a.find? name) (c.find? name) := by
      intro name
      rw [← Tracked.agree_merge_right (hcompat name), ← hfind]
      apply hcompat' name
    refine ⟨fun name => (hboth name).1, fun name => (hboth name).2, hcompat, ?_, ?_⟩
    . rw [hnames', hnames]
    . intro name
      rw [hfind', hfind]
  . rintro ⟨hleft, houter, hright, hnames, hfind⟩
    obtain ⟨bc, hbc⟩ := hb.exists_join? hc hright
    obtain ⟨-, hnames', hfind'⟩ := (hb.join?_eq_some_iff hc).1 hbc
    refine ⟨bc, hbc, (ha.join?_eq_some_iff (hb.join? hc hbc)).2 ⟨?_, ?_, ?_⟩⟩
    . intro name
      rw [hfind']
      exact (Tracked.agree_merge_right (hright name)).2 ⟨hleft name, houter name⟩
    . rw [hnames, hnames']
    . intro name
      rw [hfind, hfind']

theorem Sound.join?_assoc : (a.join? b).bind (·.join? c) = (b.join? c).bind a.join? := by
  ext s
  rw [gathers_iff_left ha hb hc, gathers_iff_right ha hb hc]

end

/-!
## The empty registry
-/

theorem merge_empty (r : Registry) : r.merge empty = (r, .ok 0) := rfl

theorem Sound.empty_merge {r : Registry} (h : r.Sound) : empty.merge r = (r, .ok r.size) := by
  have hcompat : empty.Compatible r := by
    intro name s t hs
    rw [find?_empty] at hs
    cases hs
  obtain ⟨hok, hnames, hfind⟩ := sound_empty.merge_of_compatible h hcompat
  refine Prod.ext (eq_of_find? ?_ ?_) hok
  . rw [hnames]
    simp [empty, names]
  . intro name
    rw [hfind, find?_empty, Option.merge_none_left]

/-!
## Many registries
-/

theorem Sound.join?_foldlM {a m : Registry} (ha : a.Sound) (hm : m.Sound) {bs : List Registry}
    (hbs : ∀ b ∈ bs, b.Sound) :
    (a.join? m).bind (bs.foldlM Registry.join? ·) = (bs.foldlM Registry.join? m).bind a.join? := by
  induction bs generalizing m with
  | nil => simp
  | cons b bs ih =>
    have hb := hbs b List.mem_cons_self
    have hrest : ∀ s, m.join? b = some s →
        (a.join? s).bind (bs.foldlM Registry.join? ·)
          = (bs.foldlM Registry.join? s).bind a.join? :=
      fun s hs => ih (hm.join? hb hs) fun b' hb' => hbs b' (List.mem_cons_of_mem b hb')
    -- The next registry is merged into those merged in between instead.
    calc (a.join? m).bind ((b :: bs).foldlM Registry.join? ·)
      _ = ((a.join? m).bind (·.join? b)).bind (bs.foldlM Registry.join? ·) := by
        simp only [List.foldlM_cons, Option.bind_eq_bind, Option.bind_assoc]
      _ = (m.join? b).bind fun s => (a.join? s).bind (bs.foldlM Registry.join? ·) := by
        rw [ha.join?_assoc hm hb, Option.bind_assoc]
      _ = (m.join? b).bind fun s => (bs.foldlM Registry.join? s).bind a.join? :=
        Option.bind_congr hrest
      _ = ((b :: bs).foldlM Registry.join? m).bind a.join? := by
        simp only [List.foldlM_cons, Option.bind_eq_bind, Option.bind_assoc]

/--
Merging is a monoid as far as it takes place. Of three registries the first two or the last two may
be merged first, and nothing is changed by an empty one. Hence registries that are merged one by one
may as well be gathered in a registry in between.
-/
theorem merge_monoid {a b c : Registry} (ha : a.Reachable) (hb : b.Reachable)
    (hc : c.Reachable) :
    (a.join? b).bind (·.join? c) = (b.join? c).bind a.join?
      ∧ empty.merge b = (b, .ok b.size)
      ∧ a.merge empty = (a, .ok 0)
      ∧ ∀ bs : List Registry, (∀ s ∈ bs, s.Reachable) →
        bs.foldlM Registry.join? a = (bs.foldlM Registry.join? empty).bind a.join? := by
  refine ⟨ha.sound.join?_assoc hb.sound hc.sound, hb.sound.empty_merge, a.merge_empty, ?_⟩
  intro bs hbs
  rw [← ha.sound.join?_foldlM sound_empty fun s hs => (hbs s hs).sound]
  rfl

/--
Three registries of which the outer ones have a gauge and the last two a counter.
-/
theorem merge_monoid_queue :
    let as : List Action :=
      [.create 0, .register 0 (.create 0 .integerGauge "queue" ""),
        .update 0 1 "queue" (.value (.integer 5)), .create 1,
        .register 1 (.create 0 .counter "tasks" ""), .update 1 2 "tasks" (.change .increment 3),
        .create 2, .merge 2 1, .merge 2 0, .update 2 4 "queue" (.value (.integer 6))]
    ∃ a b c s, World.run as 0 = some a ∧ World.run as 1 = some b ∧ World.run as 2 = some c
      ∧ (a.join? b).bind (·.join? c) = some s
      ∧ (b.join? c).bind a.join? = some s
      ∧ ([b, c].foldlM join? empty).bind a.join? = some s
      ∧ s.names = ["queue", "tasks"]
      ∧ s.find? "queue" = some ⟨⟨"queue", "", .integerGauge 6, 4⟩, 3,
        [⟨.integer 0, 0⟩, ⟨.integer 0, 0⟩, ⟨.integer 5, 1⟩]⟩ := by
  intro as
  obtain ⟨a, ha⟩ := Option.isSome_iff_exists.1 (by decide : (World.run as 0).isSome)
  obtain ⟨b, hb⟩ := Option.isSome_iff_exists.1 (by decide : (World.run as 1).isSome)
  obtain ⟨c, hc⟩ := Option.isSome_iff_exists.1 (by decide : (World.run as 2).isSome)
  have hmerged : (World.run as 0).bind (fun a => (World.run as 1).bind fun b =>
      (World.run as 2).bind fun c => ((a.join? b).bind (·.join? c)).map fun s =>
        (s.names, s.find? "queue"))
      = some (["queue", "tasks"], some ⟨⟨"queue", "", .integerGauge 6, 4⟩, 3,
        [⟨.integer 0, 0⟩, ⟨.integer 0, 0⟩, ⟨.integer 5, 1⟩]⟩) := by decide
  rw [ha, hb, hc] at hmerged
  simp only [Option.bind_some, Option.map_eq_some_iff, Prod.mk.injEq] at hmerged
  obtain ⟨s, hs, hnames, hqueue⟩ := hmerged
  have hbs : ∀ r ∈ [b, c], r.Reachable := by
    simp only [List.forall_mem_cons]
    exact ⟨⟨as, 1, hb⟩, ⟨as, 2, hc⟩, nofun⟩
  obtain ⟨hassoc, -, -, hmany⟩ := merge_monoid ⟨as, 0, ha⟩ ⟨as, 1, hb⟩ ⟨as, 2, hc⟩
  refine ⟨a, b, c, s, ha, hb, hc, hs, hassoc ▸ hs, ?_, hnames, hqueue⟩
  rw [← hmany [b, c] hbs, ← hs]
  simp

end Registry

end Metering
