import LicenseForecast.Proofs.Fleet.Generation
import LicenseForecast.Proofs.Fleet.Pools
import LicenseForecast.Proofs.Metric.Rule
import LicenseForecast.Proofs.Store

namespace LicenseForecast

/-!
# Two ways to the figures of a pool

A fleet is asked for the licences of a pool twice: within the total of the equipment at the top
(`computedLicenses`), and on its own, from the root of the pool (`pooledLicenses`).  In a linked
scope both look at the same equipment in the same order (`Scope.members_filter`), so the figure
of a pool is its summand in the total, and what a simulation takes out of a total is in there.
-/

namespace Scope

variable {s : Scope} {f : Forest} {rule : PooledRule}

/-- Whether an asset belongs to the pool of a root. -/
def isInPool (s : Scope) (rule : PooledRule) (root a : Asset) : Bool :=
  (s.ascend rule.aggregateOffset a).any (·.id == root.id)

/-! ### The same equipment in the same order -/

section

variable (hs : s.Sound f) (hlinked : s.Linked f) (hplaced : rule.Placed f)

include hs hlinked hplaced

/-- The equipment that counts below one of the end type. -/
theorem members_top {top : Asset} (htop : top ∈ s.assets) (htype : top.typeName = rule.top.name) :
    s.members top.id rule
      = (s.generation rule.topOffset [top]).filter (·.typeName == rule.base.name) := by
  obtain ⟨j, hj, hascend⟩ := hplaced.top
  exact filter_subtree hs hlinked htop hplaced.base (htype ▸ hj) hascend

/-- The equipment that counts below the root of a pool. -/
theorem members_root {root : Asset} (hroot : root ∈ s.assets)
    (htype : root.typeName = rule.aggregate.name) :
    s.members root.id rule
      = (s.generation rule.aggregateOffset [root]).filter (·.typeName == rule.base.name) := by
  obtain ⟨j, hj, hascend⟩ := hplaced.aggregate
  exact filter_subtree hs hlinked hroot hplaced.base (htype ▸ hj) hascend

/-- The roots of pools below an asset of the end type are all in one generation. -/
theorem mem_generation_of_root {top root : Asset} (htop : top ∈ s.assets)
    (htype : top.typeName = rule.top.name) (hroot : root ∈ s.subtree top.id none)
    (hrootType : root.typeName = rule.aggregate.name) :
    root ∈ s.generation (rule.topOffset - rule.aggregateOffset) [top] := by
  obtain ⟨i, hi, hagg⟩ := hplaced.aggregate
  obtain ⟨j, hj, hoff⟩ := hplaced.top
  have hdistance : f.ascend (rule.topOffset - rule.aggregateOffset) i = some j := by
    rw [← Nat.add_sub_of_le hplaced.aggregate_le_top, Forest.ascend_add, hagg] at hoff
    exact hoff
  have hfilter := filter_subtree hs hlinked htop hi (htype ▸ hj) hdistance
  have hmem : root ∈ (s.subtree top.id none).filter (·.typeName == rule.aggregate.name) :=
    List.mem_filter.mpr ⟨hroot, beq_iff_eq.mpr hrootType⟩
  rw [hfilter] at hmem
  exact (List.mem_filter.mp hmem).1

/-- **The equipment of a pool** is the part of the equipment below the top that belongs to it, in
    the same order. -/
theorem members_filter {top root : Asset} (htop : top ∈ s.assets)
    (htype : top.typeName = rule.top.name)
    (hgeneration : root ∈ s.generation (rule.topOffset - rule.aggregateOffset) [top])
    (hrootType : root.typeName = rule.aggregate.name) :
    s.members root.id rule = (s.members top.id rule).filter (s.isInPool rule root) := by
  have hmem : root ∈ s.assets := ((mem_generation hs htop).mp hgeneration).1
  -- below the top the pools lie side by side
  have hsplit : s.generation rule.topOffset [top]
      = (s.generation (rule.topOffset - rule.aggregateOffset) [top]).flatMap
          fun g => s.generation rule.aggregateOffset [g] := by
    rw [← generation_eq_flatMap, ← generation_add, Nat.sub_add_cancel hplaced.aggregate_le_top]
  have hpool : ∀ g ∈ s.assets, ∀ a ∈ s.generation rule.aggregateOffset [g],
      s.isInPool rule root a = (g.id == root.id) := by
    intro g hg a ha
    unfold isInPool
    rw [((mem_generation hs hg).mp ha).2]
    rfl
  rw [members_top hs hlinked hplaced htop htype, members_root hs hlinked hplaced hmem hrootType,
    hsplit, List.filter_flatMap, List.filter_flatMap]
  have hroots : ∀ g ∈ s.generation (rule.topOffset - rule.aggregateOffset) [top], g ≠ root →
      ((s.generation rule.aggregateOffset [g]).filter (·.typeName == rule.base.name)).filter
        (s.isInPool rule root) = [] := by
    intro g hg hne
    rw [List.filter_eq_nil_iff]
    intro a ha
    have hg := ((mem_generation hs htop).mp hg).1
    rw [hpool g hg a (List.mem_filter.mp ha).1, beq_iff_eq]
    exact fun hid => hne (hs.eq_of_id_eq hg hmem hid)
  rw [flatMap_eq_single (nodup_generation hs htop) hgeneration hroots]
  symm
  rw [List.filter_eq_self]
  intro a ha
  rw [hpool root hmem a (List.mem_filter.mp ha).1]
  exact beq_self_eq_true _

end

/-! ### The same shares -/

/-- What an asset has a share in, and how large it is. -/
theorem share_eq_ok {a pool : Asset} {c : Float} : s.share rule a = .ok (pool, c) ↔
    s.ascend rule.aggregateOffset a = some pool ∧
      Formula.contribution rule a.readings = .ok c := by
  unfold share
  cases s.ascend rule.aggregateOffset a with
  | none => exact ⟨nofun, nofun⟩
  | some root =>
    simp only [bind_eq_ok, pure_eq_ok, mapError_eq_ok, Prod.mk.injEq, Option.some.injEq]
    constructor
    · rintro ⟨_, hc, rfl, rfl⟩
      exact ⟨rfl, hc⟩
    · rintro ⟨rfl, hc⟩
      exact ⟨c, hc, rfl, rfl⟩

/-- The shares below the root of a pool are those of the pool among all. -/
theorem shares_root {top root : Asset} {shares : List (Asset × Float)}
    (hmembers : s.members root.id rule = (s.members top.id rule).filter (s.isInPool rule root))
    (hshares : s.shares top.id rule = .ok shares) :
    s.shares root.id rule = .ok (shares.filter (·.1.id == root.id)) := by
  unfold Scope.shares
  rw [hmembers]
  refine mapM_filter hshares fun a _ share hshare => ?_
  obtain ⟨hpool, -⟩ := share_eq_ok.mp hshare
  unfold isInPool
  rw [hpool]
  rfl

/-- **The figures of a pool are in the total**: they exist if the total does, and their licences
    are what stands for the pool in the sum of all. -/
theorem pooledLicenses_root {top root : Asset} {pools : Dictionary Float}
    (hmembers : s.members root.id rule = (s.members top.id rule).filter (s.isInPool rule root))
    (hpools : s.poolSums top.id rule = .ok pools) :
    ∃ figures, s.pooledLicenses root.id rule = .ok figures ∧
      figures.licenses = ((pools.get? root.id).map Formula.ceilLicenses).getD 0 ∧
      Decimal.Eqv figures.fractional ((pools.get? root.id).getD 0.0) := by
  obtain ⟨shares, hshares, rfl⟩ := poolSums_eq_ok.mp hpools
  obtain ⟨figures, hfigures, hlicenses, hfractional⟩ := pooledLicenses_of_forall
    (shares_root hmembers hshares) fun share h => beq_iff_eq.mp (List.mem_filter.mp h).2
  have hsame : contributionsTo root.id (shares.filter (·.1.id == root.id))
      = contributionsTo root.id shares := by
    unfold contributionsTo
    rw [List.filter_filter]
    simp only [Bool.and_self]
  rw [hsame, ← get?_addShares] at hlicenses hfractional
  exact ⟨figures, hfigures, hlicenses, hfractional⟩

end Scope

/-- **The two lookups of a pool agree.**  If a total can be computed, so can the figures of each
    pool below; they come from the equipment that the total counts towards the pool, in the same
    order, and are its summand in the total, rounded and unrounded.  The pool is at most the total,
    and an exchange within it never stops at zero. -/
theorem Store.pooledLicenses_agree {store : Store} {scopes : List String} {s : Scope} {f : Forest}
    {metric : Metric} {rule : PooledRule} {top root : Asset} {total : Nat}
    (hvisible : store.visible scopes = [s])
    (hforest : Forest.ofTypes s.types = .ok f) (hlinked : s.Linked f)
    (hrule : metric.rule f = .ok (.pooled rule))
    (htop : top ∈ s.assets) (htopType : top.typeName = rule.top.name)
    (hroot : root ∈ s.subtree top.id none) (hrootType : root.typeName = rule.aggregate.name)
    (htotal : store.inventory scopes (.computedLicenses top.id top.typeName rule) = .ok total) :
    ∃ pools figures, s.poolSums top.id rule = .ok pools ∧ total = Scope.licensesOf pools ∧
      store.inventory scopes (.pooledLicenses root.id root.typeName rule) = .ok figures ∧
      s.members root.id rule = (s.members top.id rule).filter (s.isInPool rule root) ∧
      figures.licenses = ((pools.get? root.id).map Formula.ceilLicenses).getD 0 ∧
      Decimal.Eqv figures.fractional ((pools.get? root.id).getD 0.0) ∧
      (s.members root.id rule = [] → pools.get? root.id = none) ∧
      figures.licenses ≤ total ∧
      ∀ old new, 0 ≤ (total : Int) - figures.licenses + Formula.newPool figures old new := by
  have hmem : s ∈ store.visible scopes := hvisible ▸ List.mem_singleton_self s
  obtain ⟨f', hs⟩ := Store.sound_of_visible hmem
  cases hs.types_eq.symm.trans hforest
  have hplaced := Metric.placed_of_rule (Forest.sound_of_ofTypes hforest).1 hrule
  have hgeneration := Scope.mem_generation_of_root hs hlinked hplaced htop htopType hroot hrootType
  have hrootMem : root ∈ s.assets := ((Scope.mem_generation hs htop).mp hgeneration).1
  have hmembers := Scope.members_filter hs hlinked hplaced htop htopType hgeneration hrootType
  -- with one scope visible, both questions go to it
  unfold Store.inventory at htotal ⊢
  rw [hvisible] at htotal ⊢
  rw [hs.inventory_computedLicenses htop] at htotal
  rw [hs.inventory_pooledLicenses hrootMem]
  obtain ⟨pools, hpools, -, htotalEq⟩ := Scope.computedLicenses_eq_ok.mp htotal
  obtain ⟨figures, hfigures, hlicenses, hfractional⟩ :=
    Scope.pooledLicenses_root hmembers hpools
  have hle : figures.licenses ≤ total := by
    rw [hlicenses, htotalEq]
    cases hget : pools.get? root.id with
    | none => exact Nat.zero_le _
    | some sum => exact Dictionary.le_sum Formula.ceilLicenses hget
  refine ⟨pools, figures, hpools, htotalEq, hfigures, hmembers, hlicenses, hfractional,
    fun hempty => ?_, hle, fun old new => by omega⟩
  -- no equipment means no share, and without a share the pool has no sum
  obtain ⟨shares, hshares, rfl⟩ := Scope.poolSums_eq_ok.mp hpools
  have hnone := Scope.shares_root hmembers hshares
  unfold Scope.shares at hnone
  rw [hempty, List.mapM_nil, pure_eq_ok] at hnone
  rw [Scope.get?_addShares]
  unfold Scope.contributionsTo
  rw [← hnone]
  rfl

/-! ### Two clusters -/

namespace TwoClusters

/-- One attribute stands for cores, processors and core factor. -/
def cores : Attribute := { id := "c", name := "cores", kind := .float }

/-- Servers in clusters in data centres. -/
def types : List EquipmentType :=
  [{ id := "1", name := "server", parentId := some "2", attributes := [cores] },
    { id := "2", name := "cluster", parentId := some "3" },
    { id := "3", name := "datacenter" }]

/-- The forest of these types: each of them is part of the next one. -/
def forest : Forest := ⟨types.toArray, #[some 1, some 2, none]⟩

/-- Servers count cluster by cluster. -/
def metric : PooledMetric := ⟨"m", "processors", "c", "c", "c", "1", "1", "2", "3"⟩

/-- The rule of the metric: pools are clusters, one level up, and the total is two levels up. -/
def rule : PooledRule where
  family := .ops
  name := "processors"
  start := { id := "1", name := "server", parentId := some "2", attributes := [cores] }
  base := { id := "1", name := "server", parentId := some "2", attributes := [cores] }
  aggregate := { id := "2", name := "cluster", parentId := some "3" }
  top := { id := "3", name := "datacenter" }
  cores := cores
  cpus := cores
  coreFactor := cores
  usersPerProcessor := none
  baseIndex := 0
  aggregateOffset := 1
  topOffset := 2
  depth := 2

/-- Equipment without values. -/
def asset (id typeName : String) (parentId : Option String) : Asset :=
  { id, typeName, parentId }

/-- A server in the first cluster. -/
def server (cores : Float) : Asset :=
  (asset "s" "server" (some "b")).withValue "c" (.float cores)

/-- A server in either cluster, the first with the given number of cores. -/
def scope (cores : Float) : Scope where
  types := types
  metrics := [.ops metric]
  assets := [asset "d" "datacenter" none, asset "b" "cluster" (some "d"),
    asset "e" "cluster" (some "d"), server cores,
    (asset "t" "server" (some "e")).withValue "c" (.float 1.5)]
  products := [{ name := "database", tag := "db", equipment := ["s"] }]

/-- A fleet of this scope alone. -/
def fleet (cores : Float) : Fleet := ⟨⟨[("main", scope cores)], List.pairwise_singleton ..⟩⟩

/-- The store of a fleet with two cores in the first server. -/
def store : Store := ⟨{ strict := false }, fleet 2.0, by decide +kernel⟩

private theorem visible_store : store.visible ["main"] = [scope 2.0] := rfl

theorem ofTypes_types : Forest.ofTypes types = .ok forest := by decide +kernel

private theorem linked_scope : (scope 2.0).Linked forest := by decide +kernel

theorem rule_metric : (Metric.ops metric).rule forest = .ok (.pooled rule) := by
  decide +kernel

private theorem subtree_top : (scope 2.0).subtree "d" none = (scope 2.0).assets := rfl

/-- The first of two clusters, within a total of twelve licences. -/
theorem pooledLicenses_firstCluster : ∃ pools figures,
    store.inventory ["main"] (.computedLicenses "d" "datacenter" rule) = .ok 12 ∧
    (scope 2.0).poolSums "d" rule = .ok pools ∧
    store.inventory ["main"] (.pooledLicenses "b" "cluster" rule) = .ok figures ∧
    (scope 2.0).members "b" rule = ((scope 2.0).members "d" rule).filter
      ((scope 2.0).isInPool rule (asset "b" "cluster" (some "d"))) ∧
    figures.licenses = ((pools.get? "b").map Formula.ceilLicenses).getD 0 ∧
    Decimal.Eqv figures.fractional ((pools.get? "b").getD 0.0) ∧ figures.licenses ≤ 12 := by
  have htotal : store.inventory ["main"] (.computedLicenses "d" "datacenter" rule) = .ok 12 := by
    decide +kernel
  have hroot : asset "b" "cluster" (some "d") ∈ (scope 2.0).subtree "d" none := by
    rw [subtree_top]
    exact List.mem_cons_of_mem _ List.mem_cons_self
  obtain ⟨pools, figures, hpools, -, hfigures, hmembers, hlicenses, hfractional, -, hle, -⟩ :=
    Store.pooledLicenses_agree visible_store ofTypes_types linked_scope rule_metric
      List.mem_cons_self rfl hroot rfl htotal
  exact ⟨pools, figures, htotal, hpools, hfigures, hmembers, hlicenses, hfractional, hle⟩

end TwoClusters

end LicenseForecast
