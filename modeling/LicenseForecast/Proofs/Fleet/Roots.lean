import LicenseForecast.Proofs.Fleet.Agreement
import LicenseForecast.Proofs.Fleet.Subtree

namespace LicenseForecast

/-!
# Where pools are rooted

The root of a pool is found by counting links: it is the asset that lies as many links above a
machine as the aggregation type lies levels above the base type.  Its type is not looked at, and
the checks on loading do not relate the links of assets to those of types.  So

* `Scope.poolSums_eq_ok_iff` — a lookup that succeeds has added each machine to one pool, that of
  the asset so many links above it (`Scope.PooledBy`);
* `Scope.poolSums_eq_error_iff` — it fails at the first machine that has nothing so many links
  above it or whose contribution cannot be computed;
* `Store.pools_byLinks` — the pools are rooted at the aggregation type exactly if no machine is
  misplaced, which is so where the links follow the forest of types.
-/

open Decimal (unsignedMax)

namespace Scope

variable {s : Scope} {f : Forest} {id : String} {rule : PooledRule}

/-- The id of the root of the pool that an asset counts towards. -/
def poolOf (s : Scope) (rule : PooledRule) (a : Asset) : Option String :=
  (s.ascend rule.aggregateOffset a).map (·.id)

/-- An asset counts towards the pool of an asset that is not of the aggregation type. -/
def IsMisplaced (s : Scope) (rule : PooledRule) (a : Asset) : Prop :=
  ∃ root, s.ascend rule.aggregateOffset a = some root ∧ root.typeName ≠ rule.aggregate.name

/-- Every machine at or below an asset is added to one of the pools: once, to that of the asset
    so many links above it.  A pool holds the sum of its machines in their order. -/
structure PooledBy (s : Scope) (id : String) (rule : PooledRule) (pools : Dictionary Float) :
    Prop where
  counted : ∀ a, a ∈ s.members id rule ↔ a ∈ s.assets ∧ a.typeName = rule.base.name ∧
    ∃ k, (s.ascend k a).map (·.id) = some id
  once : (s.members id rule).Nodup
  rooted : ∀ a ∈ s.members id rule, ∃ root ∈ s.assets,
    s.ascend rule.aggregateOffset a = some root ∧
      ∀ pool, pool ∈ pools.keys ∧ s.poolOf rule a = some pool ↔ pool = root.id
  summed : ∃ contribution : Asset → Float,
    (∀ a ∈ s.members id rule, Formula.contribution rule a.readings = .ok (contribution a)) ∧
    ∀ pool, pools.get? pool = sum?
      (((s.members id rule).filter (s.poolOf rule · == some pool)).map contribution)

/-- Why an asset cannot be added to a pool. -/
inductive Unpooled (s : Scope) (rule : PooledRule) (a : Asset) : LookupFault → Prop
  | rootless (h : s.poolOf rule a = none) :
    Unpooled s rule a (.malformed s!"equipment {a.id} has no {rule.aggregate.name} ancestor")
  | failing {pool : String} {failure : Failure} (hpool : s.poolOf rule a = some pool)
      (h : Formula.contribution rule a.readings = .error failure) :
    Unpooled s rule a (.malformed s!"equipment {a.id}: {failure.message}")

/-- The first machine at or below an asset that cannot be added to a pool, and why. -/
def FirstUnpooled (s : Scope) (id : String) (rule : PooledRule) (fault : LookupFault) : Prop :=
  ∃ before a after, s.members id rule = before ++ a :: after ∧
    (∀ b ∈ before, ∃ pool c, s.poolOf rule b = some pool ∧
      Formula.contribution rule b.readings = .ok c) ∧
    s.Unpooled rule a fault

/-! ### Shares -/

/-- An asset has a share if it has a pool and its contribution can be computed. -/
theorem exists_share_eq_ok {a : Asset} : (∃ share, s.share rule a = .ok share) ↔
    ∃ pool c, s.poolOf rule a = some pool ∧ Formula.contribution rule a.readings = .ok c := by
  unfold poolOf
  simp only [Prod.exists, share_eq_ok, Option.map_eq_some_iff]
  constructor
  · rintro ⟨root, c, hroot, hc⟩
    exact ⟨root.id, c, ⟨root, hroot, rfl⟩, hc⟩
  · rintro ⟨_, c, ⟨root, hroot, rfl⟩, hc⟩
    exact ⟨root, c, hroot, hc⟩

/-- An asset without a share cannot be added to a pool, and the fault says why. -/
theorem share_eq_error {a : Asset} {fault : LookupFault} :
    s.share rule a = .error fault ↔ s.Unpooled rule a fault := by
  unfold share
  cases hroot : s.ascend rule.aggregateOffset a with
  | none =>
    have hpool : s.poolOf rule a = none := by
      unfold poolOf
      rw [hroot, Option.map_none]
    -- no root, no pool: the contribution is not even asked for
    constructor
    · intro h
      cases h
      exact .rootless hpool
    · intro h
      cases h with
      | rootless => rfl
      | failing hsome => cases hpool.symm.trans hsome
  | some root =>
    have hpool : s.poolOf rule a = some root.id := by
      unfold poolOf
      rw [hroot, Option.map_some]
    show (_ >>= _) = _ ↔ _
    rw [bind_eq_error]
    -- with a root, the only fault left is the contribution's
    constructor
    · rintro (h | ⟨_, -, h⟩)
      · obtain ⟨failure, hfailure, rfl⟩ := mapError_eq_error.mp h
        exact .failing hpool hfailure
      · cases h
    · intro h
      cases h with
      | rootless hnone => cases hpool.symm.trans hnone
      | failing _ h => exact .inl (mapError_eq_error.mpr ⟨_, h, rfl⟩)

/-- The contributions to a pool are those of the machines that count towards it. -/
theorem contributionsTo_eq {shares : List (Asset × Float)} {contribution : Asset → Float}
    (hshares : s.shares id rule = .ok shares)
    (h : ∀ a ∈ s.members id rule, Formula.contribution rule a.readings = .ok (contribution a))
    (pool : String) : contributionsTo pool shares
      = ((s.members id rule).filter (s.poolOf rule · == some pool)).map contribution := by
  -- what counts towards the pool has a root, so the part of the list that does can be computed
  have hpart : ((s.members id rule).filter (s.poolOf rule · == some pool)).mapM (s.share rule)
      = .ok (((s.members id rule).filter (s.poolOf rule · == some pool)).map fun a =>
          ((s.ascend rule.aggregateOffset a).getD a, contribution a)) := by
    refine mapM_of_forall fun a ha => ?_
    obtain ⟨ha, hpool⟩ := List.mem_filter.mp ha
    obtain ⟨root, hroot, -⟩ := Option.map_eq_some_iff.mp (beq_iff_eq.mp hpool)
    rw [share_eq_ok, hroot]
    exact ⟨rfl, h a ha⟩
  have hfilter : ((s.members id rule).filter (s.poolOf rule · == some pool)).mapM (s.share rule)
      = .ok (shares.filter (·.1.id == pool)) := by
    refine mapM_filter hshares fun a _ share hshare => ?_
    rw [poolOf, (share_eq_ok.mp hshare).1]
    rfl
  unfold contributionsTo
  rw [← Except.ok.inj (hpart.symm.trans hfilter), List.map_map]
  rfl

/-! ### Members -/

section

variable (hs : s.Sound f)

include hs

/-- The machines at or below an asset are those that come to it. -/
theorem mem_members_iff {a : Asset} : a ∈ s.members id rule ↔
    a ∈ s.assets ∧ a.typeName = rule.base.name ∧ ∃ k, (s.ascend k a).map (·.id) = some id := by
  unfold members
  rw [List.mem_filter, mem_subtree_iff hs, beq_iff_eq]
  constructor
  · rintro ⟨⟨ha, k, -, hk⟩, htype⟩
    exact ⟨ha, htype, k, hk⟩
  · rintro ⟨ha, htype, k, hk⟩
    exact ⟨⟨ha, k, nofun, hk⟩, htype⟩

/-- **A lookup that succeeds** has added each machine to the pool of the asset so many links
    above it. -/
theorem poolSums_eq_ok_iff {pools : Dictionary Float} :
    s.poolSums id rule = .ok pools ↔ s.PooledBy id rule pools := by
  rw [poolSums_eq_ok]
  constructor
  · rintro ⟨shares, hshares, rfl⟩
    have hmember : ∀ a ∈ s.members id rule, ∃ root c,
        s.ascend rule.aggregateOffset a = some root ∧
          Formula.contribution rule a.readings = .ok c := by
      intro a ha
      obtain ⟨⟨root, c⟩, -, hshare⟩ := exists_ok_of_mapM hshares ha
      exact ⟨root, c, share_eq_ok.mp hshare⟩
    have hcontribution : ∀ a ∈ s.members id rule, Formula.contribution rule a.readings
        = .ok ((Formula.contribution rule a.readings).toOption.getD 0.0) := by
      intro a ha
      obtain ⟨_, c, -, hc⟩ := hmember a ha
      rw [hc]
      rfl
    have hsum := fun pool => (get?_addShares shares pool).trans
      (congrArg sum? (contributionsTo_eq hshares hcontribution pool))
    refine ⟨fun a => mem_members_iff hs, (nodup_subtree hs id none).filter _, fun a ha => ?_,
      _, hcontribution, hsum⟩
    obtain ⟨root, _, hroot, -⟩ := hmember a ha
    have hpool : s.poolOf rule a = some root.id := by rw [poolOf, hroot, Option.map_some]
    refine ⟨root, mem_of_ascend (mem_assets_of_mem_members ha) hroot, hroot, fun pool => ?_⟩
    rw [hpool, Option.some.injEq]
    refine ⟨fun h => h.2.symm, fun h => ⟨?_, h.symm⟩⟩
    subst h
    -- the machine itself makes the pool
    rw [Dictionary.mem_keys_iff, hsum]
    have hcounts : a ∈ (s.members id rule).filter (s.poolOf rule · == some root.id) :=
      List.mem_filter.mpr ⟨ha, beq_iff_eq.mpr hpool⟩
    cases hfilter : (s.members id rule).filter (s.poolOf rule · == some root.id) with
    | nil =>
      rw [hfilter] at hcounts
      cases hcounts
    | cons => rfl
  · intro h
    obtain ⟨contribution, hcontribution, hsum⟩ := h.summed
    have hshares : s.shares id rule = .ok ((s.members id rule).map fun a =>
        ((s.ascend rule.aggregateOffset a).getD a, contribution a)) := by
      refine mapM_of_forall fun a ha => ?_
      obtain ⟨root, -, hroot, -⟩ := h.rooted a ha
      rw [share_eq_ok, hroot]
      exact ⟨rfl, hcontribution a ha⟩
    refine ⟨_, hshares, Dictionary.ext_get? fun pool => ?_⟩
    rw [hsum, get?_addShares, contributionsTo_eq hshares hcontribution]

end

/-- **A lookup that fails** does so at the first machine that cannot be added to a pool. -/
theorem poolSums_eq_error_iff {fault : LookupFault} :
    s.poolSums id rule = .error fault ↔ s.FirstUnpooled id rule fault := by
  have hshares : s.poolSums id rule = .error fault ↔ s.shares id rule = .error fault := by
    show (s.shares id rule >>= _) = _ ↔ _
    rw [bind_eq_error]
    exact ⟨fun h => h.resolve_right nofun, .inl⟩
  rw [hshares]
  unfold shares FirstUnpooled
  rw [mapM_eq_error]
  simp only [exists_share_eq_ok, share_eq_error]

/-- A pool has a machine that counts towards it. -/
theorem PooledBy.exists_counted {pools : Dictionary Float} (h : s.PooledBy id rule pools)
    {pool : String} (hpool : pool ∈ pools.keys) :
    ∃ a ∈ s.members id rule, s.poolOf rule a = some pool := by
  obtain ⟨contribution, -, hsum⟩ := h.summed
  rw [Dictionary.mem_keys_iff, hsum] at hpool
  -- a pool without a machine has no sum
  cases hcounted : (s.members id rule).filter (s.poolOf rule · == some pool) with
  | nil =>
    rw [hcounted] at hpool
    cases hpool
  | cons a rest =>
    obtain ⟨ha, hcounts⟩ := List.mem_filter.mp (hcounted ▸ List.mem_cons_self)
    exact ⟨a, ha, beq_iff_eq.mp hcounts⟩

/-! ### The types of roots -/

section

variable (hs : s.Sound f)

include hs

/-- **Pools are rooted at the aggregation type** exactly if no machine is misplaced. -/
theorem PooledBy.typed_iff {pools : Dictionary Float} (h : s.PooledBy id rule pools) :
    (∀ pool ∈ pools.keys, ∃ root, s.asset? pool = some root ∧
        root.typeName = rule.aggregate.name) ↔
      ∀ a ∈ s.members id rule, ¬ s.IsMisplaced rule a := by
  constructor
  · rintro htyped a ha ⟨root, hroot, hne⟩
    obtain ⟨root', hmem, hroot', hkey⟩ := h.rooted a ha
    cases hroot.symm.trans hroot'
    obtain ⟨root', hfound, htype⟩ := htyped root.id ((hkey root.id).mpr rfl).1
    cases (hs.asset?_eq hmem).symm.trans hfound
    exact hne htype
  · intro hplaced pool hpool
    obtain ⟨a, ha, hcounts⟩ := h.exists_counted hpool
    obtain ⟨root, hroot, rfl⟩ := Option.map_eq_some_iff.mp hcounts
    have hmem := mem_of_ascend (mem_assets_of_mem_members ha) hroot
    -- a root of another type would misplace the machine that counts towards it
    refine ⟨root, hs.asset?_eq hmem, ?_⟩
    by_contra hne
    exact hplaced a ha ⟨root, hroot, hne⟩

/-- **No machine is misplaced where the links follow the forest.** -/
theorem Linked.not_isMisplaced (hlinked : s.Linked f) (hplaced : rule.Placed f) {a : Asset}
    (ha : a ∈ s.members id rule) : ¬ s.IsMisplaced rule a := by
  rintro ⟨root, hroot, hne⟩
  obtain ⟨hmem, htype, -⟩ := (mem_members_iff hs).mp ha
  obtain ⟨i, hi, haggregate⟩ := hplaced.aggregate
  obtain ⟨j, hj, hascend⟩ := hlinked.ascend_index hmem (htype ▸ hplaced.base) hroot
  cases haggregate.symm.trans hascend
  exact hne (Forest.name_eq_of_indexOfName? hj hi)

end

/-! ### Both lookups -/

/-- The figures of all pools as if they were one. -/
def figuresOf (pools : Dictionary Float) : PoolFigures :=
  let fractional := pools.values.foldl (· + ·) 0.0
  ⟨Formula.ceilLicenses fractional, fractional⟩

/-- The figures are there where the pools can be made. -/
theorem pooledLicenses_eq_ok {figures : PoolFigures} : s.pooledLicenses id rule = .ok figures ↔
    ∃ pools, s.poolSums id rule = .ok pools ∧ figures = figuresOf pools := by
  unfold pooledLicenses
  simp only [bind_eq_ok, pure_eq_ok]
  exact exists_congr fun pools => and_congr_right fun _ => eq_comm

/-- The figures are missing where the pools cannot be made, and nowhere else. -/
theorem pooledLicenses_eq_error {fault : LookupFault} :
    s.pooledLicenses id rule = .error fault ↔ s.poolSums id rule = .error fault := by
  unfold pooledLicenses
  rw [bind_eq_error]
  exact ⟨fun h => h.resolve_right nofun, .inl⟩

/-- What becomes of the two lookups of licences at or below an asset: `total` adds up its pools,
    which may be too much for 64 bits, and `figures` takes them as one. -/
structure PoolsByLinks (s : Scope) (f : Forest) (id : String) (rule : PooledRule)
    (total : Except LookupFault Nat) (figures : Except LookupFault PoolFigures) : Prop where
  total_ok : ∀ licenses, total = .ok licenses ↔
    ∃ pools, s.PooledBy id rule pools ∧ licensesOf pools ≤ unsignedMax ∧
      licenses = licensesOf pools
  figures_ok : ∀ values, figures = .ok values ↔
    ∃ pools, s.PooledBy id rule pools ∧ values = figuresOf pools
  failed : ∀ fault, (total = .error fault ↔ s.FirstUnpooled id rule fault ∨
      fault = .overflow ∧ ∃ pools, s.PooledBy id rule pools ∧ unsignedMax < licensesOf pools) ∧
    (figures = .error fault ↔ s.FirstUnpooled id rule fault)
  /-- A machine with nothing so many links above it makes both fail. -/
  rootless : ∀ a ∈ s.members id rule, s.poolOf rule a = none →
    ∃ text, total = .error (.malformed text) ∧ figures = .error (.malformed text)
  typed : ∀ pools, s.PooledBy id rule pools →
    ((∀ pool ∈ pools.keys, ∃ root, s.asset? pool = some root ∧
        root.typeName = rule.aggregate.name) ↔
      ∀ a ∈ s.members id rule, ¬ s.IsMisplaced rule a)
  linked : s.Linked f → ∀ a ∈ s.members id rule, ¬ s.IsMisplaced rule a

/-- A machine without a root keeps the pools from being made. -/
theorem poolSums_of_rootless {a : Asset} (ha : a ∈ s.members id rule)
    (hnone : s.poolOf rule a = none) : ∃ text, s.poolSums id rule = .error (.malformed text) := by
  cases hsums : s.poolSums id rule with
  | ok pools =>
    obtain ⟨shares, hshares, -⟩ := poolSums_eq_ok.mp hsums
    obtain ⟨share, -, hshare⟩ := exists_ok_of_mapM hshares ha
    obtain ⟨pool, -, hpool, -⟩ := exists_share_eq_ok.mp ⟨share, hshare⟩
    cases hnone.symm.trans hpool
  | error fault =>
    obtain ⟨_, _, _, -, -, hunpooled⟩ := poolSums_eq_error_iff.mp hsums
    cases hunpooled with
    | rootless => exact ⟨_, rfl⟩
    | failing => exact ⟨_, rfl⟩

end Scope

/-- **Pools are found by counting links.**  Each machine at or below an asset is added to one
    pool, that of the asset as many links above it as the aggregation type lies above the base
    type, and the lookups fail where there is none.  All pools are rooted at the aggregation type
    exactly if none of these assets is of another type, which nobody checks; it is so where the
    links follow the forest of types. -/
theorem Store.pools_byLinks {store : Store} {scopes : List String} {id typeName : String}
    {s : Scope} {f : Forest} {metric : Metric} {rule : PooledRule}
    (hfind : (store.visible scopes).find? (·.holds id typeName) = some s)
    (hforest : Forest.ofTypes s.types = .ok f) (hrule : metric.rule f = .ok (.pooled rule)) :
    s.PoolsByLinks f id rule (store.inventory scopes (.computedLicenses id typeName rule))
      (store.inventory scopes (.pooledLicenses id typeName rule)) := by
  obtain ⟨f', hs⟩ := Store.sound_of_visible (List.mem_of_find?_eq_some hfind)
  cases hs.types_eq.symm.trans hforest
  have hplaced := Metric.placed_of_rule (Forest.sound_of_ofTypes hforest).1 hrule
  have htotal : store.inventory scopes (.computedLicenses id typeName rule)
      = s.computedLicenses id rule :=
    Scope.anchored_of_find? hfind fun s => s.computedLicenses id rule
  have hfigures : store.inventory scopes (.pooledLicenses id typeName rule)
      = s.pooledLicenses id rule :=
    Scope.anchored_of_find? hfind fun s => s.pooledLicenses id rule
  rw [htotal, hfigures]
  -- both figures come from the same pools, so what holds of the pools holds of both
  constructor
  case total_ok =>
    intro licenses
    simp only [Scope.computedLicenses_eq_ok, Scope.poolSums_eq_ok_iff hs]
  case figures_ok =>
    intro values
    simp only [Scope.pooledLicenses_eq_ok, Scope.poolSums_eq_ok_iff hs]
  case failed =>
    intro fault
    rw [Scope.computedLicenses_eq_error, Scope.pooledLicenses_eq_error,
      Scope.poolSums_eq_error_iff]
    simp only [Scope.poolSums_eq_ok_iff hs, and_self]
  case rootless =>
    intro a ha hnone
    obtain ⟨text, htext⟩ := Scope.poolSums_of_rootless ha hnone
    exact ⟨text, Scope.computedLicenses_of_fault htext, Scope.pooledLicenses_eq_error.mpr htext⟩
  case typed => exact fun pools h => h.typed_iff hs
  case linked => exact fun hlinked a ha => hlinked.not_isMisplaced hs hplaced ha

/-! ### A server without a cluster -/

namespace SkippedLevel

open TwoClusters (types asset rule)

/-- A server right below a data centre. -/
def server : Asset := (asset "s" "server" (some "d")).withValue "c" (.float 2.0)

/-- A data centre with a server and nothing between them. -/
def scope : Scope where
  types := types
  assets := [asset "d" "datacenter" none, server]

def store : Store :=
  ⟨{ strict := false }, ⟨⟨[("main", scope)], List.pairwise_singleton ..⟩⟩, by decide +kernel⟩

/-- The server has no cluster above it, but its eight licences count, in a pool whose root is the
    data centre. -/
theorem pool_of_server :
    store.inventory ["main"] (.computedLicenses "d" "datacenter" rule) = .ok 8 ∧
    ∃ pools, scope.PooledBy "d" rule pools ∧
      ¬ ∀ pool ∈ pools.keys, ∃ root, scope.asset? pool = some root ∧
        root.typeName = rule.aggregate.name := by
  have htotal : store.inventory ["main"] (.computedLicenses "d" "datacenter" rule) = .ok 8 := by
    decide +kernel
  have hfind : (store.visible ["main"]).find? (·.holds "d" "datacenter") = some scope := rfl
  have hpools := Store.pools_byLinks hfind TwoClusters.ofTypes_types TwoClusters.rule_metric
  obtain ⟨pools, h, -⟩ := (hpools.total_ok 8).mp htotal
  refine ⟨htotal, pools, h, fun htyped => ?_⟩
  have hcounted : server ∈ scope.members "d" rule :=
    (h.counted server).mpr ⟨List.mem_cons_of_mem _ List.mem_cons_self, rfl, 1, rfl⟩
  exact (hpools.typed pools h).mp htyped server hcounted ⟨_, rfl, by decide⟩

end SkippedLevel

end LicenseForecast
