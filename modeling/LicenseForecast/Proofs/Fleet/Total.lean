import LicenseForecast.Proofs.Fleet.Roots

namespace LicenseForecast

/-!
# The total of all pools

The licences of each pool fit into 64 bits, but their sum need not.  How many there are is said
here machine by machine, without the dictionary in which a lookup collects the pools
(`Scope.exactLicenses`); the lookup answers that number or nothing at all.

* `Scope.PooledBy.licensesOf_eq` — the pools of a lookup add up to the exact number;
* `Scope.licensesOf_le` — one pool always fits, so it takes two to leave 64 bits;
* `Store.computedLicenses_checked` — what is answered, and where the program stops instead of
  answering the largest number that fits.
-/

open Decimal (unsignedMax)

namespace Scope

variable {s : Scope} {id : String} {rule : PooledRule} {pools : Dictionary Float}

/-- The sum of contributions to a pool of the machines at or below an asset, in their order. -/
def poolSum (s : Scope) (id : String) (rule : PooledRule) (pool : String) : Float :=
  (((s.members id rule).filter (s.poolOf rule · == some pool)).map fun a =>
    (Formula.contribution rule a.readings).toOption.getD 0.0).foldl (· + ·) 0.0

/-- The licences of all pools that machines at or below an asset count towards, each rounded up on
    its own, however many these are. -/
def exactLicenses (s : Scope) (id : String) (rule : PooledRule) : Nat :=
  ∑ pool ∈ ((s.members id rule).filterMap (s.poolOf rule)).toFinset,
    Formula.ceilLicenses (s.poolSum id rule pool)

/-! ### The exact number -/

/-- The pools are those that some machine counts towards. -/
theorem PooledBy.mem_keys_iff (h : s.PooledBy id rule pools) {pool : String} :
    pool ∈ pools.keys ↔ ∃ a ∈ s.members id rule, s.poolOf rule a = some pool := by
  refine ⟨h.exists_counted, ?_⟩
  rintro ⟨a, ha, hpool⟩
  obtain ⟨root, -, hroot, hkey⟩ := h.rooted a ha
  rw [poolOf, hroot, Option.map_some, Option.some.injEq] at hpool
  exact ((hkey pool).mpr hpool.symm).1

/-- What stands under the id of a pool is the sum of its machines' contributions. -/
theorem PooledBy.get?_eq (h : s.PooledBy id rule pools) {pool : String} {sum : Float}
    (hget : pools.get? pool = some sum) : sum = s.poolSum id rule pool := by
  obtain ⟨contribution, hcontribution, hsum⟩ := h.summed
  have hmap : ((s.members id rule).filter (s.poolOf rule · == some pool)).map contribution
      = ((s.members id rule).filter (s.poolOf rule · == some pool)).map fun a =>
          (Formula.contribution rule a.readings).toOption.getD 0.0 := by
    refine List.map_congr_left fun a ha => ?_
    rw [hcontribution a (List.mem_filter.mp ha).1]
    rfl
  rw [hsum, hmap] at hget
  unfold poolSum
  generalize ((s.members id rule).filter (s.poolOf rule · == some pool)).map _ = summands at hget ⊢
  -- no sum stands under the id of a pool that no machine counts towards
  cases summands with
  | nil => cases hget
  | cons c rest => exact (Option.some.inj hget).symm

/-- **The pools of a lookup add up to the exact number of licences.** -/
theorem PooledBy.licensesOf_eq (h : s.PooledBy id rule pools) :
    licensesOf pools = s.exactLicenses id rule := by
  have hkeys : pools.keys.toFinset = ((s.members id rule).filterMap (s.poolOf rule)).toFinset := by
    ext pool
    rw [List.mem_toFinset, List.mem_toFinset, List.mem_filterMap, h.mem_keys_iff]
  unfold licensesOf exactLicenses
  -- the keys of a dictionary do not repeat, so its values are summed over the set of them
  rw [← hkeys]
  refine Dictionary.sum_values fun pool sum hget => ?_
  rw [h.get?_eq hget]

/-- **Each pool fits into 64 bits.** -/
theorem licensesOf_le (pools : Dictionary Float) :
    licensesOf pools ≤ pools.keys.length * unsignedMax := by
  have hle : ∀ licenses ∈ pools.values.map Formula.ceilLicenses, licenses ≤ unsignedMax := by
    intro licenses hmem
    obtain ⟨sum, -, rfl⟩ := List.mem_map.mp hmem
    exact Formula.ceilLicenses_le sum
  have hsum := List.sum_le_card_nsmul _ _ hle
  rw [List.length_map, smul_eq_mul] at hsum
  rwa [Dictionary.keys, List.length_map, ← List.length_map (f := (·.2))]

end Scope

/-! ### The answer -/

/-- **The total of all pools is the exact number of licences or none.**  Where the pools can be made
    they are added up, which is all right as long as the sum fits into 64 bits, as it does for a
    single pool.  From there on the program stops: no answer is ever less than the exact number, but
    the largest number that fits, as other figures would be, is none either. -/
theorem Store.computedLicenses_checked {store : Store} {scopes : List String}
    {id typeName : String} {s : Scope} {rule : PooledRule} {pools : Dictionary Float}
    (hfind : (store.visible scopes).find? (·.holds id typeName) = some s)
    (hpools : s.poolSums id rule = .ok pools) :
    store.inventory scopes (.computedLicenses id typeName rule)
        = (if s.exactLicenses id rule ≤ unsignedMax then .ok (s.exactLicenses id rule)
          else .error .overflow) ∧
      (store.inventory scopes (.computedLicenses id typeName rule)
          = .ok (min unsignedMax (s.exactLicenses id rule)) ↔
        s.exactLicenses id rule ≤ unsignedMax) ∧
      (pools.keys.length ≤ 1 → s.exactLicenses id rule ≤ unsignedMax) := by
  obtain ⟨f, hs⟩ := Store.sound_of_visible (List.mem_of_find?_eq_some hfind)
  have hexact := ((Scope.poolSums_eq_ok_iff hs).mp hpools).licensesOf_eq
  have htotal : store.inventory scopes (.computedLicenses id typeName rule)
      = if s.exactLicenses id rule ≤ unsignedMax then .ok (s.exactLicenses id rule)
        else .error .overflow := by
    refine (Scope.anchored_of_find? hfind fun s => s.computedLicenses id rule).trans ?_
    rw [Scope.computedLicenses_of_poolSums hpools, hexact]
  refine ⟨htotal, ?_, fun hone => ?_⟩
  · rw [htotal]
    split
    next hfits => exact iff_of_true (congrArg _ (Nat.min_eq_right hfits).symm) hfits
    next hfits => exact iff_of_false nofun hfits
  -- a single pool is capped by itself
  · have hle := Scope.licensesOf_le pools
    rw [hexact] at hle
    exact hle.trans ((Nat.mul_le_mul_right _ hone).trans_eq (Nat.one_mul _))

/-! ### Two full clusters -/

namespace FullClusters

open TwoClusters (types asset rule)

/-- A server that contributes `2 ^ 63` licences. -/
def server (id cluster : String) : Asset :=
  (asset id "server" (some cluster)).withValue "c" (.float 2097152.0)

/-- Two clusters, each half as large as 64 bits can count. -/
def scope : Scope where
  types := types
  assets := [asset "d" "datacenter" none, asset "b" "cluster" (some "d"),
    asset "e" "cluster" (some "d"), server "s" "b", server "t" "e"]

def store : Store :=
  ⟨{ strict := false }, ⟨⟨[("main", scope)], List.pairwise_singleton ..⟩⟩, by decide +kernel⟩

/-- Two full clusters need one licence more than 64 bits can count to, and there is no answer. -/
theorem computedLicenses_fullClusters : ∃ pools, scope.poolSums "d" rule = .ok pools ∧
    scope.exactLicenses "d" rule = unsignedMax + 1 ∧
    store.inventory ["main"] (.computedLicenses "d" "datacenter" rule) = .error .overflow := by
  have hsums : (scope.poolSums "d" rule).toOption.isSome = true := by decide +kernel
  have hexact : scope.exactLicenses "d" rule = unsignedMax + 1 := by decide +kernel
  have hfind : (store.visible ["main"]).find? (·.holds "d" "datacenter") = some scope := rfl
  cases hpools : scope.poolSums "d" rule with
  | error fault =>
    rw [hpools] at hsums
    cases hsums
  | ok pools =>
    have htotal := (Store.computedLicenses_checked hfind hpools).1
    rw [hexact, if_neg (Nat.not_succ_le_self _)] at htotal
    exact ⟨pools, rfl, hexact, htotal⟩

end FullClusters

end LicenseForecast
