import LicenseForecast.Fleet.Lookup
import LicenseForecast.Proofs.Decimal.Sum
import LicenseForecast.Proofs.Dictionary
import LicenseForecast.Proofs.Formula.Splice
import LicenseForecast.Proofs.Outcome

namespace LicenseForecast.Scope

/-!
# Sums of contributions, pool by pool

`Scope.poolSums` takes the equipment of the base type below an asset (`members`), finds the pool
and the contribution of each (`shares`) and adds up contributions under the ids of their pools.
What stands under an id is the sum of the shares in that pool, in their order (`get?_poolSums`).
-/

open Decimal (unsignedMax)

/-- The contributions to a pool, in order. -/
def contributionsTo (pool : String) (shares : List (Asset × Float)) : List Float :=
  (shares.filter (·.1.id == pool)).map (·.2)

/-- The sum of contributions, if there are any. -/
def sum? : List Float → Option Float
  | [] => none
  | c :: cs => some ((c :: cs).foldl (· + ·) 0.0)

/-- The licences of several pools, each rounded up on its own. -/
def licensesOf (pools : Dictionary Float) : Nat := (pools.values.map Formula.ceilLicenses).sum

variable {s : Scope} {id : String} {rule : PooledRule}

/-! ### Members -/

/-- Levels consist of assets of the scope. -/
private theorem mem_assets_of_mem_levels {root a : Asset} {n : Nat} {level : List Asset}
    (hlevel : ∀ t ∈ level, t ∈ s.assets) (ha : a ∈ s.levels root n level) : a ∈ s.assets := by
  induction n generalizing level with
  | zero => exact hlevel a ha
  | succ n ih =>
    rcases List.mem_append.mp ha with ha | ha
    · exact hlevel a ha
    · refine ih (fun t ht => ?_) ha
      obtain ⟨p, -, ht⟩ := List.mem_flatMap.mp (List.mem_filter.mp ht).1
      exact (List.mem_filter.mp ht).1

/-- What counts below an asset belongs to the scope. -/
theorem mem_assets_of_mem_members {a : Asset} (ha : a ∈ s.members id rule) : a ∈ s.assets := by
  have ha := (List.mem_filter.mp ha).1
  unfold subtree at ha
  split at ha
  · cases ha
  next root hroot =>
    refine mem_assets_of_mem_levels (fun t ht => ?_) ha
    rw [List.mem_singleton.mp ht]
    exact List.mem_of_find?_eq_some hroot

/-! ### Pools -/

/-- Shares are added up pool by pool, on top of what stands there. -/
private theorem get?_foldl_addShare (shares : List (Asset × Float)) (pools : Dictionary Float)
    (pool : String) :
    (shares.foldl addShare pools).get? pool
      = match contributionsTo pool shares with
        | [] => pools.get? pool
        | cs => some (cs.foldl (· + ·) ((pools.get? pool).getD 0.0)) := by
  induction shares generalizing pools with
  | nil => rfl
  | cons share rest ih =>
    -- what goes to the pool is added before the rest, and nothing else touches it
    rw [List.foldl_cons, ih]
    by_cases hpool : share.1.id = pool
    · have hcs : contributionsTo pool (share :: rest) = share.2 :: contributionsTo pool rest := by
        unfold contributionsTo
        rw [List.filter_cons_of_pos (by simpa using hpool), List.map_cons]
      have hget : (addShare pools share).get? pool
          = some ((pools.get? pool).getD 0.0 + share.2) := by
        unfold addShare
        rw [hpool]
        exact Dictionary.get?_insert_self ..
      rw [hcs, hget]
      cases contributionsTo pool rest <;> rfl
    · have hcs : contributionsTo pool (share :: rest) = contributionsTo pool rest := by
        unfold contributionsTo
        rw [List.filter_cons_of_neg (by simpa using hpool)]
      have hget : (addShare pools share).get? pool = pools.get? pool :=
        Dictionary.get?_insert_of_ne (Ne.symm hpool)
      rw [hcs, hget]

/-- **What stands under the id of a pool** is the sum of its contributions. -/
theorem get?_addShares (shares : List (Asset × Float)) (pool : String) :
    (shares.foldl addShare .empty).get? pool = sum? (contributionsTo pool shares) := by
  rw [get?_foldl_addShare]
  cases contributionsTo pool shares <;> rfl

/-- The pools are made from the shares of all members. -/
theorem poolSums_eq_ok {pools : Dictionary Float} : s.poolSums id rule = .ok pools ↔
    ∃ shares, s.shares id rule = .ok shares ∧ pools = shares.foldl addShare .empty := by
  unfold poolSums
  simp only [bind_eq_ok, pure_eq_ok]
  exact exists_congr fun shares => and_congr_right fun _ => eq_comm

/-- **The licences of all pools** are added up where the pools can be made.  If the sum does not fit
    into 64 bits the program stops. -/
theorem computedLicenses_of_poolSums {pools : Dictionary Float}
    (hpools : s.poolSums id rule = .ok pools) : s.computedLicenses id rule
      = if licensesOf pools ≤ unsignedMax then .ok (licensesOf pools) else .error .overflow := by
  unfold computedLicenses
  rw [hpools]
  show (Decimal.sumUnsigned _).mapError _ = _
  rw [Decimal.sumUnsigned_eq]
  show Except.mapError _ (if licensesOf pools ≤ unsignedMax then _ else _) = _
  split <;> rfl

/-- Without the pools there is nothing to add up. -/
theorem computedLicenses_of_fault {fault : LookupFault}
    (hpools : s.poolSums id rule = .error fault) : s.computedLicenses id rule = .error fault := by
  unfold computedLicenses
  rw [hpools]
  rfl

/-- There is a total where the pools can be made and their sum fits. -/
theorem computedLicenses_eq_ok {total : Nat} : s.computedLicenses id rule = .ok total ↔
    ∃ pools, s.poolSums id rule = .ok pools ∧ licensesOf pools ≤ unsignedMax ∧
      total = licensesOf pools := by
  cases hpools : s.poolSums id rule with
  | error fault =>
    rw [computedLicenses_of_fault hpools]
    exact ⟨nofun, fun ⟨_, h, _⟩ => nomatch h⟩
  | ok pools =>
    rw [computedLicenses_of_poolSums hpools]
    simp only [Except.ok.injEq, exists_eq_left']
    split
    next hfits => rw [Except.ok.injEq, eq_comm, and_iff_right hfits]
    next hfits => exact ⟨nofun, fun h => absurd h.1 hfits⟩

/-- There is none where the pools cannot be made or their sum does not fit. -/
theorem computedLicenses_eq_error {fault : LookupFault} :
    s.computedLicenses id rule = .error fault ↔ s.poolSums id rule = .error fault ∨
      fault = .overflow ∧ ∃ pools, s.poolSums id rule = .ok pools ∧
        unsignedMax < licensesOf pools := by
  cases hpools : s.poolSums id rule with
  | error cause =>
    rw [computedLicenses_of_fault hpools]
    simp only [Except.error.injEq, reduceCtorEq, false_and, exists_false, and_false, or_false]
  | ok pools =>
    rw [computedLicenses_of_poolSums hpools]
    simp only [Except.ok.injEq, exists_eq_left', reduceCtorEq, false_or]
    split
    next hfits => exact ⟨nofun, fun h => absurd hfits (Nat.not_le.mpr h.2)⟩
    next hfits =>
      rw [Except.error.injEq, eq_comm, and_iff_left (Nat.lt_of_not_le hfits)]

/-! ### One pool alone -/

/-- Shares that are all in one pool make a dictionary of it alone. -/
private theorem addShares_of_forall {pool : String} {shares : List (Asset × Float)}
    (h : ∀ share ∈ shares, share.1.id = pool) :
    shares.foldl addShare .empty = match sum? (contributionsTo pool shares) with
      | none => .empty
      | some sum => Dictionary.empty.insert pool sum := by
  refine Dictionary.ext_get? fun key => ?_
  rw [get?_addShares]
  -- there is one key, so nothing is added to any other
  by_cases hkey : key = pool
  · subst hkey
    cases sum? (contributionsTo key shares) with
    | none => rfl
    | some sum => exact (Dictionary.get?_insert_self ..).symm
  · have hnone : contributionsTo key shares = [] := by
      unfold contributionsTo
      rw [List.filter_eq_nil_iff.mpr, List.map_nil]
      intro share hshare heq
      exact hkey ((beq_iff_eq.mp heq).symm.trans (h share hshare))
    rw [hnone]
    cases sum? (contributionsTo pool shares) with
    | none => rfl
    | some sum =>
      show none = (Dictionary.empty.insert pool sum).get? key
      rw [Dictionary.get?_insert_of_ne hkey, Dictionary.get?_empty]

/-- **The figures of a pool** that all shares below its root are in: the sum of contributions, but
    for the sign of a zero, rounded up. -/
theorem pooledLicenses_of_forall {shares : List (Asset × Float)}
    (hshares : s.shares id rule = .ok shares) (h : ∀ share ∈ shares, share.1.id = id) :
    ∃ figures, s.pooledLicenses id rule = .ok figures ∧
      figures.licenses = ((sum? (contributionsTo id shares)).map Formula.ceilLicenses).getD 0 ∧
      Decimal.Eqv figures.fractional ((sum? (contributionsTo id shares)).getD 0.0) := by
  have hpools := poolSums_eq_ok.mpr ⟨shares, hshares, rfl⟩
  unfold pooledLicenses
  rw [hpools, addShares_of_forall h]
  refine ⟨_, rfl, ?_⟩
  cases sum? (contributionsTo id shares) with
  | none => exact ⟨Formula.ceilLicenses_of_isZero Decimal.isZero_zero, Decimal.Eqv.refl _⟩
  | some sum =>
    have hsum : Decimal.Eqv (0.0 + sum) sum := Decimal.zero_add_eqv sum Decimal.isZero_zero
    exact ⟨Formula.ceilLicenses_congr hsum, hsum⟩

end LicenseForecast.Scope
