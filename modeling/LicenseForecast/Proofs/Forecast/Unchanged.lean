import LicenseForecast.Proofs.Forecast.PerProduct
import LicenseForecast.Proofs.Forecast.Prediction

namespace LicenseForecast

/-!
# Requests that change nothing

A request whose overrides propose what they observe has the same readings on both sides, hence the
same contribution.  As long as that is finite no row changes.  Attributes that are finite can have
a product that is not; such a contribution is no number less itself, the exchange does not see
that nothing has changed, and the whole pool is gone (`forecast_unchanged`).
-/

open Decimal (unsignedMax)

/-- Totals fit into 64 bits. -/
def Inventory.InRange (inventory : Inventory) : Prop :=
  ∀ id typeName rule total,
    inventory (.computedLicenses id typeName rule) = .ok total → total ≤ unsignedMax

/-- The total of a scope fits into 64 bits, or there is none. -/
theorem Scope.computedLicenses_le {s : Scope} {id : String} {rule : PooledRule} {total : Nat}
    (h : s.computedLicenses id rule = .ok total) : total ≤ unsignedMax := by
  obtain ⟨pools, -, hfits, rfl⟩ := Scope.computedLicenses_eq_ok.mp h
  exact hfits

/-- What a fleet answers fits into 64 bits. -/
theorem Scope.inventory_inRange (scopes : List Scope) : (Scope.inventory scopes).InRange := by
  intro id typeName rule total h
  replace h : Scope.anchored scopes id typeName (·.computedLicenses id rule) = .ok total := h
  unfold Scope.anchored at h
  split at h
  · cases h
  · exact Scope.computedLicenses_le h

namespace Basis

/-- The contribution before the change is finite, where there is one. -/
def isFinite : Basis → Bool
  | .direct .. => true
  | .pooled _ _ _ _ oldContribution _ => oldContribution.isFinite

/-- The same on both sides. -/
def Unchanged : Basis → Prop
  | .direct _ oldLicenses newLicenses => newLicenses = oldLicenses
  | .pooled _ _ old new oldContribution newContribution =>
    new = old ∧ newContribution = oldContribution

variable {inventory : Inventory} {basis : Basis} {totals : Formula.Splice}

/-- The same readings are told to whoever looks for users. -/
theorem usersAfter_eq (h : basis.Unchanged) (product : Product) :
    basis.usersAfter inventory product = basis.usersBefore inventory product := by
  cases basis with
  | direct rule oldLicenses newLicenses => rfl
  | pooled rule chain old new oldContribution newContribution =>
    obtain ⟨rfl, -⟩ := h
    rfl

/-- The totals of an unchanged basis are the same on both sides if the contribution is finite. -/
theorem newTotal_eq (hrange : inventory.InRange) (h : basis.Unchanged)
    (hfinite : basis.isFinite = true)
    (htotals : basis.splice inventory = .ok totals) : totals.newTotal = totals.oldTotal := by
  cases basis with
  | direct rule oldLicenses newLicenses =>
    cases htotals
    exact h
  | pooled rule chain old new oldContribution newContribution =>
    obtain ⟨rfl, rfl⟩ := h
    simp only [splice, bind_eq_ok, pure_eq_ok] at htotals
    obtain ⟨total, htotal, pool, -, rfl⟩ := htotals
    exact Formula.newTotal_self (hrange _ _ _ _ (Failure.demanded_eq_ok.mp htotal)) pool hfinite

/-- Otherwise the pool is taken out of the total. -/
theorem newTotal_eq_sub (hrange : inventory.InRange) (h : basis.Unchanged)
    (hfinite : basis.isFinite = false) (htotals : basis.splice inventory = .ok totals) :
    totals.newTotal = totals.oldTotal - totals.oldPool := by
  cases basis with
  | direct rule oldLicenses newLicenses => cases hfinite
  | pooled rule chain old new oldContribution newContribution =>
    obtain ⟨rfl, rfl⟩ := h
    simp only [splice, bind_eq_ok, pure_eq_ok] at htotals
    obtain ⟨total, htotal, pool, -, rfl⟩ := htotals
    exact Formula.newTotal_self_of_not_isFinite
      (hrange _ _ _ _ (Failure.demanded_eq_ok.mp htotal)) pool hfinite

end Basis

namespace Request

variable {inventory : Inventory} {request : Request} {basis : Basis}

/-- Overrides that propose what they observe lead to a basis that is the same on both sides. -/
theorem unchanged_of_basis (hunchanged : ∀ o ∈ request.overrides, o.Unchanged)
    (h : request.basis.result inventory none = .ok basis) : basis.Unchanged := by
  obtain ⟨family, old, new, forest, rule, -, hsides, -, hbasis⟩ := basis_eq_ok.mp h
  cases Readings.before_eq_after hunchanged hsides
  cases rule with
  | direct rule =>
    obtain ⟨o, n, ho, hn, rfl⟩ := Basis.of_direct_eq_ok.mp hbasis
    exact Except.ok.inj (hn.symm.trans ho)
  | pooled rule =>
    obtain ⟨chain, o, n, -, ho, hn, rfl⟩ := Basis.of_pooled_eq_ok.mp hbasis
    exact ⟨rfl, Except.ok.inj (hn.symm.trans ho)⟩

/-- **A request that changes nothing.**  If the contribution is finite, or there is none, no row of
    its forecast changes.  If it is not finite, every row after the change is what it would be with
    the whole pool taken out of the total, so that processors count alike only if the pool or the
    total is empty. -/
theorem forecast_unchanged {interruption : Nat → Option Interruption} {forecast : Forecast}
    (hrange : inventory.InRange) (hunchanged : ∀ o ∈ request.overrides, o.Unchanged)
    (hok : (request.forecast.run ⟨fun _ => inventory, interruption⟩ 0).2 = .ok forecast) :
    ∃ basis, request.basis.result inventory none = .ok basis ∧
      (basis.isFinite = true → ∀ row ∈ forecast.rows,
        row.newLicenses = row.oldLicenses ∧ row.delta = 0) ∧
      (basis.isFinite = false → ∀ row ∈ forecast.rows, ∃ totals users,
        basis.splice inventory = .ok totals ∧
        users = listed (basis.usersBefore inventory row.product) ∧
        row.oldLicenses = basis.licensesAt totals.oldTotal users ∧
        row.newLicenses = basis.licensesAt (totals.oldTotal - totals.oldPool) users ∧
        (basis.threshold? = none →
          (row.newLicenses = row.oldLicenses ↔ totals.oldTotal = 0 ∨ totals.oldPool = 0))) := by
  obtain ⟨basis, hbasis, h⟩ := forecast_eq_ok.mp (Inquiry.result_of_run_eq_ok hok)
  refine ⟨basis, hbasis, ?_⟩
  rcases h with ⟨-, hnone⟩ | ⟨products, -, hrows⟩
  · rw [hnone]
    exact ⟨fun _ => nofun, fun _ => nofun⟩
  -- the two sides of a row differ in the totals alone
  have hsame := unchanged_of_basis hunchanged hbasis
  obtain ⟨totals, htotals, -⟩ := Basis.rows_eq_ok.mp hrows
  have hrow : ∀ row ∈ forecast.rows, row = .of basis.metricName row.product
      (basis.licensesAt totals.oldTotal (listed (basis.usersBefore inventory row.product)))
      (basis.licensesAt totals.newTotal (listed (basis.usersBefore inventory row.product))) := by
    intro row hmem
    refine (Basis.eq_row_of_mem_rows hrows htotals hmem).trans ?_
    rw [Basis.row, Basis.usersAfter_eq hsame]
  constructor
  · intro hfinite row hmem
    rw [hrow row hmem, Basis.newTotal_eq hrange hsame hfinite htotals]
    exact ⟨rfl, Formula.difference_self _⟩
  · intro hinfinite row hmem
    have hnew := Basis.newTotal_eq_sub hrange hsame hinfinite htotals
    refine ⟨totals, _, htotals, rfl, ?_, ?_, fun hthreshold => ?_⟩
    · rw [hrow row hmem]
      rfl
    · rw [hrow row hmem, hnew]
      rfl
    · rw [hrow row hmem, hnew]
      show basis.licensesAt _ _ = basis.licensesAt _ _ ↔ _
      simp only [Basis.licensesAt, hthreshold]
      omega

end Request

/-- The figures of the server fit into 64 bits. -/
private theorem oneServer_inRange : oneServer.InRange := by
  intro id typeName rule total h
  cases h
  exact Nat.le_of_ble_eq_true rfl

/-- The same number of cores on both sides changes nothing. -/
private theorem oneServer_request_unchanged (x : Float) :
    ∀ o ∈ (oneServer.request x x).overrides, o.Unchanged := by
  intro o ho
  rw [List.mem_singleton.mp ho]
  rfl

/-- One core in place of one changes nothing. -/
private theorem toOneCore_unchanged : ∀ o ∈ (TwoClusters.toOneCore 1.0).overrides, o.Unchanged := by
  intro o ho
  rw [List.mem_singleton.mp ho]
  rfl

open TwoClusters (store toOneCore) in
/-- Nothing changes with a few cores, neither with one server nor in the fleet of two clusters, but
    with `1e200` of everything the licences are gone. -/
theorem oneServer_unchanged :
    (∃ basis, (oneServer.request 2.0 2.0).basis.result oneServer none = .ok basis ∧
      basis.isFinite = true ∧ (oneServer.request 2.0 2.0).forecast.result oneServer none
        = .ok ⟨[.of "users" ⟨"database", "db"⟩ 80 80, .of "users" ⟨"cache", "ch"⟩ 80 80]⟩) ∧
    (∃ basis, (toOneCore 1.0).basis.result (store.inventory ["main"]) none = .ok basis ∧
      basis.isFinite = true ∧ (toOneCore 1.0).forecast.result (store.inventory ["main"]) none
        = .ok ⟨[.of "processors" ⟨"database", "db"⟩ 12 12]⟩) ∧
    ∃ basis, (oneServer.request 1e200 1e200).basis.result oneServer none = .ok basis ∧
      basis.isFinite = false ∧ (oneServer.request 1e200 1e200).forecast.result oneServer none
        = .ok ⟨[.of "users" ⟨"database", "db"⟩ 80 0, .of "users" ⟨"cache", "ch"⟩ 80 50]⟩ := by
  refine ⟨?_, ?_, ?_⟩
  · have hok : ((oneServer.request 2.0 2.0).forecast.run (.still oneServer) 0).2
        = .ok ⟨[.of "users" ⟨"database", "db"⟩ 80 80, .of "users" ⟨"cache", "ch"⟩ 80 80]⟩ := by
      decide +kernel
    have hfinite : Basis.isFinite <$> (oneServer.request 2.0 2.0).basis.result oneServer none
        = .ok true := by
      decide +kernel
    -- finite on both sides: the figures stay
    obtain ⟨basis, hbasis, -, -⟩ := Request.forecast_unchanged oneServer_inRange
      (oneServer_request_unchanged 2.0) hok
    rw [hbasis] at hfinite
    exact ⟨basis, hbasis, Except.ok.inj hfinite, hok⟩
  · have hok : ((toOneCore 1.0).forecast.run (.still (store.inventory ["main"])) 0).2
        = .ok ⟨[.of "processors" ⟨"database", "db"⟩ 12 12]⟩ := by
      decide +kernel
    have hfinite : Basis.isFinite <$>
        (toOneCore 1.0).basis.result (store.inventory ["main"]) none = .ok true := by
      decide +kernel
    -- the same from a store, whose answers are in range by themselves
    obtain ⟨basis, hbasis, -, -⟩ := Request.forecast_unchanged (Scope.inventory_inRange _)
      toOneCore_unchanged hok
    replace hbasis : (toOneCore 1.0).basis.result (store.inventory ["main"]) none = .ok basis :=
      hbasis
    rw [hbasis] at hfinite
    exact ⟨basis, hbasis, Except.ok.inj hfinite, hok⟩
  · have hok : ((oneServer.request 1e200 1e200).forecast.run (.still oneServer) 0).2
        = .ok ⟨[.of "users" ⟨"database", "db"⟩ 80 0, .of "users" ⟨"cache", "ch"⟩ 80 50]⟩ := by
      decide +kernel
    -- an infinite contribution: the pool is given up and rounded anew
    obtain ⟨basis, hbasis, hunchanged, -⟩ := Request.forecast_unchanged oneServer_inRange
      (oneServer_request_unchanged 1e200) hok
    refine ⟨basis, hbasis, ?_, hok⟩
    cases hfinite : basis.isFinite with
    | false => rfl
    | true => exact absurd (hunchanged hfinite _ List.mem_cons_self).1 (by decide)

end LicenseForecast
