import LicenseForecast.Proofs.Decimal.Sum
import LicenseForecast.Proofs.Forecast.Nothing
import LicenseForecast.Proofs.Formula.Difference

namespace LicenseForecast

/-!
# Deltas and their total

The delta of a row is the difference of its capped figures, and the total of a forecast is the sum
of its deltas, as long as no sum on the way leaves 64 bits with a sign:

* `Request.forecast_deltas` — what the delta of a row tells of its figures, in every forecast that
  succeeds;
* `Request.forecast_totalDelta` — when there is a total, and what the sum is where every product
  has the same figures.
-/

open Decimal (unsignedMax signedMax FitsSigned)

/-! ### One row -/

/-- Where a product has a row, the delta is the difference of the figures. -/
theorem Basis.delta_of_entryAt {world : Inquiry.World} {i : Nat} {product : Product}
    {totals : Formula.Splice} {basis : Basis} {row : Row}
    (h : basis.entryAt world i product totals = some row) :
    row.delta = Formula.difference row.oldLicenses row.newLicenses := by
  unfold entryAt at h
  split at h
  · cases h
    rfl
  · cases h

namespace Request

variable {request : Request} {world : Inquiry.World} {forecast : Forecast}

/-- **Every row of a forecast that succeeds** has the difference of its figures. -/
theorem delta_of_run (hok : (request.forecast.run world 0).2 = .ok forecast) {row : Row}
    (hrow : row ∈ forecast.rows) :
    row.delta = Formula.difference row.oldLicenses row.newLicenses := by
  -- every row stands in the place of a product, and without products there is none
  obtain ⟨basis, hbasis, hnone | ⟨products, hproducts⟩⟩ := products_of_run hok
  · rw [hnone] at hrow
    cases hrow
  · obtain ⟨totals, -, -, hrows⟩ := rows_of_run hbasis hproducts hok
    rw [hrows] at hrow
    obtain ⟨place, -, hentry⟩ := List.mem_filterMap.mp hrow
    exact Basis.delta_of_entryAt hentry

/-- **Deltas are capped**, in whatever world a forecast succeeds, and so are those of the totals
    that its rows are made from.  A delta is the change as long as both figures fit into 64 bits
    with a sign, and above that it may say that nothing changes. -/
theorem forecast_deltas (request : Request) (world : Inquiry.World) :
    (∀ forecast, (request.forecast.run world 0).2 = .ok forecast → ∀ row ∈ forecast.rows,
      Formula.IsCapped row.oldLicenses row.newLicenses row.delta) ∧
    ∀ totals : Formula.Splice, Formula.IsCapped totals.oldTotal totals.newTotal totals.delta := by
  constructor
  · intro forecast hok row hrow
    rw [delta_of_run hok hrow]
    exact Formula.difference_capped _ _
  · exact fun totals => Formula.difference_capped _ _

end Request

/-- The server, where an empty pool is part of a total. -/
def oneServer.within (total : Nat) : Inventory
  | .computedLicenses .. => .ok total
  | .pooledLicenses .. => .ok ⟨0, 0.0⟩
  | query => oneServer query

/-- Seven more processors within a large total make 70 more licences, and a delta that says
    nothing of them. -/
theorem oneServer_deltas : ∃ forecast,
    ((oneServer.request 1.0 2.0).forecast.run (.still (oneServer.within 1000000000000000000)) 0).2
      = .ok forecast ∧
    ∃ row ∈ forecast.rows, row.newLicenses = row.oldLicenses + 70 ∧ row.delta = 0 ∧
      ¬ Formula.Tells row.oldLicenses row.newLicenses row.delta := by
  have hok : ((oneServer.request 1.0 2.0).forecast.run
      (.still (oneServer.within 1000000000000000000)) 0).2
        = .ok ⟨[.of "users" ⟨"database", "db"⟩ 10000000000000000000 10000000000000000070,
          .of "users" ⟨"cache", "ch"⟩ 10000000000000000000 10000000000000000070]⟩ := by
    decide +kernel
  have hcapped := (Request.forecast_deltas _ _).1 _ hok _ (List.mem_cons_self ..)
  refine ⟨_, hok, _, List.mem_cons_self .., rfl, by decide, ?_⟩
  rw [hcapped.tells_iff]
  decide

/-! ### The total -/

namespace Forecast

/-- The sum of all deltas, however large that is. -/
def exactDelta (f : Forecast) : Int := (f.rows.map Row.delta).sum

/-- When a forecast has a total: the program stops at the first sum on the way that does not fit. -/
structure TotalChecked (f : Forecast) : Prop where
  /-- There is one exactly if the deltas of the first rows, however many, have a sum that fits. -/
  ok_iff : ∀ total, f.totalDelta = .ok total ↔
    total = f.exactDelta ∧ ∀ n, FitsSigned (exactDelta ⟨f.rows.take n⟩)
  /-- A sum that does not fit is not brought to the nearest number that does. -/
  stopped : ¬ FitsSigned f.exactDelta → f.totalDelta = .error ⟨⟩
  /-- Where all rows change in the same direction, the sum itself decides. -/
  aligned : (∀ row ∈ f.rows, 0 ≤ row.delta) ∨ (∀ row ∈ f.rows, row.delta ≤ 0) →
    (f.totalDelta = .ok f.exactDelta ↔ FitsSigned f.exactDelta)
  /-- One row never leaves 64 bits. -/
  single : f.rows.length ≤ 1 → f.totalDelta = .ok f.exactDelta
  /-- Any number of rows stays within 64 bits if their figures are small enough for that. -/
  sized : ∀ most, (∀ row ∈ f.rows, row.oldLicenses ≤ most ∧ row.newLicenses ≤ most) →
    f.rows.length * most ≤ signedMax → f.totalDelta = .ok f.exactDelta

variable {f : Forecast}

/-- Few rows with small deltas have a total. -/
theorem totalDelta_of_bounded {most : Nat}
    (h : ∀ row ∈ f.rows, -(most : Int) ≤ row.delta ∧ row.delta ≤ most)
    (hmost : f.rows.length * most ≤ signedMax) : f.totalDelta = .ok f.exactDelta := by
  have hdeltas : ∀ delta ∈ f.rows.map Row.delta, -(most : Int) ≤ delta ∧ delta ≤ most := by
    intro delta hdelta
    obtain ⟨row, hrow, rfl⟩ := List.mem_map.mp hdelta
    exact h row hrow
  refine Decimal.sumSigned_of_bounded hdeltas ?_
  rwa [List.length_map]

/-- Rows that change in the same direction have a total if the sum fits. -/
theorem totalDelta_of_aligned
    (h : (∀ row ∈ f.rows, 0 ≤ row.delta) ∨ ∀ row ∈ f.rows, row.delta ≤ 0) :
    f.totalDelta = .ok f.exactDelta ↔ FitsSigned f.exactDelta := by
  refine Decimal.sumSigned_of_aligned (h.imp ?_ ?_) <;>
  · intro h delta hdelta
    obtain ⟨row, hrow, rfl⟩ := List.mem_map.mp hdelta
    exact h row hrow

/-- When there is a total, as long as each delta is that of capped figures. -/
theorem totalChecked_of_capped
    (h : ∀ row ∈ f.rows, Formula.IsCapped row.oldLicenses row.newLicenses row.delta) :
    f.TotalChecked := by
  constructor
  case ok_iff =>
    intro total
    refine Decimal.sumSigned_eq_ok.trans (and_congr_right fun _ => ?_)
    simp only [exactDelta, List.map_take]
  case stopped => exact Decimal.sumSigned_of_not_fits
  case aligned => exact totalDelta_of_aligned
  case single =>
    intro hone
    exact totalDelta_of_bounded (fun row hrow => (h row hrow).bounded)
      ((Nat.mul_le_mul_right _ hone).trans_eq (Nat.one_mul _))
  case sized =>
    intro most hmost hrows
    -- a capped difference lies between zero and the change, which figures up to `most` bound
    refine totalDelta_of_bounded (fun row hrow => ?_) hrows
    obtain ⟨hold, hnew⟩ := hmost row hrow
    rcases Nat.le_total row.oldLicenses row.newLicenses with hle | hle
    · have hrise := (h row hrow).rise hle
      omega
    · have hfall := (h row hrow).fall hle
      omega

end Forecast

namespace Request

variable {request : Request} {world : Inquiry.World} {forecast : Forecast}

/-- Where users do not count, the sum is one difference, as often as there are products, and there
    is a total if that fits. -/
theorem exactDelta_of_run {basis : Basis} {products : List Product}
    (hbasis : request.basis.result world.answers none = .ok basis)
    (hfamily : basis.family ≠ .nup)
    (hproducts : basis.installed world.answers request = .ok products)
    (hok : (request.forecast.run world 0).2 = .ok forecast) :
    ∃ totals, basis.splice world.answers = .ok totals ∧
      forecast.exactDelta = products.length * totals.delta ∧
      (forecast.totalDelta = .ok forecast.exactDelta ↔ FitsSigned forecast.exactDelta) := by
  -- without users, every product has the one difference that the splice has
  have hnone : basis.threshold? = none :=
    Option.not_isSome_iff_eq_none.mp fun h => hfamily ((threshold_isSome_of_basis hbasis).mp h)
  obtain ⟨totals, htotals, -, hrows⟩ := rows_of_run hbasis hproducts hok
  rw [Basis.entries_of_threshold_none hnone] at hrows
  have hdeltas : forecast.rows.map Row.delta = products.map fun _ => totals.delta := by
    rw [hrows, List.map_map]
    rfl
  have hsame : ∀ row ∈ forecast.rows, row.delta = totals.delta := by
    intro row hrow
    rw [hrows] at hrow
    obtain ⟨_, -, rfl⟩ := List.mem_map.mp hrow
    rfl
  refine ⟨totals, htotals, ?_, Forecast.totalDelta_of_aligned ?_⟩
  · unfold Forecast.exactDelta
    rw [hdeltas, List.map_const', List.sum_replicate, nsmul_eq_mul]
  · -- equal summands are of one sign
    rcases Int.le_total 0 totals.delta with h | h
    · exact .inl fun row hrow => (hsame row hrow).symm ▸ h
    · exact .inr fun row hrow => (hsame row hrow).symm ▸ h

/-- **The total delta is the exact sum or none**, in whatever world a forecast succeeds.  The deltas
    are added row by row, and the program stops where a sum on the way does not fit into 64 bits
    with a sign, be it that the rows after it would bring it back.  Where users do not count, the
    sum is the delta of the totals once for each product, so that enough products leave 64 bits. -/
theorem forecast_totalDelta (hok : (request.forecast.run world 0).2 = .ok forecast) :
    forecast.TotalChecked ∧
    ∀ basis products, request.basis.result world.answers none = .ok basis → basis.family ≠ .nup →
      basis.installed world.answers request = .ok products →
      ∃ totals, basis.splice world.answers = .ok totals ∧
        forecast.exactDelta = products.length * totals.delta ∧
        (forecast.totalDelta = .ok forecast.exactDelta ↔ FitsSigned forecast.exactDelta) := by
  constructor
  · refine Forecast.totalChecked_of_capped fun row hrow => ?_
    rw [delta_of_run hok hrow]
    exact Formula.difference_capped _ _
  · exact fun basis products hbasis hfamily hproducts =>
      exactDelta_of_run hbasis hfamily hproducts hok

end Request

/-- A server that grows beyond all bounds: two products with large deltas, and no total. -/
theorem oneServer_totalDelta : ∃ forecast,
    ((oneServer.request 0.0 3000000.0).forecast.run (.still (oneServer.within 0)) 0).2
      = .ok forecast ∧
    (∀ row ∈ forecast.rows, 0 < row.delta) ∧ forecast.totalDelta = .error ⟨⟩ := by
  have hok : ((oneServer.request 0.0 3000000.0).forecast.run (.still (oneServer.within 0)) 0).2
      = .ok ⟨[.of "users" ⟨"database", "db"⟩ 0 unsignedMax,
        .of "users" ⟨"cache", "ch"⟩ 50 unsignedMax]⟩ := by
    decide +kernel
  obtain ⟨hchecked, -⟩ := Request.forecast_totalDelta hok
  exact ⟨_, hok, by decide, hchecked.stopped (by decide)⟩

end LicenseForecast
