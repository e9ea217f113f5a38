import LicenseForecast.Proofs.Forecast.Itinerary
import LicenseForecast.Proofs.Forecast.Prediction

namespace LicenseForecast

/-!
# Attributes that matter to a forecast

Overrides may name attributes of all sorts, in any order and more than once.  Of the readings that
they come to, a forecast looks at the operands of its rule only, and which rule that is does not
depend on them.  So two requests about the same equipment and metric whose readings agree on those
operands (`Readings.AgreeOn`) ask the same questions and come to the same result:

* `Request.under_congr` — under a rule, for which named users do not count;
* `Request.forecast_ofOperands` — from the request to its result, in every world.

Where users count the readings are part of the questions, and the statement is not made.
-/

/-- Computations that end alike, followed by the same requests. -/
theorem Inquiry.ofExcept_bind_congr {α α' β : Type} {R : α → α' → Prop} {x : Except Failure α}
    {y : Except Failure α'} {f : α → Inquiry β} {g : α' → Inquiry β} (h : EndAlike R x y)
    (hfg : ∀ a b, R a b → f a = g b) : ofExcept x >>= f = ofExcept y >>= g := by
  cases h with
  | ok h => exact hfg _ _ h
  | error failure => rfl

namespace Request

/-! ### Under a rule -/

section

variable {request : Request} {old old' new new' : Readings}

/-- Where users do not count, the rows depend on the contributions and not on the readings that they
    were computed from. -/
theorem rowsOn_congr {rule : PooledRule} {chain : Chain} {oldC oldC' newC newC' : Float}
    (hthreshold : threshold? rule = none) (hold : Decimal.Eqv oldC oldC')
    (hnew : Decimal.Eqv newC newC') :
    request.rowsOn (.pooled rule chain old new oldC newC)
      = request.rowsOn (.pooled rule chain old' new' oldC' newC') := by
  have hsplice : ∀ total pool, Formula.splice total pool oldC newC
      = Formula.splice total pool oldC' newC' := fun total pool =>
    Formula.splice_congr total pool hold hnew
  unfold rowsOn
  -- both ask for the products of the same chain
  congr 1; funext found
  cases found with
  | none => rfl
  | some products => simp only [rowsFor, hthreshold, hsplice]

/-- **Under a rule** only its operands matter, unless users count. -/
theorem under_congr {forest : Forest} {rule : LicenseRule}
    (husers : ∀ pooled, rule = .pooled pooled → threshold? pooled = none)
    (hold : old.AgreeOn rule.operands old') (hnew : new.AgreeOn rule.operands new') :
    request.basisUnder old new (forest, rule) >>= request.rowsOn
      = request.basisUnder old' new' (forest, rule) >>= request.rowsOn := by
  cases rule with
  | direct rule =>
    simp only [basisUnder, Formula.directLicenses_congr hold, Formula.directLicenses_congr hnew]
  | pooled rule =>
    simp only [basisUnder, bind_assoc, pure_bind]
    congr 1; funext chain
    -- the contributions differ in the sign of a zero at most
    refine Inquiry.ofExcept_bind_congr (Formula.contribution_endAlike hold) ?_
    intro oldC oldC' holdC
    refine Inquiry.ofExcept_bind_congr (Formula.contribution_endAlike hnew) ?_
    intro newC newC' hnewC
    exact rowsOn_congr (husers rule rfl) holdC hnewC

end

/-! ### From the request on -/

/-- A forecast, once the family and the readings are known. -/
theorem forecast_of_sides {request : Request} {family : Family} {old new : Readings}
    (hfamily : Family.ofRequest request.familyText = .ok family)
    (hsides : Readings.beforeAndAfter request.overrides = .ok (old, new)) :
    request.forecast = request.ruling family >>= fun found =>
      request.basisUnder old new found >>= request.rowsOn := by
  rw [forecast_eq, basis_eq_ruling, hfamily, hsides, ← bind_assoc]
  rfl

/-- Users count in one family only. -/
theorem threshold?_of_resolved {request : Request} {inventory : Inventory} {family : Family}
    {forest : Forest} {rule : PooledRule} (hfamily : family ≠ .nup)
    (h : request.resolved inventory family = .ok (forest, .pooled rule)) :
    threshold? rule = none := by
  obtain ⟨metric, hmetric, -, hrule⟩ := metric_of_resolved h
  obtain ⟨m, users, -, hfits⟩ := Metric.fits_of_rule hrule
  have hother : rule.family ≠ .nup := by
    rw [hfits.family_eq, hmetric]
    exact hfamily
  exact if_neg hother

/-- **Only the operands of its metric matter to a forecast** in which users do not count.  Whatever
    else two lists of overrides contain, and however the family is spelled: if the readings before
    have the same values for the attributes that the rule names, or none, and so have those after,
    then the same questions are asked and the same comes of them. -/
theorem forecast_ofOperands {request : Request} {world : Inquiry.World} {text : String}
    {overrides : List Override} {family : Family} {old old' new new' : Readings}
    (hfamily : Family.ofRequest request.familyText = .ok family)
    (hfamily' : Family.ofRequest text = .ok family) (husers : family ≠ .nup)
    (hsides : Readings.beforeAndAfter request.overrides = .ok (old, new))
    (hsides' : Readings.beforeAndAfter overrides = .ok (old', new'))
    (hagree : ∀ forest rule, request.resolved world.answers family = .ok (forest, rule) →
      old.AgreeOn rule.operands old' ∧ new.AgreeOn rule.operands new') :
    ({ request with familyText := text, overrides } : Request).forecast.run world 0
      = request.forecast.run world 0 := by
  have hforecast' : ({ request with familyText := text, overrides } : Request).forecast = _ :=
    forecast_of_sides hfamily' hsides'
  rw [forecast_of_sides hfamily hsides, hforecast']
  symm
  -- the rule is found without a look at the overrides
  refine Inquiry.run_bind_congr (x := request.ruling family) fun found hfound => ?_
  obtain ⟨forest, rule⟩ := found
  have hresolved := resolved_of_run hfound
  obtain ⟨hbefore, hafter⟩ := hagree forest rule hresolved
  refine under_congr (fun pooled heq => ?_) hbefore hafter
  subst heq
  exact threshold?_of_resolved husers hresolved

end Request

namespace TwoClusters

/-- The first server is to have one core instead of two, said at some length: an attribute that no
    rule reads comes first, and other values for the cores are taken back. -/
def atLength : List Override :=
  [⟨"z", "site", .text, false, some (.text "north"), none⟩,
    ⟨"c", "cores", .float, true, some (.float 9.0), some (.float 7.0)⟩,
    ⟨"c", "number", .float, true, some (.int 1), some (.float 2.0)⟩,
    ⟨"c", "cores", .int, false, none, none⟩]

/-- However it is said, twelve licences become five. -/
theorem forecast_atLength :
    ({ toOneCore 2.0 with
        familyText := " oracle.processor.standard", overrides := atLength } : Request).forecast.run
        (.still (store.inventory ["main"])) 0
      = (toOneCore 2.0).forecast.run (.still (store.inventory ["main"])) 0 ∧
    (toOneCore 2.0).forecast.result (store.inventory ["main"]) none
      = .ok ⟨[.of "processors" ⟨"database", "db"⟩ 12 5]⟩ := by
  have hops : Family.ofRequest (toOneCore 2.0).familyText = .ok .ops := by decide
  refine ⟨Request.forecast_ofOperands hops (by decide) (by decide) rfl rfl ?agree,
    by decide +kernel⟩
  intro f r hresolved
  have hrule : (toOneCore 2.0).resolved (store.inventory ["main"]) .ops
      = .ok (forest, .pooled rule) := by
    decide +kernel
  cases hrule.symm.trans hresolved
  -- one attribute stands for all operands
  have hcores : ∀ a ∈ (LicenseRule.pooled rule).operands, a = cores := by
    simp [LicenseRule.operands, rule]
  constructor
  · intro a ha
    rw [hcores a ha]
    exact .some (.inl rfl)
  · intro a ha
    rw [hcores a ha]
    exact .some (.inl rfl)

end TwoClusters

end LicenseForecast
