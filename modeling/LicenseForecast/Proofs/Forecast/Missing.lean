import LicenseForecast.Proofs.Forecast.Prediction
import LicenseForecast.Proofs.Namesakes

namespace LicenseForecast

/-!
# Forecasts for equipment that does not exist

No question about equipment that no visible scope holds is answered (`Scope.inventory_of_unheld`).
Which of them is asked first depends on the family: a pooled rule asks what lies above the
equipment, and says that there is no such equipment; a direct rule asks for its products, and only
says that this question failed.  So the same mistake in a request is the caller's in one family
and an internal one in another (`Store.forecast_missing`).
-/

/-- **No question about equipment that no scope holds is answered.** -/
theorem Scope.inventory_of_unheld {scopes : List Scope} {query : Query} {id typeName : String}
    (hanchor : query.anchor? = some (id, typeName)) (h : holder? scopes id typeName = none) :
    Scope.inventory scopes query = .error .notFound := by
  have hanchored : ∀ {α : Type} (answer : Scope → Except LookupFault α),
      anchored scopes id typeName answer = .error .notFound := by
    intro α answer
    unfold anchored
    rw [show scopes.find? (·.holds id typeName) = none from h]
  cases query with
  | equipmentTypes | metrics => cases hanchor
  | hierarchy | products | computedLicenses | pooledLicenses | users =>
    cases hanchor
    exact hanchored _

namespace Basis

variable {inventory : Inventory} {request : Request} {forest : Forest} {old new : Readings}

/-- A pooled rule has no basis where nothing is found above the equipment. -/
theorem of_pooled_unknown {rule : PooledRule}
    (h : inventory (.hierarchy request.equipmentId request.typeName rule.depth)
      = .error .notFound) :
    Basis.of inventory request forest old new (.pooled rule)
      = .error (.unknownEquipment request.equipmentId request.typeName) := by
  simp only [Basis.of, h]
  rfl

/-- A direct rule has a basis wherever its formula can be read, whether or not there is such
    equipment. -/
theorem exists_of_direct {rule : DirectRule}
    (h : ((LicenseRule.direct rule).unreadable? old).or ((LicenseRule.direct rule).unreadable? new)
      = none) :
    ∃ oldLicenses newLicenses, Basis.of inventory request forest old new (.direct rule)
      = .ok (.direct rule oldLicenses newLicenses) := by
  obtain ⟨hbefore, hafter⟩ := Option.or_eq_none_iff.mp h
  obtain ⟨oldLicenses, hold⟩ := Formula.directLicenses_eq rule old
  obtain ⟨newLicenses, hnew⟩ := Formula.directLicenses_eq rule new
  rw [hbefore] at hold
  rw [hafter] at hnew
  exact ⟨oldLicenses, newLicenses, of_direct_eq_ok.mpr ⟨_, _, hold, hnew, rfl⟩⟩

end Basis

/-- **A forecast for equipment that does not exist** fails, and how depends on the family.  Where
    the request is in order otherwise, a pooled family says that there is no such equipment, and a
    direct one that the lookup of products failed.  Only the first counts as something that was not
    found; the other counts as an internal failure. -/
theorem Store.forecast_missing {store : Store} {scopes : List String} {request : Request}
    {family : Family} {old new : Readings} {forest : Forest} {rule : LicenseRule}
    (hfamily : Family.ofRequest request.familyText = .ok family)
    (hsides : Readings.beforeAndAfter request.overrides = .ok (old, new))
    (hresolved : request.resolved (store.inventory scopes) family = .ok (forest, rule))
    (hreadable : (rule.unreadable? old).or (rule.unreadable? new) = none)
    (hmissing : ∀ s ∈ store.visible scopes,
      s.holds request.equipmentId request.typeName = false) :
    (family.isPooled = true → request.forecast.result (store.inventory scopes) none
      = .error (.unknownEquipment request.equipmentId request.typeName)) ∧
    (family.isPooled = false → request.forecast.result (store.inventory scopes) none
      = .error (.lookup .products .notFound)) ∧
    ∃ failure, request.forecast.result (store.inventory scopes) none = .error failure ∧
      failure.kind = if family.isPooled then .notFound else .internal := by
  have hholder : Scope.holder? (store.visible scopes) request.equipmentId request.typeName = none :=
    List.find?_eq_none.mpr fun s hs => by
      rw [hmissing s hs]
      exact Bool.false_ne_true
  have hunanswered : ∀ query : Query,
      query.anchor? = some (request.equipmentId, request.typeName) →
      store.inventory scopes query = .error .notFound :=
    fun _ hanchor => Scope.inventory_of_unheld hanchor hholder
  obtain ⟨metric, hmetricFamily, -, hrule⟩ := Request.metric_of_resolved hresolved
  have hpooled : rule.isPooled = family.isPooled :=
    (Metric.isPooled_of_rule hrule).trans (congrArg Family.isPooled hmetricFamily)
  have hbasis := Request.basis_of_resolved hfamily hsides hresolved
  cases rule with
  | pooled rule =>
    -- the chain is asked for first, and is where it is noticed
    have hpooled : true = family.isPooled := hpooled
    have hforecast : request.forecast.result (store.inventory scopes) none
        = .error (.unknownEquipment request.equipmentId request.typeName) := by
      rw [Request.forecast_result, hbasis,
        Basis.of_pooled_unknown (hunanswered (.hierarchy _ _ _) rfl)]
      rfl
    rw [← hpooled]
    exact ⟨fun _ => hforecast, nofun, _, hforecast, rfl⟩
  | direct rule =>
    -- no chain is needed, so the question about products is the first one about the equipment
    have hpooled : false = family.isPooled := hpooled
    have hforecast : request.forecast.result (store.inventory scopes) none
        = .error (.lookup .products .notFound) := by
      obtain ⟨oldLicenses, newLicenses, hof⟩ := Basis.exists_of_direct hreadable
      have hproducts : (Basis.direct rule oldLicenses newLicenses).installed
          (store.inventory scopes) request = .error .notFound := hunanswered (.products ..) rfl
      rw [Request.forecast_result, hbasis, hof]
      show (Failure.sought .products (Basis.installed (store.inventory scopes) request _) >>= _) = _
      rw [hproducts]
      rfl
    rw [← hpooled]
    exact ⟨nofun, fun _ => hforecast, _, hforecast, rfl⟩

namespace TwoClusters

/-- A metric that counts each server on its own. -/
def ownMetric : DirectMetric := ⟨"o", "values", "c", "c", "1"⟩

/-- The two clusters with a metric of either sort. -/
def mixedScope : Scope := { scope 2.0 with metrics := [.ops metric, .ips ownMetric] }

def mixedStore : Store :=
  ⟨{ strict := false }, ⟨⟨[("main", mixedScope)], List.pairwise_singleton ..⟩⟩, by decide +kernel⟩

/-- A server that does not exist is to have one core instead of two. -/
def ofNobody (familyText metricName : String) : Request :=
  { toOneCore 2.0 with equipmentId := "x", familyText, metricName }

/-- The rule that counts one machine alone. -/
def ownRule : DirectRule where
  family := .ips
  name := "values"
  base := { id := "1", name := "server", parentId := some "2", attributes := [cores] }
  cores := cores
  coreFactor := cores

/-- The same server is unknown to a forecast for processors, and the cause of an internal failure in
    one that counts it on its own. -/
theorem forecast_ofNobody :
    ((ofNobody "OPS" "processors").forecast.result (mixedStore.inventory ["main"]) none
      = .error (.unknownEquipment "x" "server") ∧
      (Failure.unknownEquipment "x" "server").kind = .notFound) ∧
    (ofNobody "IPS" "values").forecast.result (mixedStore.inventory ["main"]) none
      = .error (.lookup .products .notFound) ∧
      (Failure.lookup .products .notFound).kind = .internal := by
  have hmissing : ∀ s ∈ mixedStore.visible ["main"], s.holds "x" "server" = false := by
    intro s hs
    cases List.mem_singleton.mp hs
    rfl
  have hops : (ofNobody "OPS" "processors").resolved (mixedStore.inventory ["main"]) .ops
      = .ok (forest, .pooled rule) := by
    decide +kernel
  have hips : (ofNobody "IPS" "values").resolved (mixedStore.inventory ["main"]) .ips
      = .ok (forest, .direct ownRule) := by
    decide +kernel
  have hpooled := Store.forecast_missing (by decide) rfl hops rfl hmissing
  have hdirect := Store.forecast_missing (by decide) rfl hips rfl hmissing
  exact ⟨⟨hpooled.1 rfl, rfl⟩, hdirect.2.1 rfl, rfl⟩

end TwoClusters

end LicenseForecast
