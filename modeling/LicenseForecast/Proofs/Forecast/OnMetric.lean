import LicenseForecast.Proofs.Forecast.Steps
import LicenseForecast.Proofs.Inquiry.Confined

namespace LicenseForecast

/-!
# A forecast and its metric

A forecast checks the request (`Request.preamble`), asks for the metrics of a family and goes on
with the only one of the given name (`Request.onMetric`).  Neither part asks for metrics itself, and
the last never fails for their number (`Request.onMetric_confined`).  So metrics have an influence
on a forecast only through the one that is found (`Request.run_of_preamble`).
-/

/-- A question that is not about metrics. -/
def Query.IsOther (query : Query) : Prop := ∀ family, query ≠ .metrics family

/-- What can still go wrong once a forecast has found its metric. -/
inductive Failure.OfMetric : Failure → Prop
  | wrongType (metric requested base : String) : OfMetric (.wrongType metric requested base)
  | invalidMetric (metric : String) (defect : RuleDefect) : OfMetric (.invalidMetric metric defect)
  | invalidAttribute (fault : ModelFault) : OfMetric (.invalidAttribute fault)
  | unknownEquipment (id typeName : String) : OfMetric (.unknownEquipment id typeName)
  | lookup (question : Lookup) (fault : LookupFault) : OfMetric (.lookup question fault)

namespace Request

open Inquiry (Confined Follows)

/-- What a forecast finds out before it asks for metrics: the family, the types, and the readings
    before and after. -/
def preamble (request : Request) : Inquiry (Family × Forest × Readings × Readings) := do
  let family ← Inquiry.ofExcept (Family.ofRequest request.familyText)
  let (old, new) ← Inquiry.ofExcept
    ((Readings.beforeAndAfter request.overrides).mapError .invalidAttribute)
  Inquiry.look
  let types ← Inquiry.demand .equipmentTypes
  let forest ← Inquiry.ofExcept ((Forest.ofTypes types).mapError .invalidForest)
  discard <| Inquiry.ofExcept (checkType forest request.typeName)
  return (family, forest, old, new)

/-- How a forecast goes on with its metric. -/
def onMetric (request : Request) (forest : Forest) (old new : Readings) (metric : Metric) :
    Inquiry Forecast := do
  let rule ← Inquiry.ofExcept (metric.resolve forest)
  Inquiry.ofExcept (checkBase rule request.typeName)
  match rule with
  | .direct rule => direct request rule old new
  | .pooled rule =>
    let chain ← Chain.above forest rule request.equipmentId request.typeName
    pooled rule chain old new

/-- **A forecast finds its metric and goes on with it.** -/
theorem forecast_eq_onMetric (request : Request) :
    request.forecast = request.preamble >>= fun (family, forest, old, new) =>
      Inquiry.metric family request.metricName >>= request.onMetric forest old new := by
  unfold forecast preamble
  simp only [bind_assoc, pure_bind]
  rfl

/-! ### Before the metric -/

/-- Before the metrics a forecast asks for the types. -/
theorem preamble_follows (request : Request) (world : Inquiry.World) :
    Follows world 0 [.equipmentTypes] request.preamble := by
  refine .ofExcept_bind fun family _ => .ofExcept_bind fun sides _ => .demand_bind fun types _ => ?_
  refine .ofExcept_bind fun forest _ => ?_
  cases checkType forest request.typeName with
  | ok i => exact .pure _
  | error failure => exact .failed failure

/-! ### After the metric -/

/-- Rows for users ask about users. -/
private theorem userRows_confined (rule : PooledRule) (usersPerProcessor : Nat)
    (splice : Formula.Splice) (chain : Chain) (old new : Readings) (products : List Product) :
    Confined Query.IsOther Failure.OfMetric
      (userRows rule usersPerProcessor splice chain old new products) := by
  induction products with
  | nil => exact .pure []
  | cons product rest ih =>
    have husers : ∀ readings, Confined Query.IsOther Failure.OfMetric
        (users chain product rule readings) := fun _ => .seek (fun _ => nofun) fun _ => .lookup ..
    exact .bind (husers old) fun _ => .bind (husers new) fun _ => .bind ih fun _ => .pure _

/-- A rule that counts one machine alone asks about products. -/
private theorem direct_confined (request : Request) (rule : DirectRule) (old new : Readings) :
    Confined Query.IsOther Failure.OfMetric (direct request rule old new) := by
  have hfails := Formula.directLicenses_fails Failure.OfMetric.invalidAttribute rule
  refine .ofExcept_bind (hfails old) fun _ => ?_
  refine .ofExcept_bind (hfails new) fun _ => ?_
  refine .bind (.seek (fun _ => nofun) fun _ => .lookup ..) fun found => ?_
  cases found <;> exact .pure _

/-- A rule that counts pools asks about all but the types and the metrics. -/
private theorem pooled_confined (rule : PooledRule) (chain : Chain) (old new : Readings) :
    Confined Query.IsOther Failure.OfMetric (pooled rule chain old new) := by
  have hfails := Formula.contribution_fails Failure.OfMetric.invalidAttribute rule
  refine .ofExcept_bind (hfails old) fun oldContribution => ?_
  refine .ofExcept_bind (hfails new) fun newContribution => ?_
  refine .bind (.seek (fun _ => nofun) fun _ => .lookup ..) fun found => ?_
  cases found with
  | none => exact .pure _
  | some products =>
    refine .demand_bind (fun _ => nofun) (fun _ => .lookup ..) fun oldTotal => ?_
    refine .demand_bind (fun _ => nofun) (fun _ => .lookup ..) fun pool => ?_
    cases threshold? rule with
    | none => exact .pure _
    | some usersPerProcessor => exact .bind (userRows_confined ..) fun _ => .pure _

/-- **A forecast that has found its metric** does not ask for metrics again, and does not fail for
    their number. -/
theorem onMetric_confined (request : Request) (forest : Forest) (old new : Readings)
    (metric : Metric) :
    Confined Query.IsOther Failure.OfMetric (request.onMetric forest old new metric) := by
  refine .ofExcept_bind (Metric.resolve_fails .invalidMetric forest metric) fun rule => ?_
  refine .ofExcept_bind (checkBase_fails .wrongType rule request.typeName) fun _ => ?_
  cases rule with
  | direct rule => exact direct_confined request rule old new
  | pooled rule =>
    refine .bind (.checkpoint _ (.ask _ _ (fun _ => nofun) fun answer => ?_)) fun chain =>
      pooled_confined rule chain old new
    exact .done _ (Chain.ofAnswer_fails .unknownEquipment (fun fault _ => .lookup .hierarchy fault)
      forest rule request.equipmentId request.typeName answer)

end Request

/-! ### Runs -/

namespace Inquiry

variable {α : Type} {world : World} {asked : Nat} {family : Family} {name : String}
  {f : Metric → Inquiry α}

/-- How a request goes on that asks for a metric. -/
theorem run_metric_bind {specs : List family.Spec}
    (hspecs : world.inventory asked (.metrics family) = .ok specs) :
    (metric family name >>= f).run world asked = match world.interruption asked with
      | some cause => ([], .error (.interrupted cause))
      | none =>
        match Metric.only family name (specs.map (Metric.ofSpec family)) with
        | .error failure => ([.metrics family], .error failure)
        | .ok m =>
          (.metrics family :: ((f m).run world (asked + 1)).1,
            ((f m).run world (asked + 1)).2) := by
  rw [metric_bind]
  show run world asked (.checkpoint (.ask (.metrics family) fun answer =>
    (require (.metrics family) answer).bind fun specs =>
      ofExcept (Metric.only family name (specs.map (Metric.ofSpec family))) >>= f)) = _
  simp only [run, hspecs]
  cases world.interruption asked with
  | some cause => rfl
  | none =>
    have hnext : ((require (.metrics family) (.ok specs)).bind fun specs =>
        ofExcept (Metric.only family name (specs.map (Metric.ofSpec family))) >>= f)
          = ofExcept (Metric.only family name (specs.map (Metric.ofSpec family))) >>= f := rfl
    simp only [hnext]
    cases Metric.only family name (specs.map (Metric.ofSpec family)) <;> rfl

end Inquiry

namespace Request

variable {request : Request} {world : Inquiry.World}

/-- A forecast that goes no further than the types. -/
theorem run_of_preamble_error {failure : Failure}
    (h : (request.preamble.run world 0).2 = .error failure) :
    request.forecast.run world 0 = ((request.preamble.run world 0).1, .error failure) := by
  rw [forecast_eq_onMetric, Inquiry.run_bind_error h]

/-- The course of a forecast in which nothing went wrong before the metrics, and which these
    metrics are the answer to. -/
def courseFrom (request : Request) (world : Inquiry.World) (forest : Forest) (old new : Readings)
    (family : Family) (specs : List family.Spec) : List Query × Except Failure Forecast :=
  match Metric.only family request.metricName (specs.map (Metric.ofSpec family)) with
  | .error failure => ([.equipmentTypes, .metrics family], .error failure)
  | .ok m =>
    let rest := (request.onMetric forest old new m).run world 2
    (.equipmentTypes :: .metrics family :: rest.1, rest.2)

/-- **How a forecast goes on after the types**: it looks for an interruption, asks for the metrics,
    and goes on with the one that it finds. -/
theorem run_of_preamble {family : Family} {forest : Forest} {old new : Readings}
    {specs : List family.Spec}
    (h : (request.preamble.run world 0).2 = .ok (family, forest, old, new))
    (hspecs : world.inventory 1 (.metrics family) = .ok specs) :
    request.forecast.run world 0 = match world.interruption 1 with
      | some cause => ([.equipmentTypes], .error (.interrupted cause))
      | none => request.courseFrom world forest old new family specs := by
  have hplan := (request.preamble_follows world).complete _ h
  rw [forecast_eq_onMetric, Inquiry.run_bind_ok h, hplan]
  simp only [List.length_singleton, Nat.zero_add, Inquiry.run_metric_bind hspecs, courseFrom]
  cases world.interruption 1 with
  | some cause => rfl
  | none =>
    simp only
    cases Metric.only family request.metricName (specs.map (Metric.ofSpec family)) <;> rfl

/-- The family is the only one whose metrics are asked for. -/
theorem family_of_courseFrom {family family' : Family} {forest : Forest} {old new : Readings}
    {specs : List family.Spec}
    (h : Query.metrics family' ∈ (request.courseFrom world forest old new family specs).1) :
    family' = family := by
  unfold courseFrom at h
  split at h
  · simpa using h
  next m _ =>
    rcases List.mem_cons.mp h with h | h
    · cases h
    · rcases List.mem_cons.mp h with h | h
      · cases h
        rfl
      · exact absurd rfl ((request.onMetric_confined forest old new m).asks_of_mem h family')

/-- A course that goes that far includes the question for the metrics. -/
theorem metrics_mem_courseFrom {family : Family} {forest : Forest} {old new : Readings}
    {specs : List family.Spec} :
    Query.metrics family ∈ (request.courseFrom world forest old new family specs).1 := by
  unfold courseFrom
  split <;> exact List.mem_cons_of_mem _ List.mem_cons_self

end Request

end LicenseForecast
