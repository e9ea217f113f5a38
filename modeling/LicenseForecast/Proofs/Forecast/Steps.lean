import LicenseForecast.Forecast
import LicenseForecast.Proofs.Outcome

namespace LicenseForecast

/-!
# How the steps of a forecast fail

Between two questions a forecast checks what it has been told.  Each of these steps fails in one or
two ways of its own, so whatever holds of those (`fails`) holds of every failure of the step.  None
of them says that the request was interrupted, or that there is nothing (`Failure.IsOwn`).
-/

/-- A failure that a request comes to by itself: it was neither interrupted nor told that there is
    nothing. -/
inductive Failure.IsOwn : Failure → Prop
  | unsupportedFamily (text : String) : IsOwn (.unsupportedFamily text)
  | unknownType (name : String) : IsOwn (.unknownType name)
  | wrongType (metric requested base : String) : IsOwn (.wrongType metric requested base)
  | invalidMetric (metric : String) (defect : RuleDefect) : IsOwn (.invalidMetric metric defect)
  | invalidAttribute (fault : ModelFault) : IsOwn (.invalidAttribute fault)
  | invalidForest (fault : ModelFault) : IsOwn (.invalidForest fault)
  | unknownMetric (family : Family) (name : String) : IsOwn (.unknownMetric family name)
  | ambiguousMetric (family : Family) (name : String) (count : Nat) :
      IsOwn (.ambiguousMetric family name count)
  | unknownEquipment (id typeName : String) : IsOwn (.unknownEquipment id typeName)
  | lookup (question : Lookup) (fault : LookupFault) (h : fault ≠ .noData) :
      IsOwn (.lookup question fault)

/-- A request does not interrupt itself. -/
theorem Failure.IsOwn.ne_interrupted {failure : Failure} (h : failure.IsOwn)
    (cause : Interruption) : failure ≠ .interrupted cause := by
  rintro rfl
  cases h

/-- No failure of its own says that there is nothing. -/
theorem Failure.IsOwn.ne_noData {failure : Failure} (h : failure.IsOwn) (lookup : Lookup) :
    failure ≠ .lookup lookup .noData := by
  rintro rfl
  cases h with
  | lookup _ _ h => exact h rfl

variable {fails : Failure → Prop}

/-! ### What is asked for -/

/-- The family may be one that there is none of. -/
theorem Family.ofRequest_fails (h : ∀ text, fails (.unsupportedFamily text)) (text : String) :
    FailsOnly fails (Family.ofRequest text) := by
  unfold Family.ofRequest
  split
  · exact .ok _
  · exact .error (h text)

/-- An override may not fit its attribute. -/
theorem Readings.beforeAndAfter_fails (h : ∀ fault, fails (.invalidAttribute fault))
    (overrides : List Override) :
    FailsOnly fails ((beforeAndAfter overrides).mapError .invalidAttribute) :=
  .mapError h _

/-- The types may be no forest. -/
theorem Forest.ofTypes_fails (h : ∀ fault, fails (.invalidForest fault))
    (types : List EquipmentType) : FailsOnly fails ((ofTypes types).mapError .invalidForest) :=
  .mapError h _

/-- The type may be unknown. -/
theorem Request.checkType_fails (h : ∀ name, fails (.unknownType name)) (f : Forest)
    (typeName : String) : FailsOnly fails (checkType f typeName) := by
  unfold checkType
  split
  · exact .ok _
  · exact .error (h typeName)

/-! ### The metric -/

/-- The metric may be unknown or ambiguous. -/
theorem Metric.only_fails (hunknown : ∀ family name, fails (.unknownMetric family name))
    (hambiguous : ∀ family name count, fails (.ambiguousMetric family name count))
    (family : Family) (name : String) (metrics : List Metric) :
    FailsOnly fails (Metric.only family name metrics) := by
  unfold Metric.only
  split
  · exact .error (hunknown family name)
  · exact .ok _
  · exact .error (hambiguous family name _)

/-- The metric may not make a rule. -/
theorem Metric.resolve_fails (h : ∀ metric defect, fails (.invalidMetric metric defect))
    (f : Forest) (m : Metric) : FailsOnly fails (m.resolve f) :=
  .mapError (h m.name) _

/-- The metric may count at another type. -/
theorem Request.checkBase_fails
    (h : ∀ metric requested base, fails (.wrongType metric requested base)) (rule : LicenseRule)
    (typeName : String) : FailsOnly fails (checkBase rule typeName) := by
  unfold checkBase
  split
  · exact .ok _
  · exact .error (h _ _ _)

/-! ### The chain and the formula -/

/-- **An answer about the equipment above** is no chain because the equipment is unknown, or because
    of a fault other than that there is nothing. -/
theorem Chain.ofAnswer_fails (hunknown : ∀ id typeName, fails (.unknownEquipment id typeName))
    (hlookup : ∀ fault, fault ≠ .noData → fails (.lookup .hierarchy fault)) (f : Forest)
    (rule : PooledRule) (id typeName : String) (answer : Except LookupFault (List Equipment)) :
    FailsOnly fails (Chain.ofAnswer f rule id typeName answer) := by
  unfold Chain.ofAnswer
  split
  · exact .error (hunknown id typeName)
  · exact .error (hunknown id typeName)
  next fault _ hfault => exact .error (hlookup fault hfault)
  · simp only
    -- the links may be too few, about other equipment or of an unexpected type
    split
    · exact .error (hunknown id typeName)
    · split
      · exact .error (hunknown id typeName)
      · split
        · exact .error (hlookup _ nofun)
        · exact .ok _

namespace Formula

/-- An attribute may be missing or no number. -/
theorem reading_fails (h : ∀ fault, fails (.invalidAttribute fault)) (readings : Readings)
    (a : Attribute) : FailsOnly fails (reading readings a) :=
  .mapError h _

/-- So may those of a rule that counts one machine alone. -/
theorem directLicenses_fails (h : ∀ fault, fails (.invalidAttribute fault)) (rule : DirectRule)
    (readings : Readings) : FailsOnly fails (directLicenses rule readings) :=
  .bind (reading_fails h _ _) fun _ => .bind (reading_fails h _ _) fun _ => .ok _

/-- So may those of a rule that counts pools. -/
theorem contribution_fails (h : ∀ fault, fails (.invalidAttribute fault)) (rule : PooledRule)
    (readings : Readings) : FailsOnly fails (contribution rule readings) :=
  .bind (reading_fails h _ _) fun _ => .bind (reading_fails h _ _) fun _ =>
    .bind (reading_fails h _ _) fun _ => .ok _

end Formula

end LicenseForecast
