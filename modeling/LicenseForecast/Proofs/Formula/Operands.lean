import LicenseForecast.Proofs.Formula.Splice
import LicenseForecast.Proofs.Outcome

namespace LicenseForecast

/-!
# Operands — the attributes that a formula reads

A formula succeeds if and only if every attribute that it reads is there and holds a number, and
otherwise it reports the first that does not (`Formula.directLicenses_eq`,
`Formula.contribution_eq`).  Where it is applied before and after a change, the side before is
reported first (`Formula.both_of_unreadable`).  Nothing else of the readings matters to it
(`Formula.directLicenses_congr`, `Formula.contribution_endAlike`).
-/

/-- What is wrong with an attribute as an operand: it is missing, or it holds no number. -/
def Readings.operandFault? (readings : Readings) (a : Attribute) : Option ModelFault :=
  match readings.value? a.id with
  | none => some (.missingValue a.id a.name)
  | some value => if value.number?.isSome then none else some (.notNumeric a.id a.name)

namespace LicenseRule

/-- The attributes that the formula of a rule reads, in its order. -/
def operands : LicenseRule → List Attribute
  | .direct rule => [rule.cores, rule.coreFactor]
  | .pooled rule => [rule.cores, rule.cpus, rule.coreFactor]

/-- What is wrong with the first operand that cannot be read. -/
def unreadable? (rule : LicenseRule) (readings : Readings) : Option ModelFault :=
  rule.operands.findSome? readings.operandFault?

end LicenseRule

namespace Formula

/-- An operand is read, or it is known what is wrong with it. -/
private theorem reading_eq (readings : Readings) (a : Attribute) :
    ∃ x, reading readings a = match readings.operandFault? a with
      | some fault => .error (.invalidAttribute fault)
      | none => .ok x := by
  unfold reading Readings.number Readings.operandFault?
  cases readings.value? a.id with
  | none => exact ⟨0, rfl⟩
  | some value =>
    cases hnumber : value.number? with
    | none => exact ⟨0, by simp [hnumber, Except.mapError]⟩
    | some x => exact ⟨x, by simp [hnumber, Except.mapError]⟩

/-- **A direct formula fails at the first operand that cannot be read**, and nowhere else. -/
theorem directLicenses_eq (rule : DirectRule) (readings : Readings) :
    ∃ licenses, directLicenses rule readings =
      match (LicenseRule.direct rule).unreadable? readings with
      | some fault => .error (.invalidAttribute fault)
      | none => .ok licenses := by
  obtain ⟨cores, hcores⟩ := reading_eq readings rule.cores
  obtain ⟨factor, hfactor⟩ := reading_eq readings rule.coreFactor
  refine ⟨floorLicenses (cores * factor), ?_⟩
  unfold directLicenses LicenseRule.unreadable? LicenseRule.operands
  rw [hcores, hfactor]
  simp only [List.findSome?_cons, List.findSome?_nil]
  cases readings.operandFault? rule.cores <;> cases readings.operandFault? rule.coreFactor <;> rfl

/-- **A pooled formula fails at the first operand that cannot be read**, and nowhere else. -/
theorem contribution_eq (rule : PooledRule) (readings : Readings) :
    ∃ x, contribution rule readings =
      match (LicenseRule.pooled rule).unreadable? readings with
      | some fault => .error (.invalidAttribute fault)
      | none => .ok x := by
  obtain ⟨cores, hcores⟩ := reading_eq readings rule.cores
  obtain ⟨cpus, hcpus⟩ := reading_eq readings rule.cpus
  obtain ⟨factor, hfactor⟩ := reading_eq readings rule.coreFactor
  refine ⟨cores * cpus * factor, ?_⟩
  unfold contribution LicenseRule.unreadable? LicenseRule.operands
  rw [hcores, hcpus, hfactor]
  simp only [List.findSome?_cons, List.findSome?_nil]
  cases readings.operandFault? rule.cores <;> cases readings.operandFault? rule.cpus <;>
    cases readings.operandFault? rule.coreFactor <;> rfl

/-- Of two readings of a formula the first that fails is reported, whatever would follow. -/
theorem both_of_unreadable {α β : Type} {x y : Except Failure α} {a b : α}
    {before after : Option ModelFault} {fault : ModelFault}
    (hx : x = match before with
      | some fault => .error (.invalidAttribute fault)
      | none => .ok a)
    (hy : y = match after with
      | some fault => .error (.invalidAttribute fault)
      | none => .ok b)
    (hfault : before.or after = some fault) (next : α → α → Except Failure β) :
    (x >>= fun a => y >>= fun b => next a b) = .error (.invalidAttribute fault) := by
  subst hx hy
  cases before with
  | some fault' =>
    cases hfault
    rfl
  | none =>
    replace hfault : after = some fault := hfault
    subst hfault
    rfl

end Formula

/-! ### The same operands -/

/-- The same value: no difference at all, or none that a comparison finds. -/
def Value.Same (v w : Value) : Prop := v = w ∨ (v == w) = true

/-- The same number, or no number on either side. -/
theorem Value.Same.number? {v w : Value} (h : v.Same w) :
    Option.Rel Decimal.Eqv v.number? w.number? := by
  rcases h with rfl | h
  · cases v with
    | int n => exact .some (.refl _)
    | float x => exact .some (.refl _)
    | text s => exact .none
  · have h : v.beq w = true := h
    -- equal values are of one kind, and only floats are equal without being the same
    cases v with
    | int n =>
      cases w with
      | int m =>
        cases beq_iff_eq.mp h
        exact .some (.refl _)
      | _ => cases h
    | float x =>
      cases w with
      | float y => exact .some (Decimal.eqv_of_beq h)
      | _ => cases h
    | text s =>
      cases w with
      | text t => exact .none
      | _ => cases h

/-- Readings that have the same values for some attributes, or none on either side. -/
def Readings.AgreeOn (attributes : List Attribute) (readings readings' : Readings) : Prop :=
  ∀ a ∈ attributes, Option.Rel Value.Same (readings.value? a.id) (readings'.value? a.id)

namespace Formula

variable {readings readings' : Readings}

/-- Operands that are the same are read alike. -/
private theorem reading_endAlike {a : Attribute}
    (h : Option.Rel Value.Same (readings.value? a.id) (readings'.value? a.id)) :
    EndAlike Decimal.Eqv (reading readings a) (reading readings' a) := by
  refine EndAlike.mapError ?_
  unfold Readings.number
  generalize readings.value? a.id = found, readings'.value? a.id = found' at h
  cases h with
  | none => exact .error _
  | @some v w hsame =>
    have hnumber := hsame.number?
    simp only
    generalize v.number? = x, w.number? = y at hnumber
    cases hnumber with
    | none => exact .error _
    | some heqv => exact .ok heqv

/-- **A direct formula depends on its operands only.** -/
theorem directLicenses_congr {rule : DirectRule}
    (h : readings.AgreeOn (LicenseRule.direct rule).operands readings') :
    directLicenses rule readings = directLicenses rule readings' := by
  have hcores := reading_endAlike (h rule.cores (by simp [LicenseRule.operands]))
  have hfactor := reading_endAlike (h rule.coreFactor (by simp [LicenseRule.operands]))
  apply EndAlike.eq
  unfold directLicenses
  refine hcores.bind fun cores cores' hcores => hfactor.bind fun factor factor' hfactor => ?_
  exact .ok (floorLicenses_congr (Decimal.mul_congr hcores hfactor))

/-- **A pooled formula depends on its operands only**, up to the sign of a zero. -/
theorem contribution_endAlike {rule : PooledRule}
    (h : readings.AgreeOn (LicenseRule.pooled rule).operands readings') :
    EndAlike Decimal.Eqv (contribution rule readings) (contribution rule readings') := by
  have hcores := reading_endAlike (h rule.cores (by simp [LicenseRule.operands]))
  have hcpus := reading_endAlike (h rule.cpus (by simp [LicenseRule.operands]))
  have hfactor := reading_endAlike (h rule.coreFactor (by simp [LicenseRule.operands]))
  unfold contribution
  refine hcores.bind fun cores cores' hcores => hcpus.bind fun cpus cpus' hcpus => ?_
  refine hfactor.bind fun factor factor' hfactor => ?_
  exact .ok (Decimal.mul_congr (Decimal.mul_congr hcores hcpus) hfactor)

end Formula

end LicenseForecast
