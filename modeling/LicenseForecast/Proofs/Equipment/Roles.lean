import LicenseForecast.Equipment.Basic
import Mathlib.Data.List.Nodup

namespace LicenseForecast

/-!
# The rules of attribute roles

A type is checked in one pass over its attributes, which remembers the names that it has met and
stops at the first thing that is wrong, and by two counts afterwards.  What the rules ask for is
said here without an order and without counting (`EquipmentType.KeepsRoles`):

* `Attribute.roleFault?_eq_none` — what is asked of one attribute, whatever its roles are;
* `EquipmentType.attributeFault?_eq_none` — the pass finds nothing if that holds of each attribute
  and names are distinct, among each other and from those met before;
* `EquipmentType.checkRoles_accepts` — exactly the types that keep to the rules are accepted.
-/

/-- An attribute may have the roles that it has. -/
structure Attribute.FitsRoles (a : Attribute) : Prop where
  notBoth : ¬ (a.isIdentifier = true ∧ a.isParentIdentifier = true)
  identifier : a.isIdentifier = true → a.kind = .text ∧ a.isDisplayed = true
  parentIdentifier : a.isParentIdentifier = true → a.kind = .text
  searchable : a.isSearchable = true → a.isDisplayed = true

/-- No two places of a list have a property. -/
def AtMostOnce {α : Type} (p : α → Prop) (l : List α) : Prop :=
  l.Pairwise fun a b => ¬ (p a ∧ p b)

/-- The attributes of a type keep to the rules of their roles.  A parent id counts as present even
    if it is empty. -/
structure EquipmentType.KeepsRoles (t : EquipmentType) : Prop where
  names : t.attributes.Pairwise fun a b => a.name ≠ b.name
  identified : ∃ a ∈ t.attributes, a.isIdentifier = true
  identifiedOnce : AtMostOnce (·.isIdentifier = true) t.attributes
  parentOnce : AtMostOnce (·.isParentIdentifier = true) t.attributes
  parent : (∃ a ∈ t.attributes, a.isParentIdentifier = true) → ∃ id, t.parentId = some id
  fits : ∀ a ∈ t.attributes, a.FitsRoles

/-! ### Counts -/

/-- **What is counted once at most** is in no two places. -/
theorem countP_le_one_iff {α : Type} {p : α → Bool} {l : List α} :
    l.countP p ≤ 1 ↔ AtMostOnce (p · = true) l := by
  unfold AtMostOnce
  induction l with
  | nil => simp
  | cons a l ih =>
    rw [List.pairwise_cons, ← ih]
    by_cases ha : p a = true
    · -- the count is used up, so nothing may follow
      rw [List.countP_cons_of_pos ha]
      have hnone : l.countP p = 0 ↔ ∀ b ∈ l, ¬ p b = true := List.countP_eq_zero
      constructor
      · intro h
        have hzero : l.countP p = 0 := by omega
        exact ⟨fun b hb hboth => hnone.mp hzero b hb hboth.2, by omega⟩
      · rintro ⟨h, -⟩
        have hzero := hnone.mpr fun b hb hp => h b hb ⟨ha, hp⟩
        omega
    · rw [List.countP_cons_of_neg ha]
      simp [ha]

/-! ### One attribute -/

/-- **Nothing is wrong with an attribute** that may have its roles. -/
theorem Attribute.roleFault?_eq_none {a : Attribute} : a.roleFault? = none ↔ a.FitsRoles := by
  unfold roleFault?
  constructor
  · intro h
    -- each rule is what one of the tests asks for
    constructor <;> grind
  · rintro ⟨hboth, hidentifier, hparent, hsearchable⟩
    grind

namespace EquipmentType

/-! ### All attributes -/

/-- **The pass over the attributes finds nothing** if each may have its roles and bears a name that
    is new. -/
theorem attributeFault?_eq_none {seen : List String} {attributes : List Attribute} :
    attributeFault? seen attributes = none ↔
      (∀ a ∈ attributes, a.name ∉ seen) ∧ (attributes.Pairwise fun a b => a.name ≠ b.name) ∧
        ∀ a ∈ attributes, a.FitsRoles := by
  induction attributes generalizing seen with
  | nil => simp [attributeFault?]
  | cons a rest ih =>
    unfold attributeFault?
    by_cases hseen : a.name ∈ seen
    · simp [hseen]
    · -- the name of `a` is one of those met when the rest is looked at
      have hfresh : (∀ b ∈ rest, b.name ∉ a.name :: seen) ↔
          (∀ b ∈ rest, a.name ≠ b.name) ∧ ∀ b ∈ rest, b.name ∉ seen := by
        simp only [List.mem_cons, not_or, forall_and, eq_comm (a := a.name), ne_eq]
      simp only [List.contains_iff_mem, hseen, if_false, Option.or_eq_none_iff,
        Attribute.roleFault?_eq_none, ih, hfresh, List.forall_mem_cons, List.pairwise_cons]
      tauto

/-- What the counts after the pass have to be. -/
private theorem counts_eq_none {parentId : Option String} {identifiers parentIdentifiers : Nat} :
    (if identifiers != 1 then some (RoleFault.identifierCount identifiers)
      else if 1 < parentIdentifiers then some (.parentIdentifierCount parentIdentifiers)
      else if parentIdentifiers == 1 && parentId.isNone then some .parentIdentifierOfRoot
      else none) = none ↔
      identifiers = 1 ∧ parentIdentifiers ≤ 1 ∧
        (0 < parentIdentifiers → ∃ id, parentId = some id) := by
  cases parentId with
  | none => grind
  | some id => grind

/-- **Nothing is wrong with a type** that keeps to the rules. -/
theorem roleFault?_eq_none {t : EquipmentType} : t.roleFault? = none ↔ t.KeepsRoles := by
  -- exactly one is at least one and at most one
  have hsome : 0 < t.attributes.countP (·.isIdentifier) ↔
      ∃ a ∈ t.attributes, a.isIdentifier = true := List.countP_pos_iff
  have honce : t.attributes.countP (·.isIdentifier) ≤ 1 ↔
      AtMostOnce (·.isIdentifier = true) t.attributes := countP_le_one_iff
  have hone : t.attributes.countP (·.isIdentifier) = 1 ↔
      0 < t.attributes.countP (·.isIdentifier) ∧ t.attributes.countP (·.isIdentifier) ≤ 1 := by
    omega
  unfold roleFault?
  simp only [Option.or_eq_none_iff, attributeFault?_eq_none, counts_eq_none, hone, hsome,
    honce, countP_le_one_iff, List.countP_pos_iff]
  constructor
  · rintro ⟨⟨-, hnames, hfits⟩, ⟨hsome, honce⟩, hparentOnce, hparent⟩
    exact ⟨hnames, hsome, honce, hparentOnce, hparent, hfits⟩
  · intro h
    exact ⟨⟨fun _ _ => List.not_mem_nil, h.names, h.fits⟩, ⟨h.identified, h.identifiedOnce⟩,
      h.parentOnce, h.parent⟩

/-- The check is passed if no role is at fault. -/
theorem checkRoles_eq_ok {t : EquipmentType} : t.checkRoles = .ok () ↔ t.roleFault? = none := by
  unfold checkRoles
  cases t.roleFault? <;> simp

/-- **Exactly the types that keep to the rules of attribute roles are accepted.** -/
theorem checkRoles_accepts (t : EquipmentType) : t.checkRoles = .ok () ↔ t.KeepsRoles := by
  rw [checkRoles_eq_ok, roleFault?_eq_none]

end EquipmentType

end LicenseForecast
