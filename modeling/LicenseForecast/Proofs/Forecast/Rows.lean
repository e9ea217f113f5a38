import LicenseForecast.Proofs.Attribute.Readings
import LicenseForecast.Proofs.Forecast.Basis
import LicenseForecast.Proofs.Formula.Splice

namespace LicenseForecast

/-!
# Rows — one product at a time

`Basis.rows` visits the products one after another.  What it makes of a product depends on that
product, the totals and two answers about its users, so the rows have a plain description:

* `Basis.row` — the row of a product, from the totals and the users listed on either side;
* `Basis.entry` — what stands in its place: that row, or nothing if the two sides cannot be
  compared;
* `rows_eq_ok` — the rows are the entries of the products, in order, and nothing else about the
  users may have gone wrong.
-/

open Decimal (unsignedMax)

/-! ### Answers about users -/

/-- Whether an answer is that there is nothing. -/
def saysNothing {α : Type} : Except LookupFault α → Bool
  | .error .noData => true
  | _ => false

/-- The items of an answer, which are none if there is no answer. -/
def listed {α : Type} (answer : Except LookupFault (List α)) : List α :=
  answer.toOption.getD []

/-- The answer says what there is or that there is nothing. -/
def Conclusive {α : Type} (answer : Except LookupFault α) : Prop :=
  ∀ fault, answer = .error fault → fault = .noData

/-- An answer says nothing if it says that there is no data. -/
theorem saysNothing_iff {α : Type} {answer : Except LookupFault α} :
    saysNothing answer = true ↔ answer = .error .noData := by
  constructor
  · intro h
    unfold saysNothing at h
    split at h
    · rfl
    · cases h
  · rintro rfl
    rfl

/-- What is made of an answer depends on whether it says nothing. -/
theorem sought_eq_ok {α : Type} {lookup : Lookup} {answer : Except LookupFault (List α)}
    {found : Option (List α)} :
    Failure.sought lookup answer = .ok found ↔
      Conclusive answer ∧ found = if saysNothing answer then none else some (listed answer) := by
  cases answer with
  | ok items =>
    rw [Failure.sought_ok]
    constructor
    · intro h
      cases h
      exact ⟨nofun, rfl⟩
    · rintro ⟨-, rfl⟩
      rfl
  | error fault =>
    by_cases hfault : fault = .noData
    · subst hfault
      rw [Failure.sought_noData]
      constructor
      · intro h
        cases h
        exact ⟨fun _ h => (Except.error.inj h).symm, rfl⟩
      · rintro ⟨-, rfl⟩
        rfl
    · rw [Failure.sought_fault hfault]
      exact ⟨nofun, fun h => absurd (h.1 fault rfl) hfault⟩

namespace Basis

/-! ### The row of a product -/

/-- The display name of the metric. -/
def metricName : Basis → String
  | .direct rule _ _ => rule.name
  | .pooled rule .. => rule.name

/-- The users that each processor stands for, where users count. -/
def threshold? : Basis → Option Nat
  | .direct .. => none
  | .pooled rule .. => Request.threshold? rule

/-- The licences of a product whose processors come to a total. -/
def licensesAt (basis : Basis) (total : Nat) (users : List NamedUser) : Nat :=
  match basis.threshold? with
  | none => total
  | some usersPerProcessor => Formula.userLicenses total usersPerProcessor users

/-- The row of a product. -/
def row (inventory : Inventory) (totals : Formula.Splice) (basis : Basis) (product : Product) :
    Row :=
  .of basis.metricName product
    (basis.licensesAt totals.oldTotal (listed (basis.usersBefore inventory product)))
    (basis.licensesAt totals.newTotal (listed (basis.usersAfter inventory product)))

/-- Whether the users of a product are known on both sides or on neither. -/
def isComparable (inventory : Inventory) (basis : Basis) (product : Product) : Bool :=
  basis.threshold?.isNone ||
    saysNothing (basis.usersBefore inventory product)
      == saysNothing (basis.usersAfter inventory product)

/-- What stands in the place of a product: its row, or nothing. -/
def entry (inventory : Inventory) (totals : Formula.Splice) (basis : Basis) (product : Product) :
    Option Row :=
  if basis.isComparable inventory product then some (basis.row inventory totals product) else none

/-- Both answers about the users of a product are conclusive, where users count. -/
def Answered (inventory : Inventory) (basis : Basis) (product : Product) : Prop :=
  basis.threshold?.isSome →
    Conclusive (basis.usersBefore inventory product) ∧
      Conclusive (basis.usersAfter inventory product)

variable {inventory : Inventory} {totals : Formula.Splice} {basis : Basis} {product : Product}

/-- A row is about its product. -/
theorem entry_eq_some {r : Row} : basis.entry inventory totals product = some r ↔
    basis.isComparable inventory product = true ∧ basis.row inventory totals product = r := by
  unfold entry
  split <;> simp_all

/-- A product has a row where both sides are known, and where neither is. -/
theorem userRow_eq (rule : PooledRule) (usersPerProcessor : Nat)
    (before after : Except LookupFault (List NamedUser)) :
    Request.userRow rule usersPerProcessor totals product
        (if saysNothing before then none else some (listed before))
        (if saysNothing after then none else some (listed after))
      = if saysNothing before == saysNothing after then
          some (.of rule.name product
            (Formula.userLicenses totals.oldTotal usersPerProcessor (listed before))
            (Formula.userLicenses totals.newTotal usersPerProcessor (listed after)))
        else none := by
  cases hbefore : saysNothing before with
  | false => cases saysNothing after <;> rfl
  | true =>
    cases hafter : saysNothing after with
    | false => rfl
    | true =>
      rw [saysNothing_iff.mp hbefore, saysNothing_iff.mp hafter]
      rfl

/-- **What is made of one product.** -/
theorem row?_eq_ok {found : Option Row} :
    basis.row? inventory totals product = .ok found ↔
      basis.Answered inventory product ∧ found = basis.entry inventory totals product := by
  cases basis with
  | direct rule oldLicenses newLicenses =>
    have hanswered : (direct rule oldLicenses newLicenses).Answered inventory product :=
      fun h => absurd h Bool.false_ne_true
    constructor
    · intro h
      cases h
      exact ⟨hanswered, rfl⟩
    · rintro ⟨-, rfl⟩
      rfl
  | pooled rule chain old new oldContribution newContribution =>
    cases hthreshold : Request.threshold? rule with
    | none =>
      -- nobody is asked about users
      simp only [row?, Answered, entry, isComparable, row, licensesAt, threshold?, hthreshold]
      constructor
      · intro h
        cases h
        exact ⟨fun h => absurd h Bool.false_ne_true, rfl⟩
      · rintro ⟨-, rfl⟩
        rfl
    | some usersPerProcessor =>
      simp only [row?, Answered, entry, isComparable, row, licensesAt, threshold?, hthreshold,
        bind_eq_ok, pure_eq_ok, sought_eq_ok]
      constructor
      · rintro ⟨_, ⟨hbefore, rfl⟩, _, ⟨hafter, rfl⟩, rfl⟩
        exact ⟨fun _ => ⟨hbefore, hafter⟩, userRow_eq ..⟩
      · rintro ⟨hanswered, rfl⟩
        obtain ⟨hbefore, hafter⟩ := hanswered rfl
        exact ⟨_, ⟨hbefore, rfl⟩, _, ⟨hafter, rfl⟩, userRow_eq ..⟩

/-! ### All rows -/

/-- Rows come of products whose users could be asked for on both sides. -/
private theorem mapM_row?_eq_ok {products : List Product} {found : List (Option Row)} :
    products.mapM (basis.row? inventory totals) = .ok found ↔
      (∀ product ∈ products, basis.Answered inventory product) ∧
        found = products.map (basis.entry inventory totals) := by
  constructor
  · intro h
    have hanswered : ∀ product ∈ products, basis.Answered inventory product := by
      intro product hproduct
      obtain ⟨_, _, hrow⟩ := exists_ok_of_mapM h hproduct
      exact (row?_eq_ok.mp hrow).1
    refine ⟨hanswered, ?_⟩
    rw [mapM_of_forall fun product hproduct => row?_eq_ok.mpr ⟨hanswered product hproduct, rfl⟩]
      at h
    exact (Except.ok.inj h).symm
  · rintro ⟨hanswered, rfl⟩
    exact mapM_of_forall fun product hproduct => row?_eq_ok.mpr ⟨hanswered product hproduct, rfl⟩

/-- **The rows of some products**: what stands in the place of each, in order.  They exist if there
    are totals and every answer about users is conclusive. -/
theorem rows_eq_ok {products : List Product} {rows : List Row} :
    basis.rows inventory products = .ok rows ↔
      ∃ totals, basis.splice inventory = .ok totals ∧
        (∀ product ∈ products, basis.Answered inventory product) ∧
        rows = products.filterMap (basis.entry inventory totals) := by
  have hreduce : ∀ totals, (products.map (basis.entry inventory totals)).reduceOption
      = products.filterMap (basis.entry inventory totals) := fun _ => List.filterMap_map ..
  simp only [Basis.rows, bind_eq_ok, map_eq_ok, mapM_row?_eq_ok]
  refine exists_congr fun totals => and_congr_right fun _ => ?_
  constructor
  · rintro ⟨_, ⟨hanswered, rfl⟩, rfl⟩
    exact ⟨hanswered, hreduce totals⟩
  · rintro ⟨hanswered, rfl⟩
    exact ⟨_, ⟨hanswered, rfl⟩, hreduce totals⟩

/-- A row among the rows is that of its product. -/
theorem eq_row_of_mem_rows {products : List Product} {rows : List Row}
    (hrows : basis.rows inventory products = .ok rows)
    (htotals : basis.splice inventory = .ok totals) {r : Row} (hr : r ∈ rows) :
    r = basis.row inventory totals r.product := by
  obtain ⟨_, htotals', -, rfl⟩ := rows_eq_ok.mp hrows
  cases htotals.symm.trans htotals'
  obtain ⟨product, -, hentry⟩ := List.mem_filterMap.mp hr
  obtain ⟨-, rfl⟩ := entry_eq_some.mp hentry
  rfl

end Basis

end LicenseForecast
