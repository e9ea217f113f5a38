import LicenseForecast.Chain
import LicenseForecast.Proofs.Metric.Rule
import LicenseForecast.Proofs.Store

namespace LicenseForecast

/-!
# Chains in a fleet

Where a fleet answers about the equipment above a machine, the chain in the answer is the way up
from the machine in its scope: its top and the root of its pool are the assets so many links
above (`Chain.ends_of_ofAnswer`).  Whatever the answer, the links of a chain that is accepted are
of the types that the rule says (`Chain.typeNames_of_ofAnswer`).
-/

namespace Scope

variable {s : Scope}

/-- **A climb passes the assets above one after another**, up to its bound. -/
theorem getElem?_climb {n k : Nat} (h : k < n) (a : Asset) :
    (s.climb n a)[k]? = s.ascend k a := by
  induction n generalizing k a with
  | zero => exact absurd h (Nat.not_lt_zero k)
  | succ n ih =>
    cases k with
    | zero => rfl
    | succ k =>
      show _ = (s.parentOf a).bind (s.ascend k)
      rw [climb, List.getElem?_cons_succ]
      cases s.parentOf a with
      | none => rfl
      | some p => exact ih (Nat.lt_of_succ_lt_succ h) p

/-- A way up of some steps is no longer than that. -/
theorem length_climb_le (s : Scope) (n : Nat) (a : Asset) : (s.climb n a).length ≤ n := by
  induction n generalizing a with
  | zero => exact Nat.le_refl 0
  | succ n ih =>
    rw [climb, List.length_cons]
    cases s.parentOf a with
    | none => exact Nat.succ_le_succ (Nat.zero_le n)
    | some p => exact Nat.succ_le_succ (ih p)

/-- The equipment above an asset, in a scope that holds it. -/
theorem inventory_hierarchy {id typeName : String} {depth : Nat} {b : Asset}
    {found : List Equipment} (hb : s.asset? id = some b)
    (h : Scope.inventory [s] (.hierarchy id typeName depth) = .ok found) :
    b.typeName = typeName ∧ found = (s.climb (depth + 1) b).map (·.toEquipment) := by
  replace h : anchored [s] id typeName (fun s => .ok (s.hierarchy id depth)) = .ok found := h
  unfold anchored at h
  cases hholds : s.holds id typeName with
  | false =>
    rw [List.find?_cons, hholds] at h
    cases h
  | true =>
    simp only [List.find?_cons, hholds, hierarchy, hb, Except.ok.injEq] at h
    unfold holds at hholds
    rw [hb] at hholds
    exact ⟨beq_iff_eq.mp hholds, h.symm⟩

end Scope

namespace Chain

variable {f : Forest} {rule : PooledRule} {id typeName : String} {chain : Chain}

/-- A chain is the lower end of an answer. -/
theorem ofAnswer_eq_ok {answer : Except LookupFault (List Equipment)}
    (h : ofAnswer f rule id typeName answer = .ok chain) :
    ∃ found, answer = .ok found ∧ (typeNames f rule).length ≤ found.length ∧
      chain.links = found.take (typeNames f rule).length ∧
      chain.aggregateOffset = rule.aggregateOffset := by
  unfold ofAnswer at h
  split at h
  · cases h
  · cases h
  · cases h
  next found =>
    simp only at h
    -- of the three checks only the first says something about the number of links
    split at h
    · cases h
    next hlength =>
      split at h
      · cases h
      · split at h
        · cases h
        · cases h
          exact ⟨found, rfl, Nat.not_lt.mp hlength, rfl, rfl⟩

/-! ### The types of the links -/

/-- No link is a stranger exactly if all are of the types that are expected. -/
theorem stranger?_eq_none {links : List Equipment} {names : List String}
    (hlength : links.length = names.length) :
    stranger? links names = none ↔ links.map (·.typeName) = names := by
  induction links generalizing names with
  | nil =>
    cases names with
    | nil => exact ⟨fun _ => rfl, fun _ => rfl⟩
    | cons name names => cases hlength
  | cons link links ih =>
    cases names with
    | nil => cases hlength
    | cons name names =>
      rw [stranger?, List.map_cons, List.cons.injEq]
      split
      next heq => rw [ih (Nat.succ.inj hlength), and_iff_right heq]
      next hne => exact ⟨nofun, fun h => absurd h.1 hne⟩

/-- **The links of a chain are of the types that the rule says**, one for each level up to its end
    type. -/
theorem typeNames_of_ofAnswer {answer : Except LookupFault (List Equipment)}
    (h : ofAnswer f rule id typeName answer = .ok chain) :
    chain.links.map (·.typeName) = typeNames f rule ∧
      chain.productDepth = min maxDepth (rule.depth + 1) := by
  unfold ofAnswer at h
  split at h
  · cases h
  · cases h
  · cases h
  next found =>
    simp only at h
    split at h
    · cases h
    next hlength =>
      split at h
      · cases h
      · split at h
        · cases h
        next hstranger =>
          -- no link is a stranger, so all of them are of the types expected
          cases h
          refine ⟨(stranger?_eq_none ?_).mp hstranger, rfl⟩
          rw [List.length_take, Nat.min_eq_left (Nat.not_lt.mp hlength)]

/-- A rule names one type for each link up to its end type. -/
theorem length_typeNames {i : Nat} (h : f.distance rule.baseIndex i = some rule.topOffset) :
    (typeNames f rule).length = rule.topOffset + 1 := by
  have hlt := Forest.lt_length_of_distance h
  unfold typeNames
  rw [List.length_map, List.length_take]
  omega

/-- The type of a link is that of its level. -/
private theorem typeName_link {answer : Except LookupFault (List Equipment)}
    (h : ofAnswer f rule id typeName answer = .ok chain) {n i : Nat} {t : EquipmentType}
    (hn : n ≤ rule.topOffset) (hdistance : f.distance rule.baseIndex i = some n)
    (ht : f.get? i = some t) : (chain.link n).typeName = t.name := by
  obtain ⟨hn', hat, -⟩ := List.idxOf?_eq_some_iff.mp hdistance
  -- place `n` of the expected names is the name of the type that many steps up
  have hname : (typeNames f rule)[n]? = some (f.nameOf i) := by
    unfold typeNames
    rw [List.getElem?_map, List.getElem?_take_of_lt (Nat.lt_succ_of_le hn),
      List.getElem?_eq_getElem hn', hat]
    rfl
  rw [← (typeNames_of_ofAnswer h).1, List.getElem?_map] at hname
  obtain ⟨e, he, htype⟩ := Option.map_eq_some_iff.mp hname
  show (chain.links[n]?.getD default).typeName = _
  rw [he]
  refine htype.trans ?_
  unfold Forest.nameOf
  rw [ht]
  rfl

/-- **The ends of a chain are of the types of its rule**: the top is of the end type, and the root
    of the pool of the aggregation type. -/
theorem typeName_ends {family : Family} {users : Option Nat} {m : PooledMetric}
    (hfits : m.Fits f family users rule) {answer : Except LookupFault (List Equipment)}
    (h : ofAnswer f rule id typeName answer = .ok chain) :
    chain.top.typeName = rule.top.name ∧ chain.aggregate.typeName = rule.aggregate.name := by
  obtain ⟨i, _, htop, htopType, htopDistance, -, -⟩ := hfits.exists_top
  obtain ⟨j, haggregate, haggregateType, haggregateDistance⟩ := hfits.exists_aggregate
  -- the answer is cut to the expected length, so its last link is the top
  have hcount : chain.links.length = rule.topOffset + 1 := by
    rw [← length_typeNames htopDistance, ← (typeNames_of_ofAnswer h).1, List.length_map]
  have hoffset : chain.aggregateOffset = rule.aggregateOffset := by
    obtain ⟨_, -, -, -, hoffset⟩ := ofAnswer_eq_ok h
    exact hoffset
  constructor
  · unfold Chain.top
    rw [hcount, Nat.add_sub_cancel]
    exact typeName_link h (Nat.le_refl _) htopDistance (Forest.get?_of_getD htop htopType)
  · unfold Chain.aggregate
    rw [hoffset]
    exact typeName_link h hfits.aggregate_le_top haggregateDistance
      (Forest.get?_of_getD haggregate haggregateType)

/-- **The ends of a chain** are the assets above the machine that the rule says. -/
theorem ends_of_ofAnswer {s : Scope} {b root top : Asset} {i : Nat}
    (hdistance : f.distance rule.baseIndex i = some rule.topOffset)
    (hle : rule.aggregateOffset ≤ rule.topOffset) (hb : s.asset? id = some b)
    (hroot : s.ascend rule.aggregateOffset b = some root)
    (htop : s.ascend rule.topOffset b = some top)
    (h : ofAnswer f rule id typeName (Scope.inventory [s] (.hierarchy id typeName rule.depth))
      = .ok chain) :
    chain.top = top.toEquipment ∧ chain.aggregate = root.toEquipment ∧ b.typeName = typeName := by
  obtain ⟨found, hfound, hlength, hlinks, hoffset⟩ := ofAnswer_eq_ok h
  obtain ⟨htype, rfl⟩ := Scope.inventory_hierarchy hb hfound
  rw [length_typeNames hdistance] at hlength hlinks
  -- the link numbered `k` is the asset `k` steps up
  have hlink : ∀ k ≤ rule.topOffset, ∀ u, s.ascend k b = some u →
      chain.link k = u.toEquipment := by
    intro k hk u hu
    have hk' : k < rule.depth + 1 := by
      have hclimb := s.length_climb_le (rule.depth + 1) b
      rw [List.length_map] at hlength
      omega
    unfold link
    rw [hlinks, List.getElem?_take_of_lt (Nat.lt_succ_of_le hk), List.getElem?_map,
      Scope.getElem?_climb hk', hu]
    rfl
  have hcount : chain.links.length - 1 = rule.topOffset := by
    rw [hlinks, List.length_take]
    omega
  refine ⟨?_, ?_, htype⟩
  · unfold Chain.top
    rw [hcount]
    exact hlink _ (Nat.le_refl _) top htop
  · unfold Chain.aggregate
    rw [hoffset]
    exact hlink _ hle root hroot

end Chain

end LicenseForecast
