import LicenseForecast.Formula
import LicenseForecast.Proofs.Distinct
import Mathlib.Algebra.Order.BigOperators.Group.Finset
import Mathlib.Algebra.Order.Ring.Nat

namespace LicenseForecast

/-!
# Licences of named users

`Formula.userLicenses` never leaves 64 bits: what each user stands for at least is capped first,
and the total is capped again after each user.  None of these caps shows in the result:

* `Formula.uncappedLicenses` — the same count without caps, over users instead of entries;
* `Formula.userLicenses_eq_min` — the licences are that count, capped once;
* `Formula.userLicenses_saturate` — so they are never below what the processors require, and grow
  with the processors and with the users that each of these stands for.
-/

open Decimal (unsignedMax)

/-! ### Each user once -/

/-- A sum over the first elements of each key is a sum over the keys. -/
theorem KeepsFirst.sum_map {α : Type} {key : α → String} {distinct : List String → List α → List α}
    (h : KeepsFirst key distinct) {g : α → Nat} {f : String → Nat} {l : List α}
    (hfirst : ∀ a ∈ distinct [] l, g a = f (key a)) :
    ((distinct [] l).map g).sum = ∑ k ∈ (l.map key).toFinset, f k := by
  -- the elements that are kept have the same keys, and none of these comes up twice
  have hkeys : (l.map key).toFinset = ((distinct [] l).map key).toFinset := by
    ext k
    rw [List.mem_toFinset, List.mem_toFinset, h.mem_keys_iff]
  rw [hkeys, List.sum_toFinset _ h.nodup, List.map_map]
  exact congrArg List.sum (List.map_congr_left hfirst)

/-- How often a user counts: as often as the user's first entry says, and not at all if that is
    negative. -/
def NamedUser.countOf (users : List NamedUser) (userId : String) : Nat :=
  ((users.find? (·.userId == userId)).map (·.count.toNat)).getD 0

/-- An entry that is kept says how often its user counts. -/
theorem NamedUser.countOf_of_mem_distinct {users : List NamedUser} {user : NamedUser}
    (h : user ∈ distinct users) : countOf users user.userId = user.count.toNat := by
  unfold countOf
  rw [(keepsFirst.mem_iff.mp h).2]
  rfl

namespace Formula

/-- The licences of a product with named users, however many these are.  Each user stands for at
    least the licences that the processors require. -/
def uncappedLicenses (processors usersPerProcessor : Nat) (users : List NamedUser) : Nat :=
  if users = [] then processors * usersPerProcessor
  else ∑ userId ∈ (users.map (·.userId)).toFinset,
    max (processors * usersPerProcessor) (NamedUser.countOf users userId)

/-! ### Without caps -/

/-- Users never make it less than the processors do. -/
theorem le_uncappedLicenses (processors usersPerProcessor : Nat) (users : List NamedUser) :
    processors * usersPerProcessor ≤ uncappedLicenses processors usersPerProcessor users := by
  unfold uncappedLicenses
  split
  · exact le_rfl
  next hsome =>
    -- one user is enough
    obtain ⟨user, hmem⟩ := List.exists_mem_of_ne_nil users hsome
    have huser : user.userId ∈ (users.map (·.userId)).toFinset :=
      List.mem_toFinset.mpr (List.mem_map_of_mem hmem)
    calc processors * usersPerProcessor
        ≤ max (processors * usersPerProcessor) (NamedUser.countOf users user.userId) :=
          le_max_left _ _
      _ ≤ _ := Finset.single_le_sum
          (f := fun id => max (processors * usersPerProcessor) (NamedUser.countOf users id))
          (fun _ _ => Nat.zero_le _) huser

/-- Without caps the licences grow with what each user stands for at least. -/
theorem uncappedLicenses_mono {processors processors' usersPerProcessor usersPerProcessor' : Nat}
    (h : processors * usersPerProcessor ≤ processors' * usersPerProcessor')
    (users : List NamedUser) :
    uncappedLicenses processors usersPerProcessor users
      ≤ uncappedLicenses processors' usersPerProcessor' users := by
  unfold uncappedLicenses
  split
  · exact h
  · exact Finset.sum_le_sum fun _ _ => max_le_max_right _ h

/-! ### Caps -/

/-- A sum that is capped after each summand is the sum capped once. -/
theorem foldl_min_add {α : Type} (f : α → Nat) {cap : Nat} (l : List α) {start : Nat}
    (hstart : start ≤ cap) :
    l.foldl (fun total a => min cap (total + f a)) start = min cap (start + (l.map f).sum) := by
  induction l generalizing start with
  | nil => exact (min_eq_right hstart).symm
  | cons a rest ih =>
    rw [List.foldl_cons, ih (min_le_left _ _), List.map_cons, List.sum_cons]
    omega

/-- **The licences of named users are capped once.** -/
theorem userLicenses_eq_min (processors usersPerProcessor : Nat) (users : List NamedUser) :
    userLicenses processors usersPerProcessor users
      = min unsignedMax (uncappedLicenses processors usersPerProcessor users) := by
  unfold userLicenses uncappedLicenses
  by_cases hnobody : users = []
  · subst hnobody
    rfl
  · -- the cap on what a user stands for is covered by the cap on the total
    have hstep : ∀ total count : Nat,
        min unsignedMax (total + max (min unsignedMax (processors * usersPerProcessor)) count)
          = min unsignedMax (total + max (processors * usersPerProcessor) count) := by
      intro total count
      omega
    have hsum := NamedUser.keepsFirst.sum_map (l := users)
      (g := fun user => max (processors * usersPerProcessor) user.count.toNat)
      (f := fun userId => max (processors * usersPerProcessor) (NamedUser.countOf users userId))
      fun user huser => by rw [NamedUser.countOf_of_mem_distinct huser]
    simp only [List.isEmpty_iff, hnobody, if_false, hstep]
    rw [foldl_min_add _ _ (Nat.zero_le _), Nat.zero_add, ← hsum]
    rfl

/-- **Licences of named users saturate.**  They are what unbounded counting comes to, or the most
    that 64 bits can count to.  So they are never below what the processors require, and more
    processors or more users per processor never make them fewer. -/
theorem userLicenses_saturate (processors usersPerProcessor : Nat) (users : List NamedUser) :
    userLicenses processors usersPerProcessor users
        = min unsignedMax (uncappedLicenses processors usersPerProcessor users) ∧
      min unsignedMax (processors * usersPerProcessor)
        ≤ userLicenses processors usersPerProcessor users ∧
      Monotone (userLicenses · usersPerProcessor users) ∧
      Monotone (userLicenses processors · users) := by
  have hmono : ∀ {p p' t t' : Nat}, p * t ≤ p' * t' →
      userLicenses p t users ≤ userLicenses p' t' users := by
    intro p p' t t' h
    rw [userLicenses_eq_min, userLicenses_eq_min]
    exact min_le_min_left _ (uncappedLicenses_mono h users)
  refine ⟨userLicenses_eq_min .., ?_, fun p p' h => ?_, fun t t' h => ?_⟩
  · rw [userLicenses_eq_min]
    exact min_le_min_left _ (le_uncappedLicenses ..)
  · exact hmono (Nat.mul_le_mul_right _ h)
  · exact hmono (Nat.mul_le_mul_left _ h)

/-- The first entry of a user counts, and at least the processors do. -/
example : userLicenses 2 3 [⟨"1", "anna", 50⟩, ⟨"2", "anna", 70⟩, ⟨"3", "bert", -1⟩] = 56 := by
  decide

end Formula

end LicenseForecast
