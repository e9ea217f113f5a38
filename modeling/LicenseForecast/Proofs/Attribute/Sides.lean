import LicenseForecast.Proofs.Attribute.Readings
import LicenseForecast.Proofs.Dictionary
import Mathlib.Data.List.Induction

namespace LicenseForecast

/-!
# What the two sides of some overrides hold

A list of overrides has a value of a wrong kind, or it yields the readings before and after.  What
it comes to is said here by the overrides alone, which may name an attribute any number of times:

* `Override.mismatch?` — what is wrong with the values of an override, if anything is;
* `Readings.AreSides` — which attributes both sides know, and which override speaks for each;
* `Readings.recorded_step` — what one more override changes;
* `Readings.beforeAndAfter_sides` — the first mismatch is reported, and where there is none the two
  sides are as described.
-/

/-! ### Values and kinds -/

/-- A value can stand for one of the declared kind: it is of that kind, or an integer for a number
    with decimal places. -/
def Value.FitsKind (value : Value) (declared : ValueKind) : Prop :=
  value.kind = declared ∨ value.kind = .int ∧ declared = .float

instance (value : Value) (declared : ValueKind) : Decidable (value.FitsKind declared) :=
  inferInstanceAs (Decidable (_ ∨ _))

/-- A value that fits can be taken as of the kind, and no other. -/
theorem Value.isSome_as?_iff {value : Value} {declared : ValueKind} :
    (value.as? declared).isSome ↔ value.FitsKind declared := by
  cases value <;> cases declared <;> simp [as?, FitsKind, kind]

namespace Override

/-- The value observed, or the only one that is given. -/
def observed? (o : Override) : Option Value := o.oldValue.or o.value

/-- The value proposed, or the only one that is given.  Without a simulation nothing else is
    proposed than observed. -/
def proposed? (o : Override) : Option Value :=
  if o.simulated then o.value.or o.oldValue else o.observed?

/-- The override gives a value on either side. -/
def GivesValue (o : Override) : Prop := o.value.isSome ∨ o.oldValue.isSome

/-- What is wrong with a value of the override, if it does not fit the declared kind. -/
def kindFault? (o : Override) (value : Value) : Option ModelFault :=
  if value.FitsKind o.kind then none else some (.kindMismatch o.id o.name o.kind value.kind)

/-- What is wrong with the values of the override, the one observed first. -/
def mismatch? (o : Override) : Option ModelFault :=
  (o.observed?.bind o.kindFault?).or (o.proposed?.bind o.kindFault?)

/-- A value of the override as one of its declared kind. -/
def typed? (o : Override) (given : Option Value) : Option Value := given.bind (·.as? o.kind)

variable {o : Override}

/-- A value is observed exactly if one is given. -/
theorem isSome_observed? : o.observed?.isSome ↔ o.GivesValue := by
  unfold observed? GivesValue
  cases o.oldValue <;> cases o.value <;> simp

/-- A value is proposed exactly if one is given. -/
theorem isSome_proposed? : o.proposed?.isSome ↔ o.GivesValue := by
  unfold proposed? observed? GivesValue
  cases o.simulated <;> cases o.oldValue <;> cases o.value <;> simp

/-- Without a simulation both sides see the same. -/
theorem proposed?_of_not_simulated (h : o.simulated = false) : o.proposed? = o.observed? := by
  unfold proposed?
  rw [h]
  rfl

/-- A value is refused exactly if it does not fit its kind. -/
private theorem mapM_checked (o : Override) (given : Option Value) :
    given.mapM o.checked = match given.bind o.kindFault? with
      | some fault => .error fault
      | none => .ok (o.typed? given) := by
  cases given with
  | none => rfl
  | some value =>
    show (o.checked value >>= fun checked => pure (some checked)) = _
    unfold checked typed?
    simp only [Option.bind_some, kindFault?, ← Value.isSome_as?_iff]
    cases value.as? o.kind <;> rfl

/-- A value that fits its kind is not lost. -/
private theorem isSome_typed? {given : Option Value} (hfits : given.bind o.kindFault? = none) :
    (o.typed? given).isSome = given.isSome := by
  cases given with
  | none => rfl
  | some value =>
    have hkind : value.FitsKind o.kind := by
      by_contra hkind
      simp [kindFault?, hkind] at hfits
    exact Value.isSome_as?_iff.mpr hkind

/-- An override without mismatch has a typed value on both sides if it gives any. -/
theorem exists_typed (hfits : o.mismatch? = none) (h : o.GivesValue) :
    ∃ before after, o.typed? o.observed? = some before ∧ o.typed? o.proposed? = some after := by
  obtain ⟨hobserved, hproposed⟩ := Option.or_eq_none_iff.mp hfits
  have hbefore := (isSome_typed? hobserved).trans (isSome_observed?.mpr h)
  have hafter := (isSome_typed? hproposed).trans (isSome_proposed?.mpr h)
  obtain ⟨before, hbefore⟩ := Option.isSome_iff_exists.mp hbefore
  obtain ⟨after, hafter⟩ := Option.isSome_iff_exists.mp hafter
  exact ⟨before, after, hbefore, hafter⟩

/-- An override that gives no value has none on either side. -/
theorem typed?_eq_none (h : ¬ o.GivesValue) :
    o.typed? o.observed? = none ∧ o.typed? o.proposed? = none := by
  have hobserved : o.observed? = none := by
    rwa [← isSome_observed?, Option.not_isSome_iff_eq_none] at h
  have hproposed : o.proposed? = none := by
    rwa [← isSome_proposed?, Option.not_isSome_iff_eq_none] at h
  rw [hobserved, hproposed]
  exact ⟨rfl, rfl⟩

end Override

namespace Readings

/-! ### One override -/

variable {overrides : List Override} {old new : Readings} {o : Override} {id : String}

/-- **One more override** is refused for its mismatch, or recorded on both sides. -/
theorem recordBoth_eq (sides : Readings × Readings) (o : Override) :
    recordBoth sides o = match o.mismatch? with
      | some fault => .error fault
      | none => .ok (sides.1.record o (o.typed? o.observed?),
          sides.2.record o (o.typed? o.proposed?)) := by
  have hbefore : o.before = _ := o.mapM_checked o.observed?
  have hafter : o.after = match o.proposed?.bind o.kindFault? with
      | some fault => .error fault
      | none => .ok (o.typed? o.proposed?) := by
    rw [← o.mapM_checked o.proposed?]
    unfold Override.after Override.proposed?
    cases o.simulated <;> rfl
  unfold recordBoth Override.mismatch?
  rw [hbefore, hafter]
  cases o.observed?.bind o.kindFault? with
  | some fault => rfl
  | none => cases o.proposed?.bind o.kindFault? <;> rfl

/-- A recorded value stands under the id of its override. -/
theorem get?_record_self (readings : Readings) (o : Override) (value : Value) :
    (readings.record o (some value)).get? o.id = some ⟨o.name, value, o.simulated⟩ :=
  Dictionary.get?_insert_self ..

/-- An override says nothing about other attributes. -/
theorem get?_record_of_ne (readings : Readings) {o : Override} (h : o.id ≠ id)
    (given : Option Value) : (readings.record o given).get? id = readings.get? id := by
  cases given with
  | none => rfl
  | some value => exact Dictionary.get?_insert_of_ne h.symm

/-! ### All overrides -/

/-- An override is the last one of its attribute that gives a value. -/
def IsLast (overrides : List Override) (o : Override) : Prop :=
  ∃ earlier later, overrides = earlier ++ o :: later ∧ o.GivesValue ∧
    ∀ o' ∈ later, o'.GivesValue → o'.id ≠ o.id

/-- What both sides hold of an attribute: nothing, or what its last override says. -/
inductive Recorded (overrides : List Override) (old new : Readings) (id : String) : Prop
  | absent (h : ∀ o ∈ overrides, o.GivesValue → o.id ≠ id) (old_eq : old.get? id = none)
      (new_eq : new.get? id = none)
  | last (o : Override) (isLast : IsLast overrides o) (id_eq : o.id = id) (before after : Value)
      (before_eq : o.typed? o.observed? = some before)
      (after_eq : o.typed? o.proposed? = some after)
      (old_eq : old.get? id = some ⟨o.name, before, o.simulated⟩)
      (new_eq : new.get? id = some ⟨o.name, after, o.simulated⟩)

/-- An override remains the last one of its attribute if no value is given for that. -/
theorem IsLast.concat {last : Override} (h : IsLast overrides last)
    (hother : o.GivesValue → o.id ≠ last.id) : IsLast (overrides ++ [o]) last := by
  obtain ⟨earlier, later, rfl, hgives, hlater⟩ := h
  refine ⟨earlier, later ++ [o], by simp, hgives, fun o' ho' => ?_⟩
  rcases List.mem_append.mp ho' with ho' | ho'
  · exact hlater o' ho'
  · rw [List.mem_singleton.mp ho']
    exact hother

/-- What both sides hold of an attribute stays if no value is given for that. -/
private theorem Recorded.concat {old' new' : Readings} (h : Recorded overrides old new id)
    (hother : o.GivesValue → o.id ≠ id) (hold : old'.get? id = old.get? id)
    (hnew : new'.get? id = new.get? id) : Recorded (overrides ++ [o]) old' new' id := by
  cases h with
  | absent hall hold₀ hnew₀ =>
    refine .absent (fun o' ho' => ?_) (hold.trans hold₀) (hnew.trans hnew₀)
    rcases List.mem_append.mp ho' with ho' | ho'
    · exact hall o' ho'
    · rw [List.mem_singleton.mp ho']
      exact hother
  | last last hlast hid before after hbefore hafter hold₀ hnew₀ =>
    subst hid
    exact .last last (hlast.concat hother) rfl before after hbefore hafter (hold.trans hold₀)
      (hnew.trans hnew₀)

/-- **One more override** speaks for its attribute if it gives a value, and changes nothing else. -/
theorem recorded_step (h : Recorded overrides old new id) (hfits : o.mismatch? = none) :
    Recorded (overrides ++ [o]) (old.record o (o.typed? o.observed?))
      (new.record o (o.typed? o.proposed?)) id := by
  by_cases hgives : o.GivesValue
  · -- it is now the last one of its own attribute, and of no other
    obtain ⟨before, after, hbefore, hafter⟩ := Override.exists_typed hfits hgives
    by_cases hid : o.id = id
    · subst hid
      rw [hbefore, hafter]
      exact .last o ⟨overrides, [], rfl, hgives, nofun⟩ rfl before after hbefore hafter
        (get?_record_self ..) (get?_record_self ..)
    · exact h.concat (fun _ => hid) (get?_record_of_ne old hid _) (get?_record_of_ne new hid _)
  · -- nothing is recorded, not even its name or whether it is simulated
    obtain ⟨hbefore, hafter⟩ := Override.typed?_eq_none hgives
    rw [hbefore, hafter]
    exact h.concat (fun hgives' => absurd hgives' hgives) rfl rfl

/-- **A list of overrides** is refused for its first mismatch, or says what both sides hold. -/
theorem beforeAndAfter_cases (overrides : List Override) :
    match overrides.findSome? Override.mismatch? with
    | some fault => beforeAndAfter overrides = .error fault
    | none => ∃ old new, beforeAndAfter overrides = .ok (old, new) ∧
        ∀ id, Recorded overrides old new id := by
  -- overrides are recorded from the left, so the last one is what a step adds
  induction overrides using List.reverseRecOn with
  | nil => exact ⟨.empty, .empty, rfl, fun id => .absent nofun rfl rfl⟩
  | append_singleton overrides o ih =>
    have hstep : beforeAndAfter (overrides ++ [o])
        = beforeAndAfter overrides >>= fun sides => recordBoth sides o := by
      unfold beforeAndAfter
      rw [List.foldlM_append]
      simp only [List.foldlM_cons, List.foldlM_nil, bind_pure]
    rw [List.findSome?_append, hstep]
    cases hearlier : overrides.findSome? Override.mismatch? with
    | some fault =>
      rw [hearlier] at ih
      rw [Option.some_or, ih]
      rfl
    | none =>
      rw [hearlier] at ih
      obtain ⟨old, new, hsides, hrecorded⟩ := ih
      rw [Option.none_or, List.findSome?_singleton, hsides]
      show match o.mismatch? with
        | some fault => recordBoth (old, new) o = .error fault
        | none => ∃ old' new', recordBoth (old, new) o = .ok (old', new') ∧ _
      rw [recordBoth_eq]
      cases hfits : o.mismatch? with
      | some fault => rfl
      | none => exact ⟨_, _, rfl, fun id => recorded_step (hrecorded id) hfits⟩

/-- What the two sides of some overrides are. -/
structure AreSides (overrides : List Override) (old new : Readings) : Prop where
  /-- Both sides know the same attributes. -/
  keys_eq : old.keys = new.keys
  /-- They know the attributes for which a value is given. -/
  mem_keys : ∀ id, id ∈ old.keys ↔ ∃ o ∈ overrides, o.GivesValue ∧ o.id = id
  /-- The last override that gives a value for an attribute speaks for it on both sides. -/
  last : ∀ id ∈ old.keys, ∃ o before after, IsLast overrides o ∧ o.id = id ∧
    o.typed? o.observed? = some before ∧ o.typed? o.proposed? = some after ∧
    old.get? id = some ⟨o.name, before, o.simulated⟩ ∧
    new.get? id = some ⟨o.name, after, o.simulated⟩
  /-- What is not simulated stays as it is. -/
  unsimulated : ∀ id reading, old.get? id = some reading ∨ new.get? id = some reading →
    reading.simulated = false → old.get? id = new.get? id

/-- Readings that are recorded for each id are the sides of the overrides. -/
theorem areSides_of_recorded (h : ∀ id, Recorded overrides old new id) :
    AreSides overrides old new := by
  have hkeys : ∀ id, id ∈ old.keys ↔ ∃ o ∈ overrides, o.GivesValue ∧ o.id = id := by
    intro id
    rw [Dictionary.mem_keys_iff]
    cases h id with
    | absent hall hold hnew =>
      rw [hold]
      exact iff_of_false Bool.false_ne_true fun ⟨o, ho, hgives, hid⟩ => hall o ho hgives hid
    | last o hlast hid before after hbefore hafter hold hnew =>
      obtain ⟨earlier, later, rfl, hgives, -⟩ := hlast
      rw [hold]
      exact iff_of_true rfl ⟨o, by simp, hgives, hid⟩
  -- a key is recorded on both sides or on neither, so one side is enough for the claims about keys
  refine ⟨Dictionary.keys_congr fun id => ?_, hkeys, fun id hmem => ?_, ?_⟩
  · cases h id with
    | absent hall hold hnew => rw [hold, hnew]
    | last o hlast hid before after hbefore hafter hold hnew => rw [hold, hnew]; rfl
  · cases h id with
    | absent hall hold hnew =>
      rw [Dictionary.mem_keys_iff, hold] at hmem
      cases hmem
    | last o hlast hid before after hbefore hafter hold hnew =>
      exact ⟨o, before, after, hlast, hid, hbefore, hafter, hold, hnew⟩
  · intro id reading hreading hsimulated
    cases h id with
    | absent hall hold hnew => rw [hold, hnew]
    | last o hlast hid before after hbefore hafter hold hnew =>
      -- readings carry the flag of their override, and without it nothing else is proposed
      have hflag : o.simulated = false := by
        rw [hold, hnew] at hreading
        rcases hreading with heq | heq <;> cases heq <;> exact hsimulated
      rw [Override.proposed?_of_not_simulated hflag, hbefore] at hafter
      cases hafter
      exact hold.trans hnew.symm

/-- **What a list of overrides comes to**, however often it names an attribute.  It is refused for
    the first override with a value that does not fit its kind, of which the one observed is named
    first.  Otherwise both sides know the attributes for which a value is given, the last override
    with a value speaks for each of them, and what is not simulated stays as it is. -/
theorem beforeAndAfter_sides (overrides : List Override) :
    (∀ fault, beforeAndAfter overrides = .error fault ↔
      overrides.findSome? Override.mismatch? = some fault) ∧
    (overrides.findSome? Override.mismatch? = none → ∃ old new,
      beforeAndAfter overrides = .ok (old, new) ∧ AreSides overrides old new) := by
  have hcases := beforeAndAfter_cases overrides
  cases hfault : overrides.findSome? Override.mismatch? with
  | some fault =>
    rw [hfault] at hcases
    rw [hcases]
    exact ⟨fun _ => by simp, nofun⟩
  | none =>
    rw [hfault] at hcases
    obtain ⟨old, new, hsides, hrecorded⟩ := hcases
    rw [hsides]
    exact ⟨fun _ => by simp, fun _ => ⟨old, new, rfl, areSides_of_recorded hrecorded⟩⟩

end Readings

end LicenseForecast
