import LicenseForecast.Proofs.Fleet.Overwrite

namespace LicenseForecast

/-!
# Serving a fleet with other values

A store accepts a fleet whose scopes pass the checks, and those do not look at values.  So the
fleet with the values of one asset replaced is served wherever the fleet was
(`Store.reload_overwrite`).
-/

/-- The fleet with the values of one asset of a scope replaced by those of readings. -/
def Fleet.overwrite (fleet : Fleet) (name id : String) (readings : Readings) : Fleet :=
  match fleet.scopes.get? name with
  | none => fleet
  | some s => ⟨fleet.scopes.insert name (s.overwrite id readings)⟩

namespace Store

variable {store : Store} {scopes : List String} {name : String} {s : Scope}

/-- An overwritten fleet has another scope of this name and all others as they were. -/
theorem get?_overwrite (hscope : store.fleet.scopes.get? name = some s) (id : String)
    (readings : Readings) (name' : String) :
    (store.fleet.overwrite name id readings).scopes.get? name'
      = if name' = name then some (s.overwrite id readings) else store.fleet.scopes.get? name' := by
  unfold Fleet.overwrite
  rw [hscope]
  by_cases hname : name' = name
  · rw [if_pos hname, hname]
    exact Dictionary.get?_insert_self ..
  · rw [if_neg hname]
    exact Dictionary.get?_insert_of_ne hname

/-- The only value found under some names is replaced. -/
private theorem filterMap_replace {α : Type} {names : List String} {get get' : String → Option α}
    {a a' : α} (hget' : ∀ n, get' n = if n = name then some a' else get n)
    (h : names.filterMap get = [a]) (hmem : name ∈ names) (hget : get name = some a) :
    names.filterMap get' = [a'] := by
  induction names with
  | nil => cases hmem
  | cons n rest ih =>
    cases hn : get n with
    | none =>
      have hne : n ≠ name := by
        rintro rfl
        cases hn.symm.trans hget
      have hn' : get' n = none := by rw [hget', if_neg hne, hn]
      rw [List.filterMap_cons_none hn] at h
      rw [List.filterMap_cons_none hn']
      exact ih h ((List.mem_cons.mp hmem).resolve_left hne.symm)
    | some value =>
      rw [List.filterMap_cons_some hn, List.cons.injEq, List.filterMap_eq_nil_iff] at h
      -- this is the only value, so no name in the rest has one
      have hrest : name ∉ rest := fun hmem => by cases (h.2 name hmem).symm.trans hget
      cases (List.mem_cons.mp hmem).resolve_right hrest
      have hn' : get' name = some a' := by rw [hget', if_pos rfl]
      rw [List.filterMap_cons_some hn', List.cons.injEq, List.filterMap_eq_nil_iff]
      refine ⟨rfl, fun other hother => ?_⟩
      have hne : other ≠ name := by
        rintro rfl
        exact hrest hother
      rw [hget', if_neg hne, h.2 other hother]

/-- **A fleet with other values in it is served**, and shows the scope with the other values. -/
theorem reload_overwrite (hvisible : store.visible scopes = [s])
    (hname : name ∈ store.visibleNames scopes) (hscope : store.fleet.scopes.get? name = some s)
    (id : String) (readings : Readings) :
    ∃ store', store.reload (store.fleet.overwrite name id readings) = .ok store' ∧
      store'.visible scopes = [s.overwrite id readings] := by
  -- the check reads ids, types and parents only, which the overwrite leaves alone
  have hcheck : (store.fleet.overwrite name id readings).check store.settings.strict = .ok () := by
    refine forM_eq_ok.mpr fun entry hentry => ?_
    have hget := Dictionary.get?_eq_some_iff.mpr hentry
    rw [get?_overwrite hscope] at hget
    by_cases hkey : entry.1 = name
    · rw [if_pos hkey, Option.some.injEq] at hget
      rw [← hget, hkey, Scope.overwrite,
        Scope.check_mapAssets (Asset.toEquipment_overwrite id readings)]
      exact check_of_mem_entries (Dictionary.get?_eq_some_iff.mp hscope)
    · rw [if_neg hkey] at hget
      exact check_of_mem_entries (Dictionary.get?_eq_some_iff.mp hget)
  obtain ⟨store', hstore', hsettings, hfleet⟩ := ofFleet_of_check hcheck
  refine ⟨store', hstore', ?_⟩
  unfold visible visibleNames at hvisible ⊢
  rw [hsettings, hfleet]
  exact filterMap_replace (get?_overwrite hscope id readings) hvisible hname hscope

end Store

end LicenseForecast
