import LicenseForecast.Proofs.Fleet.Acceptance
import LicenseForecast.Proofs.Visibility

namespace LicenseForecast

/-!
# Which fleet is served

A store is loaded with a fleet and may be reloaded any number of times.  Each reload either takes
the new fleet as a whole or changes nothing (`Store.reloaded_of_acceptable`,
`Store.reloaded_of_refused`).  So at any time the store is the one of the last fleet that was
accepted (`Store.serves_lastAccepted`), whatever else has been tried in between.
-/

/-- Of some fleets, loaded one after the other, this is the last that is acceptable. -/
def Fleet.IsLastAccepted (strict : Bool) (fleets : List Fleet) (last : Fleet) : Prop :=
  ∃ before after, fleets = before ++ last :: after ∧ last.Acceptable strict ∧
    ∀ fleet ∈ after, ¬ fleet.Acceptable strict

namespace Fleet

variable {strict : Bool} {fleets : List Fleet} {last next : Fleet}

/-- A fleet that is acceptable becomes the last accepted one. -/
theorem isLastAccepted_snoc (h : next.Acceptable strict) :
    next.IsLastAccepted strict (fleets ++ [next]) :=
  ⟨fleets, [], rfl, h, nofun⟩

/-- A fleet that is not leaves the last accepted one. -/
theorem IsLastAccepted.snoc (hlast : last.IsLastAccepted strict fleets)
    (h : ¬ next.Acceptable strict) : last.IsLastAccepted strict (fleets ++ [next]) := by
  obtain ⟨before, after, rfl, haccepted, hrefused⟩ := hlast
  refine ⟨before, after ++ [next], by simp, haccepted, fun fleet hfleet => ?_⟩
  rcases List.mem_append.mp hfleet with hfleet | hfleet
  · exact hrefused fleet hfleet
  · cases List.mem_singleton.mp hfleet
    exact h

end Fleet

namespace Store

variable {store : Store} {settings : Settings} {fleet : Fleet}

/-! ### A single load -/

/-- **Exactly the acceptable fleets are served.** -/
theorem exists_ofFleet_iff :
    (∃ store, ofFleet settings fleet = .ok store) ↔ fleet.Acceptable settings.strict := by
  rw [← Fleet.check_eq_ok]
  constructor
  · rintro ⟨store, h⟩
    obtain ⟨rfl, rfl⟩ := eq_of_ofFleet h
    exact store.accepted
  · intro h
    obtain ⟨store, hstore, -⟩ := ofFleet_of_check h
    exact ⟨store, hstore⟩

/-- **What is reported of a fleet that is not served** is what is wrong with it first. -/
theorem ofFleet_eq_error {fault : LoadFault} :
    ofFleet settings fleet = .error fault ↔ fleet.FirstFault settings.strict fault := by
  rw [← Fleet.check_eq_error]
  unfold ofFleet
  split
  next h => simp [h]
  next h => simp [h]

/-! ### One reload after the other -/

/-- An acceptable fleet replaces all that was served. -/
theorem reloaded_of_acceptable (h : fleet.Acceptable store.settings.strict) :
    ofFleet store.settings fleet = .ok (store.reloaded fleet) := by
  obtain ⟨store', hstore'⟩ := exists_ofFleet_iff.mpr h
  have hreloaded : store.reloaded fleet = store' := by
    unfold reloaded reload
    rw [hstore']
    rfl
  rw [hreloaded, hstore']

/-- A fleet that is refused leaves all that is served. -/
theorem reloaded_of_refused (h : ¬ fleet.Acceptable store.settings.strict) :
    store.reloaded fleet = store := by
  rw [← exists_ofFleet_iff] at h
  unfold reloaded reload
  cases hreload : ofFleet store.settings fleet with
  | ok store' => exact absurd ⟨store', hreload⟩ h
  | error fault => rfl

/-- After any number of reloads the store is that of the last fleet that was accepted. -/
private theorem exists_lastAccepted {first : Fleet} (h : ofFleet settings first = .ok store)
    (fleets : List Fleet) :
    ∃ last, last.IsLastAccepted settings.strict (first :: fleets) ∧
      ofFleet settings last = .ok (fleets.foldl reloaded store) := by
  induction fleets using List.reverseRecOn with
  | nil =>
    have hfirst : first.Acceptable settings.strict := exists_ofFleet_iff.mp ⟨store, h⟩
    exact ⟨first, ⟨[], [], rfl, hfirst, nofun⟩, h⟩
  | append_singleton fleets next ih =>
    obtain ⟨last, hlast, hserved⟩ := ih
    obtain ⟨hsettings, -⟩ := eq_of_ofFleet hserved
    rw [List.foldl_append, List.foldl_cons, List.foldl_nil, ← List.cons_append]
    by_cases hnext : next.Acceptable settings.strict
    · rw [← hsettings] at hnext ⊢
      exact ⟨next, Fleet.isLastAccepted_snoc hnext, reloaded_of_acceptable hnext⟩
    · refine ⟨last, hlast.snoc hnext, ?_⟩
      rwa [reloaded_of_refused (hsettings ▸ hnext)]

/-- **A store serves the last fleet that was accepted**, wholly: after any run of reloads it is the
    very store that one gets by loading that fleet afresh, so it answers everything alike.  A load
    or reload succeeds exactly for the acceptable fleets.  Otherwise it reports what is wrong first,
    and a reload leaves the store as it is. -/
theorem serves_lastAccepted (settings : Settings) (first : Fleet) :
    ((∃ store, ofFleet settings first = .ok store) ↔ first.Acceptable settings.strict) ∧
    (∀ fault, ofFleet settings first = .error fault ↔ first.FirstFault settings.strict fault) ∧
    ∀ store, ofFleet settings first = .ok store → ∀ fleets : List Fleet,
      let served := fleets.foldl reloaded store
      (∃ last, last.IsLastAccepted settings.strict (first :: fleets) ∧
        ofFleet settings last = .ok served) ∧
      ∀ next : Fleet,
        ((∃ store', served.reload next = .ok store') ↔ next.Acceptable settings.strict) ∧
        (∀ fault, served.reload next = .error fault ↔ next.FirstFault settings.strict fault) ∧
        ∀ fault, served.reload next = .error fault → served.reloaded next = served := by
  refine ⟨exists_ofFleet_iff, fun fault => ofFleet_eq_error, fun store h fleets => ?_⟩
  obtain ⟨last, hlast, hserved⟩ := exists_lastAccepted h fleets
  obtain ⟨hsettings, -⟩ := eq_of_ofFleet hserved
  refine ⟨⟨last, hlast, hserved⟩, fun next => ?_⟩
  unfold reload
  rw [hsettings]
  refine ⟨exists_ofFleet_iff, fun fault => ofFleet_eq_error, fun fault hfault => ?_⟩
  refine reloaded_of_refused fun hnext => ?_
  rw [hsettings] at hnext
  obtain ⟨store', hstore'⟩ := exists_ofFleet_iff.mpr hnext
  cases hfault.symm.trans hstore'

end Store

/-! ### A fleet that is refused -/

namespace TwoClusters

/-- A fleet with other values, and two scopes that cannot be served behind one that can. -/
def astray : Fleet where
  scopes := ((fleet 4.0).scopes.insert "yard" { assets := [server 4.0] }).insert "zone"
    { scope 4.0 with assets := [server 4.0, server 4.0] }

/-- Of three fleets the last one is refused, for the first of its bad scopes, and the second one
    stays. -/
theorem serves_shadowed :
    let served := [shadowed, astray].foldl Store.reloaded store
    Store.ofFleet { strict := false } shadowed = .ok served ∧
      served.reload astray = .error (.unknownType "yard" "s" "server") ∧
      served.reloaded astray = served := by
  intro served
  have haccepted : shadowed.Acceptable false := Fleet.check_eq_ok.mp shadowedStore.accepted
  have hcheck : astray.check false = .error (.unknownType "yard" "s" "server") := by decide +kernel
  have hrefused : ¬ astray.Acceptable false := by
    rw [← Fleet.check_eq_ok, hcheck]
    nofun
  obtain ⟨-, -, hserves⟩ := Store.serves_lastAccepted { strict := false } (fleet 2.0)
  obtain ⟨⟨last, ⟨before, after, hsplit, hlast, hafter⟩, hserved⟩, hnext⟩ :=
    hserves store (Store.ofFleet_self store) [shadowed, astray]
  have hfault := (hnext astray).2.1 _ |>.mpr (Fleet.check_eq_error.mp hcheck)
  refine ⟨?_, hfault, (hnext astray).2.2 _ hfault⟩
  -- of the ways to split two reloads at the last accepted one, only that at the first is left
  rcases before with _ | ⟨_, _ | ⟨_, _ | ⟨_, before⟩⟩⟩ <;>
    simp only [List.nil_append, List.cons_append, List.cons.injEq] at hsplit
  · obtain ⟨rfl, rfl⟩ := hsplit
    exact absurd haccepted (hafter _ List.mem_cons_self)
  · obtain ⟨-, rfl, -⟩ := hsplit
    exact hserved
  · obtain ⟨-, -, rfl, -⟩ := hsplit
    exact absurd hlast hrefused
  · obtain ⟨-, -, -, hsplit⟩ := hsplit
    simp at hsplit

end TwoClusters

end LicenseForecast
