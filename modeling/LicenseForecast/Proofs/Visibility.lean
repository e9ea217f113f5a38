import LicenseForecast.Proofs.Forecast.Prediction

namespace LicenseForecast

/-!
# Scopes that are not visible

A store answers from the scopes that a context may see and from nothing else
(`Store.inventory_congr`).  So the data of other scopes has no influence on a forecast
(`Store.forecast_isolated`).  Whether a fleet is accepted does depend on all of its scopes; but
whatever becomes of reloads that leave the visible scopes as they are, the answers stay the same
(`Store.inventory_reloadAll`), even in the middle of a request (`Store.forecast_reloads`).
-/

/-- Two fleets agree on some names: under each of them both have the same data, or none. -/
def Fleet.AgreeOn (names : List String) (fleet fleet' : Fleet) : Prop :=
  ∀ name ∈ names, fleet.scopes.get? name = fleet'.scopes.get? name

theorem Fleet.AgreeOn.refl (names : List String) (fleet : Fleet) : fleet.AgreeOn names fleet :=
  fun _ _ => rfl

/-- What some scopes of a fleet list, name by name. -/
theorem Fleet.flatMap_visible {α : Type} (fleet : Fleet) (names : List String)
    (list : Scope → List α) : (names.filterMap fleet.scopes.get?).flatMap list
      = names.flatMap fun name => (fleet.scopes.get? name).elim [] list := by
  induction names with
  | nil => rfl
  | cons name rest ih =>
    rw [List.flatMap_cons, ← ih]
    cases hget : fleet.scopes.get? name <;> simp [hget]

namespace Store

variable {store store' : Store} {settings : Settings} {fleet fleet' : Fleet} {scopes : List String}

/-! ### What a store shows -/

/-- Stores that agree on the visible names show the same scopes. -/
theorem visible_congr (hsettings : store'.settings = store.settings)
    (hagree : store'.fleet.AgreeOn (store.visibleNames scopes) store.fleet) :
    store'.visible scopes = store.visible scopes := by
  have hnames : store'.visibleNames scopes = store.visibleNames scopes := by
    unfold visibleNames
    rw [hsettings]
  unfold visible
  rw [hnames]
  exact List.filterMap_congr hagree

/-- **A store answers from the visible scopes alone.** -/
theorem inventory_congr (hsettings : store'.settings = store.settings)
    (hagree : store'.fleet.AgreeOn (store.visibleNames scopes) store.fleet) :
    store'.inventory scopes = store.inventory scopes := by
  unfold inventory
  rw [visible_congr hsettings hagree]

/-- **Data of a scope that is not visible never has an influence** on a forecast: stores of two
    fleets that agree on the visible names are asked the same questions in the same order, answer
    each of them alike, and yield the same result, be it rows or a failure. -/
theorem forecast_isolated {context : Context} (hstore : ofFleet settings fleet = .ok store)
    (hstore' : ofFleet settings fleet' = .ok store')
    (hagree : fleet'.AgreeOn (store.visibleNames context.scopes) fleet) :
    (∀ query, store'.inventory context.scopes query = store.inventory context.scopes query) ∧
      ∀ (request : Request) (interruption : Nat → Option Interruption),
        request.forecast.run ⟨fun _ => store'.inventory context.scopes, interruption⟩ 0
          = request.forecast.run ⟨fun _ => store.inventory context.scopes, interruption⟩ 0 := by
  obtain ⟨hsettings, rfl⟩ := eq_of_ofFleet hstore
  obtain ⟨hsettings', rfl⟩ := eq_of_ofFleet hstore'
  have hsame : store'.inventory context.scopes = store.inventory context.scopes :=
    inventory_congr (hsettings'.trans hsettings.symm) hagree
  rw [hsame]
  exact ⟨fun _ => rfl, fun _ _ => rfl⟩

/-! ### Reloads -/

/-- The store after a reload: with the new fleet or, if that is refused, with the one it had. -/
def reloaded (store : Store) (fleet : Fleet) : Store := (store.reload fleet).toOption.getD store

/-- No reload changes the settings. -/
theorem settings_reloaded (store : Store) (fleet : Fleet) :
    (store.reloaded fleet).settings = store.settings := by
  unfold reloaded
  cases hreload : store.reload fleet with
  | ok store' => exact (eq_of_ofFleet hreload).1
  | error fault => rfl

/-- What both the old and the new fleet agree with, the reloaded store does. -/
theorem agreeOn_reloaded {names : List String} (h : store.fleet.AgreeOn names fleet)
    (h' : fleet'.AgreeOn names fleet) : (store.reloaded fleet').fleet.AgreeOn names fleet := by
  unfold reloaded
  cases hreload : store.reload fleet' with
  | ok store' =>
    obtain ⟨-, hfleet⟩ := eq_of_ofFleet hreload
    show store'.fleet.AgreeOn names fleet
    rw [hfleet]
    exact h'
  | error fault => exact h

/-- **Any number of reloads that leave the visible scopes as they are** leave all answers as they
    are, whether they are accepted or not. -/
theorem inventory_reloadAll {fleets : List Fleet}
    (h : ∀ fleet ∈ fleets, fleet.AgreeOn (store.visibleNames scopes) store.fleet) :
    (fleets.foldl reloaded store).inventory scopes = store.inventory scopes := by
  -- the settings and the agreement are kept from one reload to the next
  have hkept : ∀ {fleets : List Fleet} {current : Store}, current.settings = store.settings →
      current.fleet.AgreeOn (store.visibleNames scopes) store.fleet →
      (∀ fleet ∈ fleets, fleet.AgreeOn (store.visibleNames scopes) store.fleet) →
      (fleets.foldl reloaded current).settings = store.settings ∧
        (fleets.foldl reloaded current).fleet.AgreeOn (store.visibleNames scopes) store.fleet := by
    intro fleets current hsettings hcurrent hall
    induction fleets generalizing current with
    | nil => exact ⟨hsettings, hcurrent⟩
    | cons fleet rest ih =>
      have hfleet := hall fleet List.mem_cons_self
      refine ih ((settings_reloaded current fleet).trans hsettings)
        (agreeOn_reloaded hcurrent hfleet) fun fleet' hfleet' => ?_
      exact hall fleet' (List.mem_cons_of_mem _ hfleet')
  obtain ⟨hsettings, hagree⟩ := hkept rfl (Fleet.AgreeOn.refl _ _) h
  exact inventory_congr hsettings hagree

/-- **Reloads while a request goes on** do not change its course if they leave the visible scopes
    as they are; `history k` are the fleets that were to be served before the `k`-th question. -/
theorem forecast_reloads {history : Nat → List Fleet}
    (h : ∀ k, ∀ fleet ∈ history k, fleet.AgreeOn (store.visibleNames scopes) store.fleet)
    (request : Request) (interruption : Nat → Option Interruption) :
    request.forecast.run
        ⟨fun k => ((history k).foldl reloaded store).inventory scopes, interruption⟩ 0
      = request.forecast.run ⟨fun _ => store.inventory scopes, interruption⟩ 0 := by
  have hsame : (fun k => ((history k).foldl reloaded store).inventory scopes)
      = fun _ => store.inventory scopes := funext fun k => inventory_reloadAll (h k)
  rw [hsame]

end Store

/-! ### A shadow -/

namespace TwoClusters

/-- The fleet with a second scope that holds the same equipment with other values. -/
def shadowed : Fleet := ⟨(fleet 2.0).scopes.insert "shadow" (scope 4.0)⟩

def shadowedStore : Store := ⟨{ strict := false }, shadowed, by decide +kernel⟩

/-- Who may see the first scope, and names one that does not exist. -/
def context : Context := { scopes := ["main", "elsewhere"] }

/-- The forecast from the first scope, and another one from the second for those who may see it. -/
theorem forecast_shadowed :
    (toOneCore 2.0).forecast.result (shadowedStore.inventory context.scopes) none
      = .ok ⟨[.of "processors" ⟨"database", "db"⟩ 12 5]⟩ ∧
    (toOneCore 4.0).forecast.result (shadowedStore.inventory ["shadow"]) none
      = .ok ⟨[.of "processors" ⟨"database", "db"⟩ 68 5]⟩ := by
  constructor
  · have hresult : (toOneCore 2.0).forecast.result (store.inventory context.scopes) none
        = .ok ⟨[.of "processors" ⟨"database", "db"⟩ 12 5]⟩ := by
      decide +kernel
    have hagree : shadowed.AgreeOn (store.visibleNames context.scopes) (fleet 2.0) := by
      intro name hname
      refine Dictionary.get?_insert_of_ne ?_
      rintro rfl
      exact absurd hname (by decide)
    obtain ⟨-, hrun⟩ := Store.forecast_isolated (Store.ofFleet_self store)
      (Store.ofFleet_self shadowedStore) hagree
    exact (congrArg Prod.snd (hrun (toOneCore 2.0) fun _ => none)).trans hresult
  · decide +kernel

end TwoClusters

end LicenseForecast
