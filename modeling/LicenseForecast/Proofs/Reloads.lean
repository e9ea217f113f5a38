import LicenseForecast.Proofs.Forecast.Itinerary
import LicenseForecast.Proofs.Visibility

namespace LicenseForecast

/-!
# Reloads in the middle of a request

Every question is answered by the store that is served at the time (`Store.served`), and nothing
keeps the store of the first question for those that follow.  A forecast is that of one store if
this store answers all that is asked as the stores in its place do
(`Store.forecast_betweenReloads`).  This is so if no reload falls between the first question and the
last.  Otherwise the answers of several stores are combined, with figures that none of them would
give (`TwoClusters.forecast_torn`).
-/

namespace Store

variable {store : Store} {schedule : Nat → List Fleet} {scopes : List String}

/-- The store that is served at the time of a question; `schedule k` are the fleets that are loaded
    after the questions before the `k`-th. -/
def served (store : Store) (schedule : Nat → List Fleet) : Nat → Store
  | 0 => (schedule 0).foldl reloaded store
  | k + 1 => (schedule (k + 1)).foldl reloaded (store.served schedule k)

/-- A world in which the fleets of a schedule are loaded while a request goes on. -/
def worldDuring (store : Store) (schedule : Nat → List Fleet) (scopes : List String)
    (interruption : Nat → Option Interruption) : Inquiry.World :=
  ⟨fun k => (store.served schedule k).inventory scopes, interruption⟩

/-- Between reloads the same store is served. -/
theorem served_of_quiet {j k : Nat} (hle : j ≤ k) (hquiet : ∀ i, j < i → i ≤ k → schedule i = []) :
    store.served schedule k = store.served schedule j := by
  induction k, hle using Nat.le_induction with
  | base => rfl
  | succ k hle ih =>
    rw [served, hquiet (k + 1) (Nat.lt_succ_of_le hle) le_rfl]
    exact ih fun i hi hik => hquiet i hi (Nat.le_succ_of_le hik)

end Store

/-! ### The total and the pool -/

/-- The pool of a chain is asked about right after the total. -/
theorem Chain.total_of_pool {chain : Chain} {answers : Inventory} {rule rule' : PooledRule}
    {old new : Readings} {k : Nat} {id typeName : String}
    (h : (chain.questions answers rule old new)[k]? = some (.pooledLicenses id typeName rule')) :
    ∃ j, k = j + 1 ∧ (chain.questions answers rule old new)[j]?
      = some (.computedLicenses chain.top.id rule.top.name rule') := by
  unfold questions at h ⊢
  cases hproducts : answers
      (.products chain.top.id rule.top.name (min maxDepth (rule.depth + 1)) (.pooled rule)) with
  | error fault =>
    simp only [hproducts] at h
    cases k <;> cases h
  | ok products =>
    simp only [hproducts] at h ⊢
    match k with
    | 0 => cases h
    | 1 => cases h
    | 2 =>
      cases h
      exact ⟨1, rfl, rfl⟩
    | k + 3 =>
      -- the questions that come later are about users
      simp only [List.getElem?_cons_succ] at h
      have hlater := List.mem_of_getElem? h
      split at hlater
      · obtain ⟨product, -, hproduct⟩ := List.mem_flatMap.mp hlater
        simp [Product.userQueries] at hproduct
      · cases hlater

/-- **The pool is asked about right after the total** that it is taken out of. -/
theorem Request.total_of_pool {request : Request} {answers : Inventory} {k : Nat}
    {id typeName : String} {rule : PooledRule}
    (h : (request.itinerary answers)[k]? = some (.pooledLicenses id typeName rule)) :
    ∃ j topId topType, k = j + 1 ∧
      (request.itinerary answers)[j]? = some (.computedLicenses topId topType rule) := by
  unfold itinerary at h ⊢
  split at h
  next family old new _ _ =>
    -- neither types nor metrics are figures
    match k with
    | 0 => cases h
    | 1 => cases h
    | k + 2 =>
      simp only [List.getElem?_cons_succ] at h
      split at h
      · cases h
      next forest found _ =>
        cases found with
        | direct found => cases k <;> cases h
        | pooled found =>
          cases k with
          | zero => cases h
          | succ k =>
            unfold questionsUnder at h ⊢
            simp only [List.getElem?_cons_succ] at h
            split at h
            · cases h
            next chain hchain =>
              simp only [hchain]
              obtain ⟨j, rfl, hj⟩ := chain.total_of_pool h
              exact ⟨j + 3, _, _, rfl, hj⟩
  · cases h

/-! ### Forecasts during reloads -/

namespace Store

/-- **A forecast during reloads is that of one store** if this store, whenever it is served, answers
    all that is asked as the stores that are served in its place do.  So it is if no reload falls
    between the first question and the last.  The pool is asked about right after the total, and
    both come from one store unless a reload falls just between the two. -/
theorem forecast_betweenReloads (store : Store) (schedule : Nat → List Fleet) (scopes : List String)
    (interruption : Nat → Option Interruption) (request : Request) :
    let run := request.forecast.run (store.worldDuring schedule scopes interruption) 0
    (∀ j, (∀ k query, run.1[k]? = some query →
        (store.served schedule j).inventory scopes query
          = (store.served schedule k).inventory scopes query) →
      run = request.forecast.run
        ⟨fun _ => (store.served schedule j).inventory scopes, interruption⟩ 0) ∧
    ((∀ k, 0 < k → k < run.1.length → schedule k = []) →
      run = request.forecast.run
        ⟨fun _ => (store.served schedule 0).inventory scopes, interruption⟩ 0) ∧
    ∀ k id typeName rule, run.1[k]? = some (.pooledLicenses id typeName rule) →
      ∃ j topId topType, k = j + 1 ∧ run.1[j]? = some (.computedLicenses topId topType rule) ∧
        (schedule k = [] → store.served schedule k = store.served schedule j) := by
  intro run
  have hone : ∀ j, (∀ k query, run.1[k]? = some query →
      (store.served schedule j).inventory scopes query
        = (store.served schedule k).inventory scopes query) →
      run = request.forecast.run
        ⟨fun _ => (store.served schedule j).inventory scopes, interruption⟩ 0 := by
    intro j h
    let still : Inquiry.World := ⟨fun _ => (store.served schedule j).inventory scopes, interruption⟩
    have hinterruption :
        still.interruption = (store.worldDuring schedule scopes interruption).interruption := rfl
    refine (Inquiry.run_congr hinterruption fun k query hquery => ?_).symm
    rw [Nat.zero_add]
    exact h k query hquery
  refine ⟨hone, fun hquiet => ?_, fun k id typeName rule hpool => ?_⟩
  · refine hone 0 fun k query hquery => ?_
    have hk : k < run.1.length := (List.getElem?_eq_some_iff.mp hquery).1
    rw [served_of_quiet (Nat.zero_le k) fun i hi hik => hquiet i hi (Nat.lt_of_le_of_lt hik hk)]
  · have hplan : run.1 <+: request.itinerary _ := (request.forecast_course _).inOrder
    have hasked : ∀ {k : Nat} {query : Query}, run.1[k]? = some query →
        (request.itinerary (store.worldDuring schedule scopes interruption).answers)[k]?
          = some query := by
      intro k query hquery
      obtain ⟨hk, rfl⟩ := List.getElem?_eq_some_iff.mp hquery
      exact List.prefix_iff_getElem?.mp hplan k hk
    obtain ⟨j, topId, topType, rfl, htotal⟩ := Request.total_of_pool (hasked hpool)
    have hj : j < run.1.length :=
      Nat.lt_of_succ_lt (List.getElem?_eq_some_iff.mp hpool).1
    refine ⟨j, topId, topType, rfl, ?_, fun hquiet => ?_⟩
    · rw [List.getElem?_eq_getElem hj, ← List.prefix_iff_getElem?.mp hplan j hj]
      exact htotal
    · refine served_of_quiet (Nat.le_succ j) fun i hi hij => ?_
      rw [Nat.le_antisymm hij hi, hquiet]

end Store

/-! ### A torn forecast -/

namespace TwoClusters

/-- The store of a fleet with 1.1 cores in the first server. -/
def smallStore : Store := ⟨{ strict := false }, fleet 1.1, by decide +kernel⟩

/-- The fleet without its product. -/
def uninstalled : Fleet :=
  ⟨⟨[("main", { scope 2.0 with products := [] })], List.pairwise_singleton ..⟩⟩

def uninstalledStore : Store := ⟨{ strict := false }, uninstalled, by decide +kernel⟩

/-- The cores are changed before the first question, and the product is removed after the last. -/
def aroundForecast : Nat → List Fleet
  | 0 => [fleet 2.0]
  | 6 => [uninstalled]
  | _ => []

/-- The forecast is that from the store which is served in the meantime. -/
theorem forecast_aroundForecast :
    smallStore.reload (fleet 2.0) = .ok store ∧ store.reload uninstalled = .ok uninstalledStore ∧
    (toOneCore 2.0).forecast.result (smallStore.inventory ["main"]) none
      = .ok ⟨[.of "processors" ⟨"database", "db"⟩ 6 4]⟩ ∧
    (toOneCore 2.0).forecast.result (uninstalledStore.inventory ["main"]) none = .ok ⟨[]⟩ ∧
    ((toOneCore 2.0).forecast.run
        (smallStore.worldDuring aroundForecast ["main"] fun _ => none) 0).2
      = .ok ⟨[.of "processors" ⟨"database", "db"⟩ 12 5]⟩ := by
  obtain ⟨-, hquiet, -⟩ := Store.forecast_betweenReloads smallStore aroundForecast ["main"]
    (fun _ => none) (toOneCore 2.0)
  have hlength : ((toOneCore 2.0).forecast.run
      (smallStore.worldDuring aroundForecast ["main"] fun _ => none) 0).1.length = 6 := by
    decide +kernel
  have hrun := hquiet fun k hpos hk => ?quiet
  · refine ⟨Store.ofFleet_self store, Store.ofFleet_self uninstalledStore, by decide +kernel,
      by decide +kernel, (congrArg Prod.snd hrun).trans ?_⟩
    decide +kernel
  case quiet =>
    rw [hlength] at hk
    match k with
    | 1 | 2 | 3 | 4 | 5 => rfl

/-- The fleet with the first cluster under another id. -/
def renamed : Fleet :=
  let assets := [asset "d" "datacenter" none, asset "f" "cluster" (some "d"),
    asset "e" "cluster" (some "d"), (asset "s" "server" (some "f")).withValue "c" (.float 2.0),
    (asset "t" "server" (some "e")).withValue "c" (.float 1.5)]
  ⟨⟨[("main", { scope 2.0 with assets })], List.pairwise_singleton ..⟩⟩

def renamedStore : Store := ⟨{ strict := false }, renamed, by decide +kernel⟩

/-- One fleet is loaded between the total and the pool. -/
def loadedAfterTotal (fleet : Fleet) (k : Nat) : List Fleet := if k = 5 then [fleet] else []

/-- The forecast from the first store while another fleet is loaded between the total and the
    pool. -/
def tornForecast (fleet : Fleet) : Except Failure Forecast :=
  ((toOneCore 2.0).forecast.run
    (store.worldDuring (loadedAfterTotal fleet) ["main"] fun _ => none) 0).2

/-- Up to the total the first store is served, and afterwards the other. -/
private theorem served_loadedAfterTotal {store' : Store} {fleet : Fleet}
    (hreload : store.reload fleet = .ok store') (k : Nat) :
    store.served (loadedAfterTotal fleet) k = if k ≤ 4 then store else store' := by
  have hreloaded : store.reloaded fleet = store' := by
    rw [Store.reloaded, hreload]
    rfl
  induction k with
  | zero => rfl
  | succ k ih =>
    rw [Store.served, ih]
    by_cases hplace : k = 4
    · subst hplace
      exact hreloaded
    · have hquiet : loadedAfterTotal fleet (k + 1) = [] := by simp [loadedAfterTotal, hplace]
      have hside : k ≤ 4 ↔ k + 1 ≤ 4 := by omega
      simp only [hquiet, List.foldl_nil, hside]

/-- **A reload between the total and the pool tears a forecast.**  One that changes the cores of the
    first server combines the total of the old store with the pool of the new one, which neither of
    them does.  One that renames the first cluster lets the forecast fail, though it is the same
    from either store. -/
theorem forecast_torn :
    store.reload (fleet 1.1) = .ok smallStore ∧
    tornForecast (fleet 1.1) = .ok ⟨[.of "processors" ⟨"database", "db"⟩ 12 10]⟩ ∧
    (∀ k, tornForecast (fleet 1.1) ≠ (toOneCore 2.0).forecast.result
      ((store.served (loadedAfterTotal (fleet 1.1)) k).inventory ["main"]) none) ∧
    store.reload renamed = .ok renamedStore ∧
    tornForecast renamed = .error (.lookup .pooledLicenses .notFound) ∧
    ∀ k, (toOneCore 2.0).forecast.result
      ((store.served (loadedAfterTotal renamed) k).inventory ["main"]) none
        = .ok ⟨[.of "processors" ⟨"database", "db"⟩ 12 5]⟩ := by
  have hsmall : store.reload (fleet 1.1) = .ok smallStore := Store.ofFleet_self smallStore
  have hrenamed : store.reload renamed = .ok renamedStore := Store.ofFleet_self renamedStore
  have hmixed : tornForecast (fleet 1.1)
      = .ok ⟨[.of "processors" ⟨"database", "db"⟩ 12 10]⟩ := by
    decide +kernel
  refine ⟨hsmall, hmixed, fun k => ?_, hrenamed, by decide +kernel, fun k => ?_⟩
  · rw [hmixed, served_loadedAfterTotal hsmall]
    split <;> decide +kernel
  · rw [served_loadedAfterTotal hrenamed]
    split <;> decide +kernel

end TwoClusters

end LicenseForecast
