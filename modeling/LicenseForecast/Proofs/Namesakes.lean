import LicenseForecast.Proofs.Forecast.Itinerary
import LicenseForecast.Proofs.Visibility

namespace LicenseForecast

/-!
# Equipment of the same id and type in several scopes

Ids tell equipment apart within a scope only.  Each question about a piece of equipment goes to the
first visible scope that holds its id and type (`Scope.holder?`), and a forecast asks about three of
them: the equipment simulated, the root of its pool and the top of its chain
(`Query.anchor_of_approach`, `Query.anchor_of_questionsOn`).  Where each of them is found in the
same scope, the equipment and the products of other scopes have no influence on a forecast
(`Store.forecast_ofHolders`).  A namesake of the top in a scope that comes first does have one,
though the equipment simulated is in one scope only (`TwoClusters.forecast_namesake`).
-/

/-! ### What questions are about -/

/-- The id and type of the equipment that a question is about, if it is about any. -/
def Query.anchor? : Query → Option (String × String)
  | .equipmentTypes | .metrics _ => none
  | .hierarchy id typeName _ => some (id, typeName)
  | .products id typeName .. => some (id, typeName)
  | .computedLicenses id typeName _ => some (id, typeName)
  | .pooledLicenses id typeName _ => some (id, typeName)
  | .users id typeName .. => some (id, typeName)

/-- The first scope that holds some equipment. -/
def Scope.holder? (scopes : List Scope) (id typeName : String) : Option Scope :=
  scopes.find? (·.holds id typeName)

/-- **A question is answered by the holder of the equipment** that it is about, or from the types
    and metrics of all scopes. -/
theorem Scope.inventory_of_holder {scopes scopes' : List Scope} {query : Query}
    (htypes : scopes'.flatMap (·.types) = scopes.flatMap (·.types))
    (hmetrics : scopes'.flatMap (·.metrics) = scopes.flatMap (·.metrics))
    (hholder : ∀ id typeName, query.anchor? = some (id, typeName) →
      holder? scopes' id typeName = holder? scopes id typeName) :
    Scope.inventory scopes' query = Scope.inventory scopes query := by
  cases query with
  | equipmentTypes => simp only [inventory, allTypes, htypes]
  | metrics family => simp only [inventory, allMetrics, hmetrics]
  | hierarchy id typeName | products id typeName | computedLicenses id typeName
  | pooledLicenses id typeName | users id typeName =>
    have hfind : scopes'.find? (·.holds id typeName) = scopes.find? (·.holds id typeName) :=
      hholder id typeName rfl
    simp only [inventory, anchored, hfind]

/-! ### What a forecast asks about -/

namespace Basis

/-- The equipment of a chain that a forecast asks about. -/
def ends : Basis → List Equipment
  | .direct .. => []
  | .pooled _ chain .. => [chain.aggregate, chain.top]

end Basis

namespace Query

variable {request : Request} {inventory : Inventory} {query : Query} {id typeName : String}

/-- Before the products a forecast asks about the equipment simulated. -/
theorem anchor_of_approach (h : query ∈ request.approach inventory)
    (hanchor : query.anchor? = some (id, typeName)) :
    id = request.equipmentId ∧ typeName = request.typeName := by
  by_cases hok : ∃ family sides, Family.ofRequest request.familyText = .ok family ∧
      Readings.beforeAndAfter request.overrides = .ok sides
  · obtain ⟨family, ⟨old, new⟩, hfamily, hsides⟩ := hok
    rw [Request.approach_of_sides hfamily hsides] at h
    -- types and metrics are asked of all scopes, so they have no anchor
    rcases List.mem_cons.mp h with rfl | h
    · cases hanchor
    rcases List.mem_cons.mp h with rfl | h
    · cases hanchor
    split at h
    · cases List.mem_singleton.mp h
      cases hanchor
      exact ⟨rfl, rfl⟩
    · cases h
  · rw [Request.approach_of_rejected fun family sides h => hok ⟨family, sides, h⟩] at h
    cases h

/-- From the products on it asks about that equipment or about the ends of the chain. -/
theorem anchor_of_questionsOn {basis : Basis}
    (hbasis : request.basis.result inventory none = .ok basis)
    (h : query ∈ request.questionsOn inventory basis)
    (hanchor : query.anchor? = some (id, typeName)) :
    id = request.equipmentId ∧ typeName = request.typeName ∨
      ∃ e ∈ basis.ends, id = e.id ∧ typeName = e.typeName := by
  cases basis with
  | direct rule =>
    cases List.mem_singleton.mp h
    cases hanchor
    exact .inl ⟨rfl, rfl⟩
  | pooled rule chain =>
    obtain ⟨-, htop, haggregate, -⟩ := Request.chain_of_basis hbasis
    right
    -- every question behind the hierarchy is about the top or the pool
    suffices query.anchor? = some (chain.top.id, chain.top.typeName) ∨
        query.anchor? = some (chain.aggregate.id, chain.aggregate.typeName) by
      rcases this with h | h <;> cases hanchor.symm.trans h
      · exact ⟨chain.top, List.mem_cons_of_mem _ List.mem_cons_self, rfl, rfl⟩
      · exact ⟨chain.aggregate, List.mem_cons_self, rfl, rfl⟩
    rw [htop, haggregate]
    unfold Request.questionsOn Chain.questions at h
    rcases List.mem_cons.mp h with rfl | h
    · exact .inl rfl
    split at h
    · cases h
    rcases List.mem_cons.mp h with rfl | h
    · exact .inl rfl
    rcases List.mem_cons.mp h with rfl | h
    · exact .inr rfl
    split at h
    · obtain ⟨product, -, hproduct⟩ := List.mem_flatMap.mp h
      rcases List.mem_cons.mp hproduct with rfl | hproduct
      · exact .inl rfl
      · cases List.mem_singleton.mp hproduct
        exact .inl rfl
    · cases h

/-- **A forecast asks about three pieces of equipment**: the one simulated and the ends of its
    chain. -/
theorem anchor_of_run {request : Request} {world : Inquiry.World}
    (h : query ∈ (request.forecast.run world 0).1)
    (hanchor : query.anchor? = some (id, typeName)) :
    id = request.equipmentId ∧ typeName = request.typeName ∨
      ∃ basis, request.basis.result world.answers none = .ok basis ∧
        ∃ e ∈ basis.ends, id = e.id ∧ typeName = e.typeName := by
  cases hbasis : request.basis.result world.answers none with
  | error failure =>
    have hmem := (Request.run_of_basis_error hbasis).1.subset h
    exact .inl (anchor_of_approach hmem hanchor)
  | ok basis =>
    have hmem := (request.forecast_course world).inOrder.subset h
    rw [Request.itinerary_of_basis hbasis, List.mem_append] at hmem
    rcases hmem with hmem | hmem
    · exact .inl (anchor_of_approach hmem hanchor)
    · exact (anchor_of_questionsOn hbasis hmem hanchor).imp_right fun h => ⟨basis, rfl, h⟩

end Query

/-! ### Stores that share a scope -/

/-- Two fleets share a scope `s` that is visible under a name.  It holds a piece of equipment that
    no other visible scope holds, and all visible scopes have the same types and metrics.  A scope
    that does not exist has none. -/
structure Fleet.ShareHolder (names : List String) (name : String) (s : Scope) (id typeName : String)
    (fleet fleet' : Fleet) : Prop where
  visible : name ∈ names
  shared : fleet.scopes.get? name = some s
  shared' : fleet'.scopes.get? name = some s
  holds : s.holds id typeName = true
  sole : ∀ other ∈ names, other ≠ name → ∀ t, fleet.scopes.get? other = some t →
    t.holds id typeName = false
  sole' : ∀ other ∈ names, other ≠ name → ∀ t, fleet'.scopes.get? other = some t →
    t.holds id typeName = false
  types : ∀ other ∈ names, (fleet'.scopes.get? other).elim [] Scope.types
    = (fleet.scopes.get? other).elim [] Scope.types
  metrics : ∀ other ∈ names, (fleet'.scopes.get? other).elim [] Scope.metrics
    = (fleet.scopes.get? other).elim [] Scope.metrics

namespace Fleet

variable {fleet fleet' : Fleet} {names : List String} {name id typeName : String} {s : Scope}

/-- What one visible scope alone holds is found there. -/
theorem holder?_of_sole (hvisible : name ∈ names) (hget : fleet.scopes.get? name = some s)
    (hholds : s.holds id typeName = true)
    (hsole : ∀ other ∈ names, other ≠ name → ∀ t, fleet.scopes.get? other = some t →
      t.holds id typeName = false) :
    Scope.holder? (names.filterMap fleet.scopes.get?) id typeName = some s := by
  unfold Scope.holder?
  cases hfind : (names.filterMap fleet.scopes.get?).find? (·.holds id typeName) with
  | none =>
    have hmem : s ∈ names.filterMap fleet.scopes.get? :=
      List.mem_filterMap.mpr ⟨name, hvisible, hget⟩
    exact absurd hholds (List.find?_eq_none.mp hfind s hmem)
  | some t =>
    obtain ⟨other, hother, ht⟩ := List.mem_filterMap.mp (List.mem_of_find?_eq_some hfind)
    have htholds := List.find?_some hfind
    -- every other scope that is visible holds nothing of the name
    by_cases hname : other = name
    · rw [hname] at ht
      exact ht.symm.trans hget
    · rw [hsole other hother hname t ht] at htholds
      cases htholds

end Fleet

namespace Store

/-- **The equipment and the products of other scopes have no influence** on a forecast about
    equipment that one visible scope alone holds, as long as the ends of its chain, if it has one,
    are found in the same scope as well. -/
theorem forecast_ofHolders {store store' : Store} {scopes : List String} {name : String} {s : Scope}
    {request : Request} (hsettings : store'.settings = store.settings)
    (hshare : Fleet.ShareHolder (store.visibleNames scopes) name s request.equipmentId
      request.typeName store.fleet store'.fleet)
    (hends : ∀ basis, request.basis.result (store.inventory scopes) none = .ok basis →
      ∀ e ∈ basis.ends, Scope.holder? (store'.visible scopes) e.id e.typeName
        = Scope.holder? (store.visible scopes) e.id e.typeName)
    (interruption : Nat → Option Interruption) :
    request.forecast.run ⟨fun _ => store'.inventory scopes, interruption⟩ 0
      = request.forecast.run ⟨fun _ => store.inventory scopes, interruption⟩ 0 := by
  have hnames : store'.visibleNames scopes = store.visibleNames scopes := by
    unfold visibleNames
    rw [hsettings]
  have hheld : Scope.holder? (store'.visible scopes) request.equipmentId request.typeName
      = Scope.holder? (store.visible scopes) request.equipmentId request.typeName := by
    unfold visible
    rw [hnames, Fleet.holder?_of_sole hshare.visible hshare.shared hshare.holds hshare.sole,
      Fleet.holder?_of_sole hshare.visible hshare.shared' hshare.holds hshare.sole']
  have htypes : (store'.visible scopes).flatMap (·.types)
      = (store.visible scopes).flatMap (·.types) := by
    unfold visible
    rw [hnames, Fleet.flatMap_visible, Fleet.flatMap_visible]
    exact List.flatMap_congr hshare.types
  have hmetrics : (store'.visible scopes).flatMap (·.metrics)
      = (store.visible scopes).flatMap (·.metrics) := by
    unfold visible
    rw [hnames, Fleet.flatMap_visible, Fleet.flatMap_visible]
    exact List.flatMap_congr hshare.metrics
  -- the second run is led through the questions of the first, one by one
  refine Inquiry.run_congr rfl fun k query hquery => ?_
  refine Scope.inventory_of_holder htypes hmetrics fun id typeName hanchor => ?_
  rcases Query.anchor_of_run (List.mem_of_getElem? hquery) hanchor with
    ⟨rfl, rfl⟩ | ⟨basis, hbasis, e, he, rfl, rfl⟩
  · exact hheld
  · exact hends basis hbasis e he

end Store

/-! ### Neighbours -/

namespace TwoClusters

/-- Both clusters in one scope, and another scope besides. -/
def besides (other : Scope) : Fleet :=
  ⟨⟨[("main", scope 2.0), ("other", other)], List.pairwise_pair.mpr (by decide : "main" < "other")⟩⟩

/-- A data centre of its own with one server and one product. -/
def neighbour (top : String) : Scope where
  types := types
  assets := [asset top "datacenter" none, asset "g" "cluster" (some top),
    (asset "u" "server" (some "g")).withValue "c" (.float 1.5)]
  products := [{ name := "ledger", tag := "lg", equipment := ["u"] }]

/-- The other scope has no equipment. -/
def aloneStore : Store := ⟨{ strict := false }, besides { types := types }, by decide +kernel⟩

/-- The other scope has a data centre of another id. -/
def apartStore : Store := ⟨{ strict := false }, besides (neighbour "x"), by decide +kernel⟩

/-- The other scope has a data centre of the same id. -/
def namesakeStore : Store := ⟨{ strict := false }, besides (neighbour "d"), by decide +kernel⟩

/-- Whatever equipment the other scope has, the first server is in one scope only. -/
private theorem shareHolder_besides {other other' : Scope}
    (h : other.types = types ∧ other.metrics = [] ∧ other.holds "s" "server" = false)
    (h' : other'.types = types ∧ other'.metrics = [] ∧ other'.holds "s" "server" = false) :
    Fleet.ShareHolder ["other", "main"] "main" (scope 2.0) "s" "server" (besides other)
      (besides other') := by
  obtain ⟨htypes, hmetrics, hholds⟩ := h
  obtain ⟨htypes', hmetrics', hholds'⟩ := h'
  have hsole : ∀ {o : Scope}, o.holds "s" "server" = false →
      ∀ name ∈ ["other", "main"], name ≠ "main" → ∀ t,
        (besides o).scopes.get? name = some t → t.holds "s" "server" = false := by
    intro o ho
    refine List.forall_mem_cons.mpr ⟨fun _ t ht => ?_,
      List.forall_mem_singleton.mpr fun hne => absurd rfl hne⟩
    cases ht
    exact ho
  exact {
    visible := by decide
    shared := rfl
    shared' := rfl
    holds := by decide +kernel
    sole := hsole hholds
    sole' := hsole hholds'
    types := List.forall_mem_cons.mpr
      ⟨htypes'.trans htypes.symm, List.forall_mem_singleton.mpr rfl⟩
    metrics := List.forall_mem_cons.mpr
      ⟨hmetrics'.trans hmetrics.symm, List.forall_mem_singleton.mpr rfl⟩ }

/-- A neighbour of another id makes no difference. -/
theorem forecast_apart :
    (toOneCore 2.0).forecast.result (apartStore.inventory ["other", "main"]) none
      = .ok ⟨[.of "processors" ⟨"database", "db"⟩ 12 5]⟩ := by
  have hends : ((toOneCore 2.0).basis.result (aloneStore.inventory ["other", "main"]) none).map
      Basis.ends = .ok [(asset "b" "cluster" (some "d")).toEquipment,
        (asset "d" "datacenter" none).toEquipment] := by
    decide +kernel
  have hsame : ∀ basis,
      (toOneCore 2.0).basis.result (aloneStore.inventory ["other", "main"]) none = .ok basis →
      ∀ e ∈ basis.ends, Scope.holder? (apartStore.visible ["other", "main"]) e.id e.typeName
        = Scope.holder? (aloneStore.visible ["other", "main"]) e.id e.typeName := by
    intro basis hbasis e he
    rw [hbasis] at hends
    rw [Except.ok.inj hends] at he
    rcases List.mem_cons.mp he with rfl | he
    · rfl
    · cases List.mem_singleton.mp he
      rfl
  have hshare : Fleet.ShareHolder (aloneStore.visibleNames ["other", "main"]) "main" (scope 2.0)
      (toOneCore 2.0).equipmentId (toOneCore 2.0).typeName aloneStore.fleet apartStore.fleet :=
    shareHolder_besides ⟨rfl, rfl, by decide +kernel⟩ ⟨rfl, rfl, by decide +kernel⟩
  have hsettings : apartStore.settings = aloneStore.settings := rfl
  have hrun : (toOneCore 2.0).forecast.run
        ⟨fun _ => apartStore.inventory ["other", "main"], fun _ => none⟩ 0
      = (toOneCore 2.0).forecast.run
        ⟨fun _ => aloneStore.inventory ["other", "main"], fun _ => none⟩ 0 :=
    Store.forecast_ofHolders hsettings hshare hsame fun _ => none
  refine (congrArg Prod.snd hrun).trans ?_
  decide +kernel

/-- **A namesake of the top makes a difference**, though the first server is in one scope only.
    The total is that of the other scope, and so are the products. -/
theorem forecast_namesake :
    Fleet.ShareHolder ["other", "main"] "main" (scope 2.0) "s" "server" apartStore.fleet
      namesakeStore.fleet ∧
    apartStore.settings = namesakeStore.settings ∧
    (toOneCore 2.0).forecast.result (apartStore.inventory ["other", "main"]) none
      = .ok ⟨[.of "processors" ⟨"database", "db"⟩ 12 5]⟩ ∧
    (toOneCore 2.0).forecast.result (namesakeStore.inventory ["other", "main"]) none
      = .ok ⟨[.of "processors" ⟨"ledger", "lg"⟩ 4 0]⟩ :=
  ⟨shareHolder_besides ⟨rfl, rfl, by decide +kernel⟩ ⟨rfl, rfl, by decide +kernel⟩, rfl,
    by decide +kernel, by decide +kernel⟩

end TwoClusters

end LicenseForecast
