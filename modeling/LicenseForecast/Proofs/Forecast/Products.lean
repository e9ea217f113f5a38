import LicenseForecast.Proofs.Fleet.Reach
import LicenseForecast.Proofs.Forecast.Itinerary
import LicenseForecast.Proofs.Forecast.Prediction
import LicenseForecast.Proofs.Hierarchy

namespace LicenseForecast

/-!
# How far down a forecast looks for products

A forecast for processors is about the products below the equipment of the end type, down to the
level of the start type.  A chain counts that level and the end type's in what it asks for, but a
search counts the levels below the equipment that it starts from.  So a forecast looks one level
further, and lists products that are installed right below the start level and nowhere above
(`Store.forecast_products`).  Only where the start type is as far down as a lookup can be asked to
go, the two counts are the same.
-/

/-! ### Nearer and farther -/

/-- A search that goes further finds the same exactly if nothing lies in between. -/
theorem Scope.productsWithin_eq_iff {s : Scope} {id metric : String} {m n : Nat} (h : m ≤ n) :
    s.productsWithin id n metric = s.productsWithin id m metric ↔
      ∀ p ∈ s.products, p.isLicensedUnder metric = true → s.InstalledWithin id n p →
        s.InstalledWithin id m p := by
  -- what is installed within `m` levels is so within `n`, so one list is a filter of the other
  have hnearer : (s.products.filter fun p => p.isLicensedUnder metric ∧ s.InstalledWithin id m p)
      = (s.products.filter fun p => p.isLicensedUnder metric ∧ s.InstalledWithin id n p).filter
          fun p => s.InstalledWithin id m p := by
    rw [List.filter_filter]
    refine List.filter_congr fun p _ => ?_
    rw [Bool.eq_iff_iff, Bool.and_eq_true, decide_eq_true_iff, decide_eq_true_iff,
      decide_eq_true_iff]
    exact ⟨fun hp => ⟨hp.2, hp.1, hp.2.mono h⟩, fun hp => ⟨hp.2.1, hp.1⟩⟩
  unfold productsWithin
  rw [hnearer]
  constructor
  · intro heq p hp hlicensed hwithin
    -- a filter that keeps the length keeps everything
    have hlength := congrArg List.length heq
    rw [List.length_map, List.length_map, eq_comm, List.length_filter_eq_length_iff] at hlength
    have hnear := hlength p (List.mem_filter.mpr ⟨hp, decide_eq_true ⟨hlicensed, hwithin⟩⟩)
    exact decide_eq_true_iff.mp hnear
  · intro hall
    refine congrArg _ (List.filter_eq_self.mpr fun p hp => ?_).symm
    obtain ⟨hp, hboth⟩ := List.mem_filter.mp hp
    obtain ⟨hlicensed, hwithin⟩ := decide_eq_true_iff.mp hboth
    exact decide_eq_true (hall p hp hlicensed hwithin)

/-! ### Rows and products -/

/-- Where users do not count there is a row for each product. -/
theorem Basis.map_product_of_rows {inventory : Inventory} {basis : Basis} {products : List Product}
    {rows : List Row} (hthreshold : basis.threshold? = none)
    (h : basis.rows inventory products = .ok rows) : rows.map (·.product) = products := by
  obtain ⟨totals, -, -, rfl⟩ := rows_eq_ok.mp h
  have hentry : basis.entry inventory totals = some ∘ basis.row inventory totals := by
    funext product
    unfold entry isComparable
    rw [hthreshold]
    rfl
  rw [hentry, List.filterMap_eq_map, List.map_map]
  exact List.map_id _

/-- **The top of a chain**, and how far below it products are looked for. -/
theorem Chain.exists_top {types : List EquipmentType} {f : Forest}
    (hf : Forest.ofTypes types = .ok f) {family : Family} {users : Option Nat} {m : PooledMetric}
    {rule : PooledRule} (hfits : m.Fits f family users rule) {s : Scope} {id typeName : String}
    {chain : Chain}
    (h : ofAnswer f rule id typeName (Scope.inventory [s] (.hierarchy id typeName rule.depth))
      = .ok chain) :
    ∃ b top, s.asset? id = some b ∧ s.ascend rule.topOffset b = some top ∧
      chain.top = top.toEquipment ∧ chain.productDepth = min maxDepth (rule.depth + 1) := by
  obtain ⟨-, hdepth⟩ := typeNames_of_ofAnswer h
  have hanswer : Scope.inventory [s] (.hierarchy id typeName rule.depth)
      = Scope.anchored [s] id typeName fun s => .ok (s.hierarchy id rule.depth) := rfl
  unfold Scope.anchored at hanswer
  -- a single scope answers for itself, or nobody does
  cases hholds : s.holds id typeName with
  | false =>
    rw [List.find?_cons, hholds] at hanswer
    rw [hanswer] at h
    cases h
  | true =>
    obtain ⟨b, hb, -⟩ := Scope.holds_iff.mp hholds
    rw [List.find?_cons, hholds] at hanswer
    rw [hanswer] at h
    replace h := (ofAnswer_hierarchy hf hfits hb).symm.trans h
    -- had the way up ended before the top, the chain would have been refused
    by_cases hover : s.ascend rule.topOffset b = none
    · rw [if_pos hover] at h
      cases h
    · obtain ⟨top, htop⟩ := Option.ne_none_iff_exists'.mp hover
      refine ⟨b, top, hb, htop, ?_, hdepth⟩
      rw [if_neg hover] at h
      split at h
      · cases h
      · cases h
        show (linksAbove s rule b)[(linksAbove s rule b).length - 1]?.getD default = _
        rw [length_linksAbove hover, Nat.add_sub_cancel, getElem?_linksAbove (Nat.le_refl _), htop]
        rfl

/-! ### Products of a forecast -/

/-- What a request for processors is about in a scope: a metric and its rule, the machine of the
    request and the equipment of the end type above it, and where the start type lies below the end
    type. -/
structure Request.Concerns (request : Request) (s : Scope) (f : Forest) (m : PooledMetric)
    (rule : PooledRule) (b top : Asset) : Prop where
  types_eq : Forest.ofTypes s.types = .ok f
  mem_metrics : .ops m ∈ s.metrics
  name_eq : m.name = request.metricName
  rule_eq : (Metric.ops m).rule f = .ok (.pooled rule)
  machine_eq : s.asset? request.equipmentId = some b
  top_eq : s.ascend rule.topOffset b = some top
  distance_eq : ∃ start stop, f.indexOfId? m.startTypeId = some start ∧
    f.indexOfId? m.endTypeId = some stop ∧ f.distance start stop = some rule.depth

section

variable {s : Scope} {f : Forest} {request : Request}

/-- The metric and the rule that a request for processors is resolved to in a scope. -/
theorem Request.exists_metric_of_resolved (hs : s.Sound f) {forest : Forest} {found : LicenseRule}
    (h : request.resolved (Scope.inventory [s]) .ops = .ok (forest, found)) :
    forest = f ∧ ∃ m rule, .ops m ∈ s.metrics ∧ m.name = request.metricName ∧
      (Metric.ops m).rule f = .ok (.pooled rule) ∧ found = .pooled rule := by
  obtain ⟨_, _, metric, htypes, hforest, hspecs, honly, hrule, -⟩ := resolved_eq_ok h
  cases htypes
  cases hspecs
  rw [hs.allTypes_eq] at hforest
  cases hforest.symm.trans hs.types_eq
  obtain ⟨hmem, hname⟩ := Metric.of_only honly
  obtain ⟨m, hm, rfl⟩ := List.mem_map.mp hmem
  obtain ⟨stored, hstored, hspec⟩ := List.mem_filterMap.mp hm
  rw [List.flatMap_singleton] at hstored
  obtain ⟨rule, -, rfl⟩ := map_eq_ok.mp hrule
  -- of the metrics in the scope only those for processors have a specification here
  cases stored <;> cases hspec
  exact ⟨rfl, m, rule, hstored, hname, hrule, rfl⟩

/-- **The products of a forecast for processors** are those found so many levels below the top. -/
theorem Request.products_of_forecast (hs : s.Sound f)
    (hfamily : Family.ofRequest request.familyText = .ok .ops) {forecast : Forecast}
    (hok : request.forecast.result (Scope.inventory [s]) none = .ok forecast) :
    ∃ m rule b top, request.Concerns s f m rule b top ∧ forecast.rows.map (·.product)
      = s.productsWithin top.id (min maxDepth (rule.depth + 1)) m.name := by
  obtain ⟨basis, hbasis, hproducts⟩ := Request.forecast_eq_ok.mp hok
  obtain ⟨_, old, new, _, _, hfamily', -, hresolved, hof⟩ := Request.basis_eq_ok.mp hbasis
  cases hfamily.symm.trans hfamily'
  obtain ⟨rfl, m, rule, hm, hname, hrule, rfl⟩ := exists_metric_of_resolved hs hresolved
  obtain ⟨_, hr, heq⟩ := map_eq_ok.mp hrule
  cases heq
  have hfits := PooledMetric.fits_of_rule hr
  obtain ⟨stop, start, hstop, -, -, hstart, hdepth⟩ := hfits.exists_top
  obtain ⟨chain, oldC, newC, hchain, -, -, rfl⟩ := Basis.of_pooled_eq_ok.mp hof
  obtain ⟨b, top, hb, htop, hchainTop, hsearch⟩ := Chain.exists_top hs.types_eq hfits hchain
  have htopMem := Scope.mem_of_ascend (Scope.mem_of_asset? hb).1 htop
  refine ⟨m, rule, b, top, ⟨hs.types_eq, hm, hname, hrule, hb, htop, start, stop, hstart, hstop,
    hdepth⟩, ?_⟩
  -- the products are looked for below the top
  have hanswer : (Basis.pooled rule chain old new oldC newC).installed (Scope.inventory [s]) request
      = s.productsBelow top.id (min maxDepth (rule.depth + 1)) m.name := by
    show Scope.inventory [s]
      (.products chain.top.id chain.top.typeName chain.productDepth (.pooled rule)) = _
    rw [hchainTop, hsearch, ← hfits.name_eq]
    exact hs.anchored_eq htopMem fun s => s.productsBelow top.id _ rule.name
  rw [hanswer, Scope.productsBelow_eq hs htopMem] at hproducts
  -- a forecast without rows is one for which no product was found
  rcases hproducts with ⟨hnone, hrows⟩ | ⟨products, hfound, hrows⟩
  · split at hnone
    next hempty => rw [hempty, hrows, List.map_nil]
    · cases hnone
  · split at hfound
    · cases hfound
    · cases hfound
      refine Basis.map_product_of_rows ?_ hrows
      exact threshold?_ops hfits

end

/-- **A forecast lists products down to one level below the start type**, if a lookup can be asked
    to go so far.  For one visible scope, its rows are those of the products licensed under the
    metric that are installed at most `rule.depth + 1` links below the top, in their order in the
    scope.  They are those of the products installed down to the level of the start type exactly if
    no product is installed right below it only. -/
theorem Store.forecast_products {store : Store} {scopes : List String} {s : Scope}
    {request : Request} {interruption : Nat → Option Interruption} {forecast : Forecast}
    (hvisible : store.visible scopes = [s])
    (hfamily : Family.ofRequest request.familyText = .ok .ops)
    (hok : (request.forecast.run ⟨fun _ => store.inventory scopes, interruption⟩ 0).2
      = .ok forecast) :
    ∃ f m rule b top, request.Concerns s f m rule b top ∧
      forecast.rows.map (·.product)
        = s.productsWithin top.id (min maxDepth (rule.depth + 1)) m.name ∧
      (forecast.rows.map (·.product) = s.productsWithin top.id rule.depth m.name ↔
        rule.depth = maxDepth ∨ ∀ p ∈ s.products, p.isLicensedUnder m.name = true →
          s.InstalledWithin top.id (rule.depth + 1) p → s.InstalledWithin top.id rule.depth p) := by
  obtain ⟨f, hs⟩ := sound_of_visible (hvisible ▸ List.mem_singleton_self s)
  have hresult := Inquiry.result_of_run_eq_ok hok
  unfold inventory at hresult
  rw [hvisible] at hresult
  obtain ⟨m, rule, b, top, hconcerns, hproducts⟩ := Request.products_of_forecast hs hfamily hresult
  refine ⟨f, m, rule, b, top, hconcerns, hproducts, ?_⟩
  obtain ⟨_, _, -, hfits⟩ := Metric.fits_of_rule hconcerns.rule_eq
  rw [hproducts]
  rcases Nat.lt_or_eq_of_le hfits.depth_le with hlt | heq
  · rw [Nat.min_eq_right hlt, Scope.productsWithin_eq_iff (Nat.le_succ _), or_iff_right hlt.ne]
  · rw [Nat.min_eq_left (by omega), heq]
    exact ⟨fun _ => .inl rfl, fun _ => rfl⟩

/-! ### A partition below its server -/

namespace Partitions

open TwoClusters (metric asset server toOneCore)

/-- Partitions of servers in clusters in data centres. -/
def types : List EquipmentType :=
  TwoClusters.types ++ [{ id := "4", name := "partition", parentId := some "1" }]

/-- The forest of these types: the last one is part of the first. -/
def forest : Forest := ⟨types.toArray, #[some 1, some 2, none, some 0]⟩

/-- A product on a server and another one on its partition.  The metric starts with servers. -/
def scope : Scope where
  types := types
  metrics := [.ops metric]
  assets := [asset "d" "datacenter" none, asset "b" "cluster" (some "d"), server 2.0,
    asset "p" "partition" (some "s")]
  products := [{ name := "database", tag := "db", equipment := ["s"] },
    { name := "middleware", tag := "mw", equipment := ["p"] }]

def store : Store :=
  ⟨{ strict := false }, ⟨⟨[("main", scope)], List.pairwise_singleton ..⟩⟩, by decide +kernel⟩

theorem ofTypes_types : Forest.ofTypes types = .ok forest := by decide +kernel

theorem rule_metric : (Metric.ops metric).rule forest = .ok (.pooled TwoClusters.rule) := by
  decide +kernel

/-- The product on the partition is listed, although servers are two levels below the top and the
    partition is three. -/
theorem forecast_partition :
    (toOneCore 2.0).forecast.result (store.inventory ["main"]) none
      = .ok ⟨[.of "processors" ⟨"database", "db"⟩ 8 1,
          .of "processors" ⟨"middleware", "mw"⟩ 8 1]⟩ ∧
    (∃ b top, (toOneCore 2.0).Concerns scope forest metric TwoClusters.rule b top ∧
      scope.productsWithin top.id 3 "processors" = [⟨"database", "db"⟩, ⟨"middleware", "mw"⟩] ∧
      scope.productsWithin top.id 2 "processors" = [⟨"database", "db"⟩]) := by
  have hok : ((toOneCore 2.0).forecast.run (.still (store.inventory ["main"])) 0).2
      = .ok ⟨[.of "processors" ⟨"database", "db"⟩ 8 1,
          .of "processors" ⟨"middleware", "mw"⟩ 8 1]⟩ := by
    decide +kernel
  refine ⟨hok, ?_⟩
  obtain ⟨f, m, rule, b, top, hconcerns, hproducts, -⟩ :=
    Store.forecast_products rfl (by decide) hok
  cases hconcerns.types_eq.symm.trans ofTypes_types
  cases List.mem_singleton.mp hconcerns.mem_metrics
  cases hconcerns.rule_eq.symm.trans rule_metric
  refine ⟨b, top, hconcerns, hproducts.symm, ?_⟩
  cases hconcerns.machine_eq
  cases hconcerns.top_eq
  decide +kernel

end Partitions

end LicenseForecast
