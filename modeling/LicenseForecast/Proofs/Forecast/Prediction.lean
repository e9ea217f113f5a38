import LicenseForecast.Proofs.Chain
import LicenseForecast.Proofs.Fleet.Reload
import LicenseForecast.Proofs.Forecast.Rows

namespace LicenseForecast

/-!
# A forecast against the total computed afterwards

A forecast for processors takes one contribution out of the total in store and puts another in.
Overwriting the machine in the fleet and computing the total again ought to give the same.  It
does as long as the sum of all pools still fits into 64 bits afterwards (`forecast_predicts`): an
exchange stops at the largest number there is, while adding up the pools anew leads to no total.
-/

open Decimal (unsignedMax Eqv)

/-- What is assumed of doubles: contributions that count as equal are, and a sum from which one
    contribution is taken and to which another is added is the sum computed anew. -/
structure Scope.ExactExchange (s : Scope) (rule : PooledRule) (top b : Asset) (new : Readings)
    (oldC newC : Float) : Prop where
  equal : (newC - oldC).abs ≤ Formula.tolerance → Eqv oldC newC
  sum : ¬ (newC - oldC).abs ≤ Formula.tolerance → ∀ root figures pools sum,
    s.ascend rule.aggregateOffset b = some root →
    s.pooledLicenses root.id rule = .ok figures →
    (s.overwrite b.id new).poolSums top.id rule = .ok pools → pools.get? root.id = some sum →
    Eqv (figures.fractional - oldC + newC) sum

/-- Whether an exchange is exact, found out by computing both sides. -/
def Scope.isExactExchange (s : Scope) (rule : PooledRule) (top b : Asset) (new : Readings)
    (oldC newC : Float) : Bool :=
  (!(newC - oldC).abs ≤ Formula.tolerance || oldC == newC) &&
    match s.ascend rule.aggregateOffset b with
    | none => true
    | some root =>
      match s.pooledLicenses root.id rule, (s.overwrite b.id new).poolSums top.id rule with
      | .ok figures, .ok pools =>
        (pools.get? root.id).all (figures.fractional - oldC + newC == ·)
      | _, _ => true

/-- An exchange that has been checked is exact. -/
theorem Scope.exactExchange_of_check {s : Scope} {rule : PooledRule} {top b : Asset}
    {new : Readings} {oldC newC : Float} (h : s.isExactExchange rule top b new oldC newC = true) :
    s.ExactExchange rule top b new oldC newC := by
  unfold isExactExchange at h
  obtain ⟨hequal, hsum⟩ := Bool.and_eq_true_iff.mp h
  constructor
  · intro hle
    simp only [hle, decide_true, Bool.not_true, Bool.false_or] at hequal
    exact Decimal.eqv_of_beq hequal
  · intro _ root figures pools sum hroot hfigures hpools hget
    simp only [hroot, hfigures, hpools, hget, Option.all_some] at hsum
    exact Decimal.eqv_of_beq hsum

/-! ### The exchange -/

namespace Scope

section

variable {s : Scope} {f : Forest} {rule : PooledRule} {b top : Asset} (hs : s.Sound f)
  (hlinked : s.Linked f) (hplaced : rule.Placed f) (hb : b ∈ s.assets)
  (hbase : b.typeName = rule.base.name) (htop : s.ascend rule.topOffset b = some top)

include hlinked hplaced hb hbase htop

/-- The top above a machine. -/
theorem top_of_base : top ∈ s.assets ∧ top.typeName = rule.top.name := by
  obtain ⟨j, hj, hascend⟩ := hplaced.top
  obtain ⟨j', hj', hascend'⟩ := hlinked.ascend_index hb (hbase ▸ hplaced.base) htop
  cases hascend.symm.trans hascend'
  exact ⟨mem_of_ascend hb htop, Forest.name_eq_of_indexOfName? hj' hj⟩

include hs

/-- The root of a machine's pool. -/
theorem root_of_base : ∃ root, s.ascend rule.aggregateOffset b = some root ∧
    root.typeName = rule.aggregate.name ∧
    root ∈ s.generation (rule.topOffset - rule.aggregateOffset) [top] := by
  obtain ⟨i, hi, hagg⟩ := hplaced.aggregate
  have hway := htop
  rw [← Nat.add_sub_of_le hplaced.aggregate_le_top, ascend_add] at hway
  obtain ⟨root, hroot, hrest⟩ := Option.bind_eq_some_iff.mp hway
  obtain ⟨i', hi', hagg'⟩ := hlinked.ascend_index hb (hbase ▸ hplaced.base) hroot
  cases hagg.symm.trans hagg'
  exact ⟨root, hroot, Forest.name_eq_of_indexOfName? hi' hi,
    (mem_generation hs (mem_of_ascend hb htop)).mpr ⟨mem_of_ascend hb hroot, hrest⟩⟩

/-- **The exchange is that of the pool's figures.** -/
theorem licensesOf_overwrite {new : Readings} {oldC newC : Float} {pools : Dictionary Float}
    (hold : Formula.contribution rule b.readings = .ok oldC)
    (hnew : Formula.contribution rule new = .ok newC)
    (hexact : s.ExactExchange rule top b new oldC newC)
    (hpools : s.poolSums top.id rule = .ok pools) :
    ∃ root figures pools', s.ascend rule.aggregateOffset b = some root ∧
      s.pooledLicenses root.id rule = .ok figures ∧
      (s.overwrite b.id new).poolSums top.id rule = .ok pools' ∧
      licensesOf pools' + figures.licenses
        = licensesOf pools + Formula.newPool figures oldC newC := by
  obtain ⟨htopMem, htopType⟩ := top_of_base hlinked hplaced hb hbase htop
  obtain ⟨root, hroot, hrootType, hgeneration⟩ := root_of_base hs hlinked hplaced hb hbase htop
  have hmembers := members_filter hs hlinked hplaced htopMem htopType hgeneration hrootType
  obtain ⟨figures, hfigures, hlicenses, -⟩ := pooledLicenses_root hmembers hpools
  have hmem : b ∈ s.members top.id rule := by
    rw [members_top hs hlinked hplaced htopMem htopType, List.mem_filter]
    exact ⟨(mem_generation hs htopMem).mpr ⟨hb, htop⟩, beq_iff_eq.mpr hbase⟩
  obtain ⟨sum, sum', hsum, hpools', hsame⟩ := poolSums_overwrite hs hmem hroot hold hnew hpools
  rw [hsum] at hlicenses
  replace hlicenses : figures.licenses = Formula.ceilLicenses sum := hlicenses
  -- the pool is rounded again to what the sum computed anew is rounded to
  have hnewPool : Formula.newPool figures oldC newC = Formula.ceilLicenses sum' := by
    by_cases hle : (newC - oldC).abs ≤ Formula.tolerance
    · rw [Formula.newPool_of_le hle, hlicenses]
      exact Formula.ceilLicenses_congr (hsame (hexact.equal hle))
    · rw [Formula.newPool_of_not_le hle]
      exact Formula.ceilLicenses_congr (hexact.sum hle root figures _ sum' hroot hfigures hpools'
        (Dictionary.get?_insert_self ..))
  refine ⟨root, figures, _, hroot, hfigures, hpools', ?_⟩
  rw [hnewPool, hlicenses]
  exact Dictionary.sum_insert Formula.ceilLicenses sum' hsum

end

end Scope

/-! ### What a fleet says about a request -/

/-- The only metric of a name is any metric of that name. -/
theorem Metric.eq_of_only {family : Family} {name : String} {metrics : List Metric}
    {found metric : Metric} (h : Metric.only family name metrics = .ok found)
    (hmem : metric ∈ metrics) (hname : metric.name = name) : found = metric := by
  have hfilter : metric ∈ metrics.filter (·.name == name) :=
    List.mem_filter.mpr ⟨hmem, beq_iff_eq.mpr hname⟩
  rw [only_eq_ok_iff.mp h] at hfilter
  exact (List.mem_singleton.mp hfilter).symm

section

variable {s : Scope} {f : Forest} {m : PooledMetric} {rule : PooledRule} {request : Request}
  {b top : Asset} {old new : Readings} {oldC newC : Float} {basis : Basis}

/-- The forest and the rule that a request for processors is about. -/
theorem Request.resolved_eq (hs : s.Sound f) (hmetric : .ops m ∈ s.metrics)
    (hrule : (Metric.ops m).rule f = .ok (.pooled rule)) (hname : m.name = request.metricName)
    {forest : Forest} {found : LicenseRule}
    (h : request.resolved (Scope.inventory [s]) .ops = .ok (forest, found)) :
    forest = f ∧ found = .pooled rule ∧ rule.base.name = request.typeName := by
  obtain ⟨types, specs, metric, htypes, hforest, hspecs, honly, hfound, hbase⟩ := resolved_eq_ok h
  cases htypes
  cases hspecs
  rw [hs.allTypes_eq] at hforest
  cases hforest.symm.trans hs.types_eq
  have hmem : Metric.ops m ∈ (Scope.allMetrics [s] .ops).map (Metric.ofSpec .ops) := by
    refine List.mem_map.mpr ⟨m, List.mem_filterMap.mpr ⟨.ops m, ?_, rfl⟩, rfl⟩
    rw [List.flatMap_singleton]
    exact hmetric
  cases Metric.eq_of_only honly hmem hname
  cases hfound.symm.trans hrule
  exact ⟨rfl, rfl, hbase⟩

/-- **The basis of a forecast for processors** in a fleet. -/
theorem Request.basis_eq (hs : s.Sound f) (hlinked : s.Linked f) (hmetric : .ops m ∈ s.metrics)
    (hrule : (Metric.ops m).rule f = .ok (.pooled rule)) (hname : m.name = request.metricName)
    (hfamily : Family.ofRequest request.familyText = .ok .ops)
    (hb : s.asset? request.equipmentId = some b) (htop : s.ascend rule.topOffset b = some top)
    (hsides : Readings.beforeAndAfter request.overrides = .ok (old, new))
    (hold : Formula.contribution rule old = .ok oldC)
    (hnew : Formula.contribution rule new = .ok newC)
    (h : request.basis.result (Scope.inventory [s]) none = .ok basis) :
    b.typeName = rule.base.name ∧ ∃ chain root, basis = .pooled rule chain old new oldC newC ∧
      s.ascend rule.aggregateOffset b = some root ∧ chain.top = top.toEquipment ∧
      chain.aggregate = root.toEquipment := by
  obtain ⟨_, _, _, _, _, hfamily', hsides', hresolved, hbasis⟩ := basis_eq_ok.mp h
  cases hfamily.symm.trans hfamily'
  cases hsides.symm.trans hsides'
  obtain ⟨rfl, rfl, hbase⟩ := resolved_eq hs hmetric hrule hname hresolved
  obtain ⟨chain, _, _, hchain, hold', hnew', rfl⟩ := Basis.of_pooled_eq_ok.mp hbasis
  cases hold.symm.trans hold'
  cases hnew.symm.trans hnew'
  obtain ⟨r, hfits, heq⟩ := map_eq_ok.mp hrule
  cases heq
  replace hfits := PooledMetric.fits_of_rule hfits
  obtain ⟨_, _, -, -, hdistance, -, -⟩ := hfits.exists_top
  -- the way up to the top passes the root of the pool
  have hway := htop
  rw [← Nat.add_sub_of_le hfits.aggregate_le_top, Scope.ascend_add] at hway
  obtain ⟨root, hroot, -⟩ := Option.bind_eq_some_iff.mp hway
  obtain ⟨htop', hroot', htype⟩ := Chain.ends_of_ofAnswer hdistance hfits.aggregate_le_top hb
    hroot htop hchain
  exact ⟨htype.trans hbase.symm, chain, root, rfl, hroot, htop', hroot'⟩

/-- **The totals of a forecast** in a fleet are an exchange within the total of the top. -/
theorem Basis.splice_eq {root : Asset} {chain : Chain} {totals : Formula.Splice} (hs : s.Sound f)
    (htop : top ∈ s.assets) (hroot : root ∈ s.assets) (hchainTop : chain.top = top.toEquipment)
    (hchainRoot : chain.aggregate = root.toEquipment)
    (h : (Basis.pooled rule chain old new oldC newC).splice (Scope.inventory [s]) = .ok totals) :
    ∃ total figures, s.computedLicenses top.id rule = .ok total ∧
      s.pooledLicenses root.id rule = .ok figures ∧
      totals = Formula.splice total figures oldC newC := by
  simp only [splice, bind_eq_ok, Failure.demanded_eq_ok, pure_eq_ok] at h
  obtain ⟨total, htotal, figures, hfigures, rfl⟩ := h
  refine ⟨total, figures, ?_, ?_, rfl⟩
  · rw [hchainTop] at htotal
    exact (hs.inventory_computedLicenses htop).symm.trans htotal
  · rw [hchainRoot] at hfigures
    exact (hs.inventory_pooledLicenses hroot).symm.trans hfigures

/-- Processors have no threshold of users. -/
theorem Request.threshold?_ops {users : Option Nat} (hfits : m.Fits f .ops users rule) :
    threshold? rule = none := by
  unfold threshold?
  rw [hfits.family_eq]
  rfl

/-- Processors count without users. -/
theorem Basis.licensesAt_ops {chain : Chain} (hrule : (Metric.ops m).rule f = .ok (.pooled rule))
    (total : Nat) (users : List NamedUser) :
    (Basis.pooled rule chain old new oldC newC).licensesAt total users = total := by
  obtain ⟨r, hr, heq⟩ := map_eq_ok.mp hrule
  cases heq
  have hthreshold := Request.threshold?_ops (PooledMetric.fits_of_rule hr)
  simp only [licensesAt, threshold?, hthreshold]

/-- The total of some equipment, in a store that shows its scope alone. -/
theorem Store.total_eq {store : Store} {scopes : List String} {pools : Dictionary Float}
    {e : Equipment} (hvisible : store.visible scopes = [s])
    (he : ∃ a ∈ s.assets, a.toEquipment = e) (hpools : s.poolSums e.id rule = .ok pools) :
    store.inventory scopes (.computedLicenses e.id e.typeName rule)
      = if Scope.licensesOf pools ≤ unsignedMax then .ok (Scope.licensesOf pools)
        else .error .overflow := by
  obtain ⟨f, hs⟩ := sound_of_visible (hvisible ▸ List.mem_singleton_self s)
  obtain ⟨a, ha, rfl⟩ := he
  unfold inventory
  rw [hvisible, hs.inventory_computedLicenses ha]
  exact Scope.computedLicenses_of_poolSums hpools

end

/-- **A forecast predicts the total computed afterwards**, as long as there is one.  For a request
    about a machine `b` whose values in store are those observed, every row starts from the total in
    store and ends at the sum of all pools once the values proposed have been written, or at the
    largest number that fits into 64 bits.  The store computes that sum if and only if it fits, and
    where it does not the program stops. -/
theorem Store.forecast_predicts {store : Store} {scopes : List String} {name : String} {s : Scope}
    {f : Forest} {m : PooledMetric} {rule : PooledRule} {request : Request} {b top : Asset}
    {old new : Readings} {oldC newC : Float} {interruption : Nat → Option Interruption}
    {forecast : Forecast} (hvisible : store.visible scopes = [s])
    (hname : name ∈ store.visibleNames scopes) (hscope : store.fleet.scopes.get? name = some s)
    (hforest : Forest.ofTypes s.types = .ok f) (hlinked : s.Linked f)
    (hmetric : .ops m ∈ s.metrics) (hrule : (Metric.ops m).rule f = .ok (.pooled rule))
    (hmetricName : m.name = request.metricName)
    (hfamily : Family.ofRequest request.familyText = .ok .ops)
    (hb : s.asset? request.equipmentId = some b) (htop : s.ascend rule.topOffset b = some top)
    (hsides : Readings.beforeAndAfter request.overrides = .ok (old, new))
    (hstored : ∀ field ∈ [rule.cores, rule.cpus, rule.coreFactor],
      old.number field = b.readings.number field)
    (hold : Formula.contribution rule old = .ok oldC)
    (hnew : Formula.contribution rule new = .ok newC)
    (hexact : s.ExactExchange rule top b new oldC newC)
    (hok : (request.forecast.run ⟨fun _ => store.inventory scopes, interruption⟩ 0).2
      = .ok forecast) :
    ∃ store', store.reload (store.fleet.overwrite name b.id new) = .ok store' ∧
      (forecast.rows ≠ [] → ∃ pools pools',
        s.poolSums top.id rule = .ok pools ∧
        (s.overwrite b.id new).poolSums top.id rule = .ok pools' ∧
        store.inventory scopes (.computedLicenses top.id top.typeName rule)
          = .ok (Scope.licensesOf pools) ∧
        store'.inventory scopes (.computedLicenses top.id top.typeName rule)
          = (if Scope.licensesOf pools' ≤ unsignedMax then .ok (Scope.licensesOf pools')
            else .error .overflow) ∧
        ∀ row ∈ forecast.rows, row.oldLicenses = Scope.licensesOf pools ∧
          row.newLicenses = min unsignedMax (Scope.licensesOf pools') ∧
          (store'.inventory scopes (.computedLicenses top.id top.typeName rule)
              = .ok row.newLicenses ↔
            Scope.licensesOf pools' ≤ unsignedMax)) := by
  obtain ⟨f', hs⟩ := sound_of_visible (hvisible ▸ List.mem_singleton_self s)
  cases hs.types_eq.symm.trans hforest
  -- whatever the forecast says, the fleet with the values proposed is served
  obtain ⟨store', hstore', hvisible'⟩ := reload_overwrite hvisible hname hscope b.id new
  refine ⟨store', hstore', fun hrows => ?_⟩
  have hresult := Inquiry.result_of_run_eq_ok hok
  unfold inventory at hresult
  rw [hvisible] at hresult
  obtain ⟨basis, hbasis, ⟨-, hnone⟩ | ⟨products, -, hsome⟩⟩ := Request.forecast_eq_ok.mp hresult
  · exact absurd hnone hrows
  obtain ⟨hbase, chain, root, rfl, hroot, hchainTop, hchainRoot⟩ := Request.basis_eq hs hlinked
    hmetric hrule hmetricName hfamily hb htop hsides hold hnew hbasis
  have hbMem := (Scope.mem_of_asset? hb).1
  have htopMem := Scope.mem_of_ascend hbMem htop
  obtain ⟨totals, htotals, -⟩ := Basis.rows_eq_ok.mp hsome
  obtain ⟨total, figures, htotal, hfigures, rfl⟩ := Basis.splice_eq hs htopMem
    (Scope.mem_of_ascend hbMem hroot) hchainTop hchainRoot htotals
  obtain ⟨pools, hpools, hfits, rfl⟩ := Scope.computedLicenses_eq_ok.mp htotal
  -- what is taken out of the sum in store is what the machine contributes there
  rw [Formula.contribution_congr hstored] at hold
  have hplaced := Metric.placed_of_rule (Forest.sound_of_ofTypes hforest).1 hrule
  obtain ⟨root', figures', pools', hroot', hfigures', hpools', hexchange⟩ :=
    Scope.licensesOf_overwrite hs hlinked hplaced hbMem hbase htop hold hnew hexact hpools
  cases hroot.symm.trans hroot'
  cases hfigures.symm.trans hfigures'
  -- the top is the same equipment before and after, so both totals are about it
  have hbefore := total_eq hvisible ⟨top, htopMem, rfl⟩ hpools
  have hafter := total_eq hvisible' ⟨_, List.mem_map_of_mem htopMem,
    Asset.toEquipment_overwrite b.id new top⟩ hpools'
  rw [if_pos hfits] at hbefore
  refine ⟨pools, pools', hpools, hpools', hbefore, hafter, fun row hrow => ?_⟩
  have hlicenses := @Basis.licensesAt_ops f m rule old new oldC newC chain hrule
  have hold : row.oldLicenses = Scope.licensesOf pools := by
    rw [Basis.eq_row_of_mem_rows hsome htotals hrow]
    exact hlicenses ..
  have hnew : row.newLicenses = min unsignedMax (Scope.licensesOf pools') := by
    rw [Basis.eq_row_of_mem_rows hsome htotals hrow]
    exact (hlicenses ..).trans (Formula.newTotal_of_exchange hexchange)
  refine ⟨hold, hnew, ?_⟩
  rw [hnew, hafter]
  split
  next hfits' => exact iff_of_true (congrArg _ (Nat.min_eq_right hfits').symm) hfits'
  next hfits' => exact iff_of_false nofun hfits'

/-! ### Two clusters -/

namespace TwoClusters

/-- One core count, observed or proposed. -/
def readings (cores : Float) : Readings := Dictionary.empty.insert "c" ⟨"cores", .float cores, true⟩

/-- The first server is to have one core. -/
def toOneCore (cores : Float) : Request where
  typeName := "server"
  equipmentId := "s"
  familyText := "OPS"
  metricName := "processors"
  overrides := [⟨"c", "cores", .float, true, some (.float 1.0), some (.float cores)⟩]

/-- The first server is to have three million cores in place of two. -/
def toManyCores : Request :=
  { toOneCore 2.0 with
    overrides := [⟨"c", "cores", .float, true, some (.float 3000000.0), some (.float 2.0)⟩] }

/-- The two cores observed are those in store. -/
private theorem stored : ∀ field ∈ [rule.cores, rule.cpus, rule.coreFactor],
    (readings 2.0).number field = (server 2.0).readings.number field := by
  intro field hfield
  have hcores : field = TwoClusters.cores := by
    simpa [rule] using hfield
  rw [hcores]
  rfl

/-- One core in place of two makes an exact exchange. -/
private theorem exact_oneCore :
    (scope 2.0).ExactExchange rule (asset "d" "datacenter" none) (server 2.0) (readings 1.0)
      (2.0 * 2.0 * 2.0) (1.0 * 1.0 * 1.0) :=
  Scope.exactExchange_of_check (by decide +kernel)

/-- So do three million of them. -/
private theorem exact_manyCores :
    (scope 2.0).ExactExchange rule (asset "d" "datacenter" none) (server 2.0) (readings 3000000.0)
      (2.0 * 2.0 * 2.0) (3000000.0 * 3000000.0 * 3000000.0) :=
  Scope.exactExchange_of_check (by decide +kernel)

/-- With one core twelve licences become five, as foretold.  With three million cores the largest
    number there is is foretold, and there is no total afterwards. -/
theorem forecast_firstServer :
    (∃ store', store.reload (store.fleet.overwrite "main" "s" (readings 1.0)) = .ok store' ∧
      (toOneCore 2.0).forecast.result (store.inventory ["main"]) none
        = .ok ⟨[.of "processors" ⟨"database", "db"⟩ 12 5]⟩ ∧
      store'.inventory ["main"] (.computedLicenses "d" "datacenter" rule) = .ok 5) ∧
    ∃ store', store.reload (store.fleet.overwrite "main" "s" (readings 3000000.0)) = .ok store' ∧
      toManyCores.forecast.result (store.inventory ["main"]) none
        = .ok ⟨[.of "processors" ⟨"database", "db"⟩ 12 unsignedMax]⟩ ∧
      store'.inventory ["main"] (.computedLicenses "d" "datacenter" rule) = .error .overflow := by
  constructor
  · have hok : ((toOneCore 2.0).forecast.run (.still (store.inventory ["main"])) 0).2
        = .ok ⟨[.of "processors" ⟨"database", "db"⟩ 12 5]⟩ := by
      decide +kernel
    -- one core less: the pools of the overwritten scope sum up to five
    have hafter : Scope.licensesOf <$> ((scope 2.0).overwrite "s" (readings 1.0)).poolSums "d" rule
        = .ok 5 := by
      decide +kernel
    obtain ⟨store', hstore', h⟩ := Store.forecast_predicts rfl List.mem_cons_self rfl ofTypes_types
      (by decide +kernel) List.mem_cons_self rule_metric rfl (by decide) rfl rfl rfl stored
      rfl rfl exact_oneCore hok
    obtain ⟨_, _, -, hpools', -, -, hrows⟩ := h nofun
    obtain ⟨_, hpools₀', hsum'⟩ := map_eq_ok.mp hafter
    cases hpools'.symm.trans hpools₀'
    have htotal := (hrows _ List.mem_cons_self).2.2
    rw [hsum'] at htotal
    exact ⟨store', hstore', hok, htotal.mpr (by decide)⟩
  · have hok : (toManyCores.forecast.run (.still (store.inventory ["main"])) 0).2
        = .ok ⟨[.of "processors" ⟨"database", "db"⟩ 12 unsignedMax]⟩ := by
      decide +kernel
    -- the pool of the other cluster takes the sum out of 64 bits
    have hafter : Scope.licensesOf <$>
        ((scope 2.0).overwrite "s" (readings 3000000.0)).poolSums "d" rule
          = .ok (unsignedMax + 4) := by
      decide +kernel
    obtain ⟨store', hstore', h⟩ := Store.forecast_predicts rfl List.mem_cons_self rfl ofTypes_types
      (by decide +kernel) List.mem_cons_self rule_metric rfl (by decide) rfl rfl rfl stored
      rfl rfl exact_manyCores hok
    obtain ⟨_, _, -, hpools', -, htotal, -⟩ := h nofun
    obtain ⟨_, hpools₀', hsum'⟩ := map_eq_ok.mp hafter
    cases hpools'.symm.trans hpools₀'
    rw [hsum', if_neg (by decide)] at htotal
    exact ⟨store', hstore', hok, htotal⟩

end TwoClusters

end LicenseForecast
