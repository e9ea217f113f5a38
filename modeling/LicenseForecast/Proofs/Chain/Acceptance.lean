import LicenseForecast.Proofs.Hierarchy

namespace LicenseForecast

/-!
# Which answers make a chain

A request takes an answer about the equipment above a machine from anywhere, so it may be too
short or too long, begin elsewhere or be of any types.  A chain is made of it only if its lower
end has one piece of equipment for each type on the way from the base type up to the end type
(`Chain.Matches`); that way is said by the types alone (`Forest.IsWay`).

* `PooledRule.isWay` — a rule counts the types on that way: there is one more of them than steps;
* `Chain.verdict_of_ofAnswer` — the six things that can become of an answer;
* `Chain.judges_of_rule` — hence which answers make a chain and what its places hold, which are
  never beyond its end, and what is said of the answers that make none.
-/

/-! ### The types on a way up -/

/-- The types on the way from one type up to another, both included: each names the next one as
    its parent. -/
structure Forest.IsWay (types : List EquipmentType) (lower upper : EquipmentType)
    (way : List EquipmentType) : Prop where
  starts : way.head? = some lower
  ends : way.getLast? = some upper
  climbs : way.IsChain (Forest.NamesParent types)
  listed : ∀ t ∈ way, t ∈ types

/-- The types from the base type of a rule up to its end type. -/
def PooledRule.way (f : Forest) (rule : PooledRule) : List EquipmentType :=
  ((f.ancestors rule.baseIndex).take (rule.topOffset + 1)).map fun i => (f.get? i).getD default

/-- A chain is expected to be of the types on the way. -/
theorem Chain.typeNames_eq (f : Forest) (rule : PooledRule) :
    typeNames f rule = (rule.way f).map (·.name) := by
  unfold typeNames PooledRule.way
  rw [List.map_map]
  refine List.map_congr_left fun i _ => ?_
  show ((f.get? i).map (·.name)).getD "" = ((f.get? i).getD default).name
  cases f.get? i <;> rfl

section

variable {types : List EquipmentType} {f : Forest} (hf : Forest.ofTypes types = .ok f)
  {family : Family} {users : Option Nat} {m : PooledMetric} {rule : PooledRule}
  (hfits : m.Fits f family users rule)

include hfits

/-- A way has the base type and one type for each level above it. -/
theorem PooledRule.length_way : (rule.way f).length = rule.topOffset + 1 := by
  rw [← Chain.length_typeNames_of_fits hfits, Chain.typeNames_eq, List.length_map]

include hf

/-- The type at a place on the way is so many steps above the base type. -/
theorem PooledRule.getElem?_way {k : Nat} (hk : k ≤ rule.topOffset) :
    ∃ i t, f.ascend k rule.baseIndex = some i ∧ f.get? i = some t ∧
      (rule.way f)[k]? = some t := by
  have hbase := Forest.lt_length_of_indexOfId? hf hfits.base_index
  obtain ⟨i, t, hi, ht, -⟩ := hfits.level hf hk
  refine ⟨i, t, hi, ht, ?_⟩
  unfold PooledRule.way
  rw [List.getElem?_map, List.getElem?_take_of_lt (Nat.lt_succ_of_le hk),
    Forest.getElem?_ancestors hf hbase, hi, Option.map_some, ht, Option.getD_some]

/-- The type so many steps above the base type is at that place on the way. -/
theorem PooledRule.getElem?_way_of_distance {k i : Nat} {id : String} {t : EquipmentType}
    (hk : k ≤ rule.topOffset) (hdistance : f.distance rule.baseIndex i = some k)
    (hid : f.indexOfId? id = some i) (ht : t = (f.get? i).getD default) :
    (rule.way f)[k]? = some t := by
  obtain ⟨j, u, hj, hu, hway⟩ := PooledRule.getElem?_way hf hfits hk
  cases hj.symm.trans (Forest.ascend_of_distance hdistance)
  rwa [Option.some.inj ((Forest.get?_of_getD hid ht).symm.trans hu)]

/-- **The way of a rule** leads from its base type up to its end type. -/
theorem PooledRule.isWay : Forest.IsWay types rule.base rule.top (rule.way f) := by
  have hrep := Forest.represents_of_ofTypes hf
  have hlength := PooledRule.length_way hfits
  constructor
  case starts =>
    obtain ⟨i, t, hi, ht, hway⟩ := PooledRule.getElem?_way hf hfits (Nat.zero_le _)
    cases hi
    rw [List.head?_eq_getElem?, hway, hfits.base_eq, ht, Option.getD_some]
  case ends =>
    obtain ⟨i, _, htop, htopType, hdistance, -, -⟩ := hfits.exists_top
    rw [List.getLast?_eq_getElem?, hlength, Nat.add_sub_cancel]
    exact PooledRule.getElem?_way_of_distance hf hfits (Nat.le_refl _) hdistance htop htopType
  case climbs =>
    rw [List.isChain_iff_getElem]
    intro k hk
    -- one step further is one type up
    obtain ⟨i, t, hi, ht, hway⟩ := PooledRule.getElem?_way hf hfits (k := k) (by omega)
    obtain ⟨j, p, hj, hp, hnext⟩ := PooledRule.getElem?_way hf hfits (k := k + 1) (by omega)
    rw [Forest.ascend_add, hi, Option.bind_some, Forest.ascend_one] at hj
    obtain ⟨t', p', ht', hp', hparent⟩ := (hrep.parentOf i j).mp hj
    cases ((hrep.get? i).symm.trans ht).symm.trans ht'
    cases ((hrep.get? j).symm.trans hp).symm.trans hp'
    rw [(List.getElem?_eq_some_iff.mp hway).2, (List.getElem?_eq_some_iff.mp hnext).2]
    exact ⟨List.mem_of_getElem? ht', List.mem_of_getElem? hp', hparent⟩
  case listed =>
    intro t ht
    obtain ⟨k, hk, rfl⟩ := List.getElem_of_mem ht
    obtain ⟨i, t, -, ht, hway⟩ := PooledRule.getElem?_way hf hfits (k := k) (by omega)
    rw [(List.getElem?_eq_some_iff.mp hway).2]
    exact List.mem_of_getElem? ((hrep.get? i).symm.trans ht)

end

namespace Chain

/-! ### What becomes of an answer -/

/-- An answer has the equipment asked about at its lower end, and from there on one piece of
    equipment for each type on a way. -/
structure Matches (way : List EquipmentType) (id : String) (found : List Equipment) : Prop where
  long : way.length ≤ found.length
  starts : found.head?.map (·.id) = some id
  typed : (found.take way.length).map (·.typeName) = way.map (·.name)

/-- Place `k` of an answer is the first one that is not of the type at its place on a way. -/
structure Strays (way : List EquipmentType) (found : List Equipment) (k : Nat) (link : Equipment)
    (t : EquipmentType) : Prop where
  link_eq : found[k]? = some link
  type_eq : way[k]? = some t
  ne_name : link.typeName ≠ t.name
  below : ∀ l < k, found[l]?.map (·.typeName) = way[l]?.map (·.name)

/-- What can become of an answer about the equipment above `id`. -/
inductive Verdict (rule : PooledRule) (way : List EquipmentType) (id typeName : String) :
    Except LookupFault (List Equipment) → Except Failure Chain → Prop where
  | missing {fault : LookupFault} (h : fault = .notFound ∨ fault = .noData) :
    Verdict rule way id typeName (.error fault) (.error (.unknownEquipment id typeName))
  | failed {fault : LookupFault} (hfound : fault ≠ .notFound) (hdata : fault ≠ .noData) :
    Verdict rule way id typeName (.error fault) (.error (.lookup .hierarchy fault))
  | short {found : List Equipment} (h : found.length < way.length) :
    Verdict rule way id typeName (.ok found) (.error (.unknownEquipment id typeName))
  | elsewhere {found : List Equipment} (hlong : way.length ≤ found.length)
      (h : found.head?.map (·.id) ≠ some id) :
    Verdict rule way id typeName (.ok found) (.error (.unknownEquipment id typeName))
  | strays {found : List Equipment} {k : Nat} {link : Equipment} {t : EquipmentType}
      (hlong : way.length ≤ found.length) (hstarts : found.head?.map (·.id) = some id)
      (h : Strays way found k link t) :
    Verdict rule way id typeName (.ok found)
      (.error (.lookup .hierarchy (strangerFault link t.name)))
  | accepted {found : List Equipment} (h : Matches way id found) :
    Verdict rule way id typeName (.ok found)
      (.ok ⟨found.take way.length, rule.aggregateOffset, min maxDepth (rule.depth + 1)⟩)

variable {f : Forest} {rule : PooledRule} {way : List EquipmentType} {id typeName : String}
  {answer : Except LookupFault (List Equipment)} {result : Except Failure Chain}

/-- A stranger among the links is where the answer leaves the way. -/
theorem strays_of_stranger? {found : List Equipment} {link : Equipment} {expected : String}
    (h : stranger? (found.take way.length) (way.map (·.name)) = some (link, expected)) :
    ∃ k t, Strays way found k link t ∧ t.name = expected := by
  obtain ⟨k, hlink, hname, hne, hbelow⟩ := stranger?_eq_some h
  rw [List.getElem?_map] at hname
  obtain ⟨t, ht, rfl⟩ := Option.map_eq_some_iff.mp hname
  have hk : k < way.length := (List.getElem?_eq_some_iff.mp ht).1
  rw [List.getElem?_take_of_lt hk] at hlink
  refine ⟨k, t, ⟨hlink, ht, hne, fun l hl => ?_⟩, rfl⟩
  rw [← List.getElem?_take_of_lt (Nat.lt_trans hl hk), hbelow l hl, List.getElem?_map]

/-- **One of six things becomes of an answer**, whatever it is. -/
theorem verdict_of_ofAnswer (hway : way ≠ []) (hnames : typeNames f rule = way.map (·.name))
    (answer : Except LookupFault (List Equipment)) :
    Verdict rule way id typeName answer (ofAnswer f rule id typeName answer) := by
  cases answer with
  | error fault =>
    cases fault with
    | notFound => exact .missing (.inl rfl)
    | noData => exact .missing (.inr rfl)
    | backend text => exact .failed nofun nofun
    | malformed text => exact .failed nofun nofun
    | endless => exact .failed nofun nofun
    | overflow => exact .failed nofun nofun
  | ok found =>
    -- the way is not empty, so the first link is the first piece of the answer
    have hhead : (found.take way.length).head? = found.head? := by
      rw [List.head?_eq_getElem?, List.head?_eq_getElem?,
        List.getElem?_take_of_lt (List.length_pos_iff.mpr hway)]
    unfold ofAnswer
    simp only [hnames, List.length_map, hhead, bne_iff_ne, ne_eq]
    by_cases hshort : found.length < way.length
    · rw [if_pos hshort]
      exact .short hshort
    rw [if_neg hshort]
    have hlong := Nat.not_lt.mp hshort
    by_cases hstarts : found.head?.map (·.id) = some id
    · rw [if_neg (not_not.mpr hstarts)]
      cases hstranger : stranger? (found.take way.length) (way.map (·.name)) with
      | none =>
        have htyped := (stranger?_eq_none (by simpa using hlong)).mp hstranger
        exact .accepted ⟨hlong, hstarts, htyped⟩
      | some stranger =>
        obtain ⟨link, expected⟩ := stranger
        obtain ⟨k, t, hstrays, rfl⟩ := strays_of_stranger? hstranger
        exact .strays hlong hstarts hstrays
    · rw [if_pos hstarts]
      exact .elsewhere hlong hstarts

/-- An answer that leaves a way does not match it. -/
theorem Strays.not_matches {found : List Equipment} {k : Nat} {link : Equipment}
    {t : EquipmentType} (h : Strays way found k link t) : ¬ Matches way id found := by
  intro hmatches
  have hk : k < way.length := (List.getElem?_eq_some_iff.mp h.type_eq).1
  have hplace := congrArg (·[k]?) hmatches.typed
  simp only [List.getElem?_map, List.getElem?_take_of_lt hk, h.link_eq, h.type_eq,
    Option.map_some, Option.some.injEq] at hplace
  exact h.ne_name hplace

/-! ### Which answers make a chain -/

/-- What the places of a chain hold that was made of an answer.  Each of them is a place of its
    list of links. -/
structure Holds (rule : PooledRule) (id : String) (found : List Equipment) (chain : Chain) :
    Prop where
  links : chain.links = found.take (rule.topOffset + 1)
  length : chain.links.length = rule.topOffset + 1
  base : chain.links[0]? = some chain.base ∧ chain.base.id = id ∧
    chain.base.typeName = rule.base.name
  aggregate : chain.links[chain.aggregateOffset]? = some chain.aggregate ∧
    chain.aggregate.typeName = rule.aggregate.name
  top : chain.links[chain.links.length - 1]? = some chain.top ∧
    chain.top.typeName = rule.top.name

/-- What is made of an answer about the equipment above `id`, `way` being the types from the base
    type up to the end type. -/
structure Judges (rule : PooledRule) (way : List EquipmentType) (id typeName : String)
    (answer : Except LookupFault (List Equipment)) (result : Except Failure Chain) : Prop where
  accepted : (∃ chain, result = .ok chain) ↔ ∃ found, answer = .ok found ∧ Matches way id found
  holds : ∀ chain, result = .ok chain → ∃ found, answer = .ok found ∧ Holds rule id found chain
  /-- The first link is looked at only if there is one. -/
  first : ∀ found, answer = .ok found → way.length ≤ found.length →
    ∃ link, (found.take way.length)[0]? = some link
  unknown : result = .error (.unknownEquipment id typeName) ↔
    answer = .error .notFound ∨ answer = .error .noData ∨
      ∃ found, answer = .ok found ∧
        (found.length < rule.topOffset + 1 ∨ found.head?.map (·.id) ≠ some id)
  /-- An answer about this equipment that is long enough is malformed where it leaves the way. -/
  strays : ∀ found, answer = .ok found → rule.topOffset + 1 ≤ found.length →
    found.head?.map (·.id) = some id →
    (found.take way.length).map (·.typeName) ≠ way.map (·.name) →
    ∃ k link t, Strays way found k link t ∧
      result = .error (.lookup .hierarchy
        (.malformed s!"equipment {link.id} has type {link.typeName}, expected {t.name}"))
  failed : ∀ fault, answer = .error fault → fault ≠ .notFound → fault ≠ .noData →
    result = .error (.lookup .hierarchy fault)

/-- The link at a place of a chain is of the type at that place on the way. -/
theorem Matches.link {found : List Equipment} (h : Matches way id found) {k : Nat}
    {t : EquipmentType} (ht : way[k]? = some t) {chain : Chain}
    (hchain : chain.links = found.take way.length) :
    chain.links[k]? = some (chain.link k) ∧ (chain.link k).typeName = t.name := by
  have hplace := congrArg (·[k]?) h.typed
  simp only [List.getElem?_map, ht, Option.map_some] at hplace
  obtain ⟨link, hlink, htype⟩ := Option.map_eq_some_iff.mp hplace
  unfold Chain.link
  rw [hchain, hlink]
  exact ⟨rfl, htype⟩

section

variable {types : List EquipmentType} (hf : Forest.ofTypes types = .ok f)
  {family : Family} {users : Option Nat} {m : PooledMetric} (hfits : m.Fits f family users rule)

include hf hfits

/-- **The places of a chain** that was made of an answer. -/
theorem Matches.holds {found : List Equipment} (h : Matches (rule.way f) id found) {chain : Chain}
    (hlinks : chain.links = found.take (rule.way f).length)
    (hoffset : chain.aggregateOffset = rule.aggregateOffset) : Holds rule id found chain := by
  have hlength := PooledRule.length_way hfits
  have hcount : chain.links.length = rule.topOffset + 1 := by
    rw [hlinks, List.length_take, Nat.min_eq_left h.long, hlength]
  obtain ⟨_, _, htop, htopType, htopDistance, -, -⟩ := hfits.exists_top
  obtain ⟨_, haggregate, haggregateType, haggregateDistance⟩ := hfits.exists_aggregate
  constructor
  case links => rw [hlinks, hlength]
  case length => exact hcount
  case base =>
    have hbase := (PooledRule.isWay hf hfits).starts
    rw [List.head?_eq_getElem?] at hbase
    obtain ⟨hlink, htype⟩ := h.link hbase hlinks
    refine ⟨hlink, ?_, htype⟩
    -- the first link is the first piece of the answer, which was asked about
    have hstarts := h.starts
    rw [hlinks, List.getElem?_take_of_lt (by omega), ← List.head?_eq_getElem?] at hlink
    rw [hlink] at hstarts
    exact Option.some.inj hstarts
  case aggregate =>
    unfold Chain.aggregate
    rw [hoffset]
    exact h.link (PooledRule.getElem?_way_of_distance hf hfits hfits.aggregate_le_top
      haggregateDistance haggregate haggregateType) hlinks
  case top =>
    unfold Chain.top
    rw [hcount, Nat.add_sub_cancel]
    exact h.link (PooledRule.getElem?_way_of_distance hf hfits (Nat.le_refl _) htopDistance htop
      htopType) hlinks

/-- What a verdict says of an answer. -/
theorem Verdict.judges (h : Verdict rule (rule.way f) id typeName answer result) :
    Judges rule (rule.way f) id typeName answer result := by
  have hlength := PooledRule.length_way hfits
  constructor
  case accepted =>
    constructor
    · rintro ⟨chain, rfl⟩
      cases h with
      | accepted h => exact ⟨_, rfl, h⟩
    · rintro ⟨found, rfl, hmatches⟩
      cases h with
      | short h => exact absurd hmatches.long (Nat.not_le.mpr h)
      | elsewhere _ h => exact absurd hmatches.starts h
      | strays _ _ h => exact absurd hmatches h.not_matches
      | accepted h => exact ⟨_, rfl⟩
  case holds =>
    rintro chain rfl
    cases h with
    | accepted h => exact ⟨_, rfl, h.holds hf hfits rfl rfl⟩
  -- the links that count include the first one, so there is a first one
  case first =>
    intro found _ hlong
    refine ⟨_, List.getElem?_eq_getElem ?_⟩
    rw [List.length_take]
    omega
  case unknown =>
    rw [← hlength]
    constructor
    · rintro rfl
      cases h with
      | missing h => exact h.imp (congrArg _) fun h => .inl (congrArg _ h)
      | short h => exact .inr (.inr ⟨_, rfl, .inl h⟩)
      | elsewhere _ h => exact .inr (.inr ⟨_, rfl, .inr h⟩)
    · rintro (rfl | rfl | ⟨found, rfl, hwhy⟩)
      · cases h with
        | missing => rfl
        | failed h => exact absurd rfl h
      · cases h with
        | missing => rfl
        | failed _ h => exact absurd rfl h
      · cases h with
        | short => rfl
        | elsewhere => rfl
        | strays hlong hstarts =>
          exact hwhy.elim (absurd hlong <| Nat.not_le.mpr ·) (absurd hstarts)
        | accepted h => exact hwhy.elim (absurd h.long <| Nat.not_le.mpr ·) (absurd h.starts)
  case strays =>
    rw [← hlength]
    rintro found rfl hlong hstarts htyped
    cases h with
    | short h => exact absurd hlong (Nat.not_le.mpr h)
    | elsewhere _ h => exact absurd hstarts h
    | strays _ _ h => exact ⟨_, _, _, h, rfl⟩
    | accepted h => exact absurd h.typed htyped
  case failed =>
    rintro fault rfl hfound hdata
    cases h with
    | missing h => exact absurd h (not_or.mpr ⟨hfound, hdata⟩)
    | failed => rfl

end

/-- **Any answer about the equipment above a machine is judged by the types on the way** from the
    base type up to the end type of a rule, in a request that is not interrupted.  One question is
    asked; whatever comes of it, a chain is made exactly of the answers that match the way, and
    every place of the chain holds what it should. -/
theorem judges_of_rule {types : List EquipmentType} (hf : Forest.ofTypes types = .ok f)
    {metric : Metric} (hrule : metric.rule f = .ok (.pooled rule)) (id typeName : String)
    (world : Inquiry.World) (asked : Nat) (hgoing : world.interruption asked = none) :
    ∃ way result, Forest.IsWay types rule.base rule.top way ∧
      way.length = rule.topOffset + 1 ∧ way[rule.aggregateOffset]? = some rule.aggregate ∧
      (above f rule id typeName).run world asked
        = ([.hierarchy id typeName rule.depth], result) ∧
      Judges rule way id typeName
        (world.inventory asked (.hierarchy id typeName rule.depth)) result := by
  obtain ⟨m, users, -, hfits⟩ := Metric.fits_of_rule hrule
  obtain ⟨_, haggregate, haggregateType, haggregateDistance⟩ := hfits.exists_aggregate
  -- there is at least the base type on the way
  have hway : rule.way f ≠ [] := by
    rw [← List.length_pos_iff, PooledRule.length_way hfits]
    exact Nat.succ_pos _
  -- without an interruption the only question is asked, and its answer decides
  have hrun : (above f rule id typeName).run world asked = ([.hierarchy id typeName rule.depth],
      ofAnswer f rule id typeName
        (world.inventory asked (.hierarchy id typeName rule.depth))) := by
    show (Inquiry.checkpoint _).run world asked = _
    unfold Inquiry.run
    rw [hgoing]
    rfl
  refine ⟨rule.way f, _, PooledRule.isWay hf hfits, PooledRule.length_way hfits, ?_, hrun, ?_⟩
  · exact PooledRule.getElem?_way_of_distance hf hfits hfits.aggregate_le_top haggregateDistance
      haggregate haggregateType
  · exact (verdict_of_ofAnswer hway (typeNames_eq f rule) _).judges hf hfits

end Chain

/-! ### Answers about a server -/

namespace TwoClusters

/-- A world in which all that is known is the equipment above a machine. -/
def worldOf (answer : Except LookupFault (List Equipment)) : Inquiry.World :=
  .still fun
    | .hierarchy .. => answer
    | _ => .error .noData

/-- A server in a cluster of a data centre, on some continent. -/
def aboveServer : List Equipment :=
  [⟨"s", "server", some "b"⟩, ⟨"b", "cluster", some "d"⟩, ⟨"d", "datacenter", none⟩,
    ⟨"x", "continent", none⟩]

/-- An answer that is too long makes a chain; one that is too short makes none, and neither does
    one that begins above the machine. -/
theorem judges_aboveServer :
    (∃ chain, ((Chain.above forest rule "s" "server").run (worldOf (.ok aboveServer)) 0).2
        = .ok chain ∧ chain.links.length = 3 ∧ chain.base.id = "s" ∧
      chain.aggregate.typeName = "cluster" ∧ chain.top.typeName = "datacenter") ∧
    ((Chain.above forest rule "s" "server").run (worldOf (.ok (aboveServer.take 2))) 0).2
      = .error (.unknownEquipment "s" "server") ∧
    ((Chain.above forest rule "s" "server").run (worldOf (.ok (aboveServer.drop 1))) 0).2
      = .error (.unknownEquipment "s" "server") := by
  have hjudges := fun answer => Chain.judges_of_rule ofTypes_types rule_metric "s" "server"
    (worldOf answer) 0 rfl
  refine ⟨?_, ?_, ?_⟩
  · obtain ⟨_, result, -, -, -, hrun, h⟩ := hjudges (.ok aboveServer)
    have hresult := congrArg Prod.snd hrun
    have hchain : ((Chain.above forest rule "s" "server").run (worldOf (.ok aboveServer)) 0).2
        = .ok ⟨aboveServer.take 3, 1, 3⟩ := by
      decide +kernel
    obtain ⟨_, -, hholds⟩ := h.holds _ (hresult.symm.trans hchain)
    -- the verdict on an accepted answer holds what the base, the pool and the top are
    exact ⟨_, hchain, hholds.length, hholds.base.2.1, hholds.aggregate.2, hholds.top.2⟩
  · obtain ⟨_, _, -, -, -, hrun, h⟩ := hjudges (.ok (aboveServer.take 2))
    -- two links do not reach the end type
    have hshort := h.unknown.mpr (.inr (.inr ⟨_, rfl, .inl (by decide)⟩))
    exact (congrArg Prod.snd hrun).trans hshort
  · obtain ⟨_, _, -, -, -, hrun, h⟩ := hjudges (.ok (aboveServer.drop 1))
    -- enough links are left, but the first of them is the cluster
    have helsewhere := h.unknown.mpr (.inr (.inr ⟨_, rfl, .inr (by decide)⟩))
    exact (congrArg Prod.snd hrun).trans helsewhere

end TwoClusters

end LicenseForecast
