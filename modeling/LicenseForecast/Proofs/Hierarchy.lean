import LicenseForecast.Proofs.Chain
import LicenseForecast.Proofs.Equipment.Ancestry
import LicenseForecast.Proofs.Fleet.Agreement
import LicenseForecast.Proofs.Inquiry.Result

namespace LicenseForecast

/-!
# Chains in a store

A store cuts its answer about the equipment above a machine by the levels between the start type
of a metric and its end type, whereas a chain has the levels between the base type and the end
type.  The base type lies at or above the start type, so nothing is cut off that a chain needs
(`PooledMetric.Fits.top_le_depth`).  What becomes of a chain is then said by the links of the
scope that is asked:

* `Chain.followsPath_iff` — the links are of the expected types exactly if the way up from the
  machine follows the types of the forest from the base type to the end type;
* `Chain.ofAnswer_hierarchy` — the chain that comes of the answer of a scope;
* `Store.chainAbove_outcome` — the four ways in which a search for a chain ends in a store;
* `Store.resolves_of_rule` — hence when a chain is found, which links it has, and which failure
  there is otherwise.  All of it holds for any links, in circles as well.
-/

/-! ### Levels -/

namespace Scope

variable {s : Scope}

/-- An asset is held with the type that it has. -/
theorem holds_iff {id typeName : String} :
    s.holds id typeName = true ↔ ∃ b, s.asset? id = some b ∧ b.typeName = typeName := by
  unfold holds
  simp only [Option.any_eq_true, beq_iff_eq]

/-- A shorter way up is the beginning of a longer one. -/
theorem take_climb {m n : Nat} (h : m ≤ n) (a : Asset) : (s.climb n a).take m = s.climb m a := by
  refine List.ext_getElem? fun k => ?_
  rw [List.getElem?_take]
  split
  next hk => rw [getElem?_climb (Nat.lt_of_lt_of_le hk h), getElem?_climb hk]
  next hk =>
    have hover : (s.climb m a).length ≤ k := Nat.le_trans (s.length_climb_le m a) (Nat.not_lt.mp hk)
    exact (List.getElem?_eq_none hover).symm

/-- A climb is as long as the way up, as far as its bound. -/
theorem lt_length_climb_iff {n k : Nat} (h : k < n) {a : Asset} :
    k < (s.climb n a).length ↔ (s.ascend k a).isSome := by
  rw [← getElem?_climb h, isSome_getElem?]

/-- Along a climb each asset names the next one as its parent. -/
theorem isChain_climb (n : Nat) (a : Asset) :
    (s.climb n a).IsChain fun lower upper => lower.parentId = some upper.id := by
  induction n generalizing a with
  | zero => exact .nil
  | succ n ih =>
    rw [climb]
    cases hparent : s.parentOf a with
    | none => exact .singleton a
    | some p =>
      cases n with
      | zero => exact .singleton a
      | succ n => exact .cons_cons (mem_of_parentOf hparent).1 (ih p)

/-- The asset `k` links above an asset exists, and it is of the type `k` levels above the base type
    of a rule. -/
def FitsLevel (s : Scope) (f : Forest) (rule : PooledRule) (b : Asset) (k : Nat) : Prop :=
  ∃ a i t, s.ascend k b = some a ∧ f.ascend k rule.baseIndex = some i ∧ f.get? i = some t ∧
    a.typeName = t.name

/-- The way up from an asset follows the types of the forest from the base type of a rule to its
    end type. -/
def FollowsPath (s : Scope) (f : Forest) (rule : PooledRule) (b : Asset) : Prop :=
  ∀ k ≤ rule.topOffset, s.FitsLevel f rule b k

/-- Of the way up from an asset the asset `a`, which is `k` links above, is the first one that is
    not of the type of its level, which is `t`. -/
structure LeavesPath (s : Scope) (f : Forest) (rule : PooledRule) (b : Asset) (k : Nat) (a : Asset)
    (t : EquipmentType) : Prop where
  le_top : k ≤ rule.topOffset
  below : ∀ l < k, s.FitsLevel f rule b l
  ascend_eq : s.ascend k b = some a
  level : ∃ i, f.ascend k rule.baseIndex = some i ∧ f.get? i = some t
  ne_name : a.typeName ≠ t.name

end Scope

/-! ### What the levels of a rule are like -/

section

variable {types : List EquipmentType} {f : Forest} (hf : Forest.ofTypes types = .ok f)

include hf

/-- A type that is found has a place in the list. -/
theorem Forest.lt_length_of_indexOfId? {id : String} {i : Nat} (h : f.indexOfId? id = some i) :
    i < types.length := by
  obtain ⟨_, ht, -⟩ := ((represents_of_ofTypes hf).indexOfId? id i).mp h
  exact (List.getElem?_eq_some_iff.mp ht).1

variable {family : Family} {users : Option Nat} {m : PooledMetric} {rule : PooledRule}
  (hfits : m.Fits f family users rule)

include hfits

/-- **An answer never ends below the end type** for its bound: the base type lies at or above the
    start type, and is no further from the end type. -/
theorem PooledMetric.Fits.top_le_depth : rule.topOffset ≤ rule.depth := by
  obtain ⟨start, hstart, hbelow⟩ := hfits.exists_start
  obtain ⟨_, start', -, -, htop, hstart', hdepth⟩ := hfits.exists_top
  cases hstart.symm.trans hstart'
  obtain ⟨n, hn⟩ := Option.isSome_iff_exists.mp hbelow
  have hsum := Forest.distance_add hf (Forest.lt_length_of_indexOfId? hf hstart) hn htop
  have heq : n + rule.topOffset = rule.depth := Option.some.inj (hsum.symm.trans hdepth)
  omega

/-- Each level of a rule has a type, and a chain expects its name there. -/
theorem PooledMetric.Fits.level {k : Nat} (hk : k ≤ rule.topOffset) :
    ∃ i t, f.ascend k rule.baseIndex = some i ∧ f.get? i = some t ∧
      (Chain.typeNames f rule)[k]? = some t.name := by
  have hbase := Forest.lt_length_of_indexOfId? hf hfits.base_index
  obtain ⟨top, _, -, -, htop, -, -⟩ := hfits.exists_top
  have hsome : (f.ascend k rule.baseIndex).isSome :=
    Forest.isSome_ascend_of_le hk (by rw [Forest.ascend_of_distance htop]; rfl)
  -- the type chain reaches the end type, so it has every level below
  obtain ⟨i, hi⟩ := Option.isSome_iff_exists.mp hsome
  obtain ⟨t, ht⟩ : ∃ t, f.get? i = some t := by
    rw [(Forest.represents_of_ofTypes hf).get?]
    exact ⟨_, List.getElem?_eq_getElem (Forest.lt_of_ascend hf hbase hi)⟩
  refine ⟨i, t, hi, ht, ?_⟩
  unfold Chain.typeNames
  rw [List.getElem?_map, List.getElem?_take_of_lt (Nat.lt_succ_of_le hk),
    Forest.getElem?_ancestors hf hbase, hi, Option.map_some]
  unfold Forest.nameOf
  rw [ht]
  rfl

end

namespace Chain

/-! ### The first link of another type -/

/-- **A stranger is the first link that is not of the expected type.** -/
theorem stranger?_eq_some {links : List Equipment} {names : List String} {link : Equipment}
    {expected : String} (h : stranger? links names = some (link, expected)) :
    ∃ k : Nat, links[k]? = some link ∧ names[k]? = some expected ∧ link.typeName ≠ expected ∧
      ∀ l < k, links[l]?.map Equipment.typeName = names[l]? := by
  induction links generalizing names with
  | nil => cases h
  | cons first links ih =>
    cases names with
    | nil => cases h
    | cons name names =>
      rw [stranger?] at h
      split at h
      next heq =>
        obtain ⟨k, hlink, hname, hne, hbelow⟩ := ih h
        refine ⟨k + 1, hlink, hname, hne, fun l hl => ?_⟩
        -- the links below the first stranger are those the recursion passed
        cases l with
        | zero => exact congrArg some heq
        | succ l => exact hbelow l (Nat.lt_of_succ_lt_succ hl)
      next hne =>
        cases h
        exact ⟨0, rfl, rfl, hne, fun l hl => absurd hl l.not_lt_zero⟩

section

variable {types : List EquipmentType} {f : Forest} (hf : Forest.ofTypes types = .ok f)
  {family : Family} {users : Option Nat} {m : PooledMetric} {rule : PooledRule}
  (hfits : m.Fits f family users rule) {s : Scope} {b : Asset}

/-- The equipment from an asset up to the level of the end type. -/
def linksAbove (s : Scope) (rule : PooledRule) (b : Asset) : List Equipment :=
  (s.climb (rule.topOffset + 1) b).map (·.toEquipment)

/-- The chain above an asset. -/
def chainOf (s : Scope) (rule : PooledRule) (b : Asset) : Chain :=
  ⟨linksAbove s rule b, rule.aggregateOffset, min maxDepth (rule.depth + 1)⟩

/-- Link `k` is the asset so many steps above. -/
theorem getElem?_linksAbove {k : Nat} (hk : k ≤ rule.topOffset) :
    (linksAbove s rule b)[k]? = (s.ascend k b).map (·.toEquipment) := by
  unfold linksAbove
  rw [List.getElem?_map, Scope.getElem?_climb (Nat.lt_succ_of_le hk)]

/-- There are as many links as levels if the way up does not end before. -/
theorem length_linksAbove (h : s.ascend rule.topOffset b ≠ none) :
    (linksAbove s rule b).length = rule.topOffset + 1 := by
  have hlong : rule.topOffset < (s.climb (rule.topOffset + 1) b).length :=
    (Scope.lt_length_climb_iff (Nat.lt_succ_self _)).mpr (Option.isSome_iff_ne_none.mpr h)
  have hbound := s.length_climb_le (rule.topOffset + 1) b
  unfold linksAbove
  rw [List.length_map]
  omega

include hf hfits

/-- The link of a level is of the type that is expected there if it fits the level. -/
theorem fitsLevel_iff {k : Nat} (hk : k ≤ rule.topOffset) : s.FitsLevel f rule b k ↔
    (linksAbove s rule b)[k]?.map Equipment.typeName = (typeNames f rule)[k]? := by
  obtain ⟨i, t, hi, ht, hname⟩ := hfits.level hf hk
  rw [getElem?_linksAbove hk, hname, Option.map_map, Option.map_eq_some_iff]
  constructor
  · rintro ⟨a, i', t', ha, hi', ht', htype⟩
    cases hi.symm.trans hi'
    cases ht.symm.trans ht'
    exact ⟨a, ha, htype⟩
  · rintro ⟨a, ha, htype⟩
    exact ⟨a, i, t, ha, hi, ht, htype⟩

omit hf in

/-- A rule has a name for the base type and one for each level above it. -/
theorem length_typeNames_of_fits : (typeNames f rule).length = rule.topOffset + 1 := by
  obtain ⟨_, _, -, -, htop, -, -⟩ := hfits.exists_top
  exact length_typeNames htop

/-- **The links are of the expected types** exactly if the way up follows the forest. -/
theorem followsPath_iff : s.FollowsPath f rule b ↔
    (linksAbove s rule b).map (·.typeName) = typeNames f rule := by
  have hnames := length_typeNames_of_fits hfits
  constructor
  · intro hpath
    refine List.ext_getElem? fun k => ?_
    rw [List.getElem?_map]
    by_cases hk : k ≤ rule.topOffset
    · exact (fitsLevel_iff hf hfits hk).mp (hpath k hk)
    · -- above the end type there is neither a link nor a type
      have hlinks := s.length_climb_le (rule.topOffset + 1) b
      rw [List.getElem?_eq_none (by unfold linksAbove; rw [List.length_map]; omega),
        List.getElem?_eq_none (by omega)]
      rfl
  · intro heq k hk
    rw [fitsLevel_iff hf hfits hk, ← List.getElem?_map, heq]

/-- **The chain that comes of a scope's answer.** -/
theorem ofAnswer_hierarchy {id typeName : String} (hb : s.asset? id = some b) :
    ofAnswer f rule id typeName (.ok (s.hierarchy id rule.depth)) =
      if s.ascend rule.topOffset b = none then .error (.unknownEquipment id typeName)
      else
        match stranger? (linksAbove s rule b) (typeNames f rule) with
        | some (link, expected) => .error (.lookup .hierarchy (strangerFault link expected))
        | none => .ok (chainOf s rule b) := by
  have hnames := length_typeNames_of_fits hfits
  have hbound : rule.topOffset + 1 ≤ rule.depth + 1 := Nat.succ_le_succ (hfits.top_le_depth hf)
  have hlong := Scope.lt_length_climb_iff (s := s) (a := b) hbound
  unfold ofAnswer Scope.hierarchy
  simp only [hb, hnames, List.length_map, ← List.map_take, Scope.take_climb hbound]
  -- the answer is too short exactly if the way up ends before the top
  by_cases hover : s.ascend rule.topOffset b = none
  · have hshort : ¬ rule.topOffset < (s.climb (rule.depth + 1) b).length := by
      rw [hlong, hover]
      exact Bool.false_ne_true
    rw [if_pos (Nat.lt_succ_of_le (Nat.not_lt.mp hshort)), if_pos hover]
  -- a long answer starts at the asset asked about, so only the types are left to compare
  · have hsome := Option.isSome_iff_ne_none.mpr hover
    have hid : b.id = id := (Scope.mem_of_asset? hb).2
    have hhead : (((s.climb (rule.topOffset + 1) b).map (·.toEquipment)).head?.map (·.id))
        = some id := by
      rw [Scope.climb, List.map_cons, List.head?_cons]
      exact congrArg some hid
    rw [if_neg (Nat.not_lt.mpr (hlong.mpr hsome)), if_neg hover, hhead, if_neg (by simp)]
    rfl

end

end Chain

namespace Store

/-! ### Chains in a store -/

/-- The first visible scope that holds some equipment, and what it holds. -/
def Holds (store : Store) (scopes : List String) (id typeName : String) (s : Scope) (b : Asset) :
    Prop :=
  (store.visible scopes).find? (·.holds id typeName) = some s ∧ s.asset? id = some b

/-- The chain above some equipment of a rule's base type, as far as a store has one. -/
def chainAbove (store : Store) (scopes : List String) (f : Forest) (rule : PooledRule)
    (id : String) : Except Failure Chain :=
  (Chain.above f rule id rule.base.name).result (store.inventory scopes) none

/-- The ways in which a search for the chain above some equipment ends. -/
inductive Outcome (store : Store) (scopes : List String) (f : Forest) (rule : PooledRule)
    (id : String) : Except Failure Chain → Prop where
  | notHeld (h : (store.visible scopes).find? (·.holds id rule.base.name) = none) :
    Outcome store scopes f rule id (.error (.unknownEquipment id rule.base.name))
  /-- The links above the equipment end before the level of the end type. -/
  | ended {s : Scope} {b : Asset} (h : store.Holds scopes id rule.base.name s b)
      (hover : s.ascend rule.topOffset b = none) :
    Outcome store scopes f rule id (.error (.unknownEquipment id rule.base.name))
  | follows {s : Scope} {b : Asset} (h : store.Holds scopes id rule.base.name s b)
      (hpath : s.FollowsPath f rule b) :
    Outcome store scopes f rule id (.ok (Chain.chainOf s rule b))
  | leaves {s : Scope} {b : Asset} {k : Nat} {a : Asset} {t : EquipmentType}
      (h : store.Holds scopes id rule.base.name s b) (hleaves : s.LeavesPath f rule b k a t) :
    Outcome store scopes f rule id
      (.error (.lookup .hierarchy (Chain.strangerFault a.toEquipment t.name)))

/-- What the chain above some equipment comes to in a store. -/
structure Resolves (store : Store) (scopes : List String) (f : Forest) (rule : PooledRule)
    (id : String) : Prop where
  /-- There is a chain exactly if the way up in the scope that is asked follows the forest. -/
  found : (∃ chain, store.chainAbove scopes f rule id = .ok chain) ↔
    ∃ s b, store.Holds scopes id rule.base.name s b ∧ s.FollowsPath f rule b
  /-- Its links are the equipment of that scope level by level, each the parent of the one below. -/
  linked : ∀ chain, store.chainAbove scopes f rule id = .ok chain →
    ∃ s b, store.Holds scopes id rule.base.name s b ∧
      chain.links.length = rule.topOffset + 1 ∧
      (∀ k ≤ rule.topOffset, ∃ a ∈ s.assets, s.ascend k b = some a ∧
        chain.links[k]? = some a.toEquipment) ∧
      chain.links.IsChain fun lower upper => lower.parentId = some upper.id
  /-- The equipment is unknown exactly if no scope holds it or the links above it end too early. -/
  unknown : store.chainAbove scopes f rule id
      = .error (.unknownEquipment id rule.base.name) ↔
    (∀ s ∈ store.visible scopes, s.holds id rule.base.name = false) ∨
      ∃ s b, store.Holds scopes id rule.base.name s b ∧ s.ascend rule.topOffset b = none
  /-- In any other failure the first link of another type is named. -/
  malformed : ∀ failure, store.chainAbove scopes f rule id = .error failure →
    failure ≠ .unknownEquipment id rule.base.name →
    ∃ s b k a t, store.Holds scopes id rule.base.name s b ∧ s.LeavesPath f rule b k a t ∧
      failure = .lookup .hierarchy (Chain.strangerFault a.toEquipment t.name)
  /-- One question is asked, and no circle makes the answer any longer than its bound. -/
  bounded : ((Chain.above f rule id rule.base.name).run (.still (store.inventory scopes)) 0).1
      = [.hierarchy id rule.base.name rule.depth] ∧ rule.depth ≤ maxDepth ∧
    ∀ found, store.inventory scopes (.hierarchy id rule.base.name rule.depth) = .ok found →
      found.length ≤ rule.depth + 1

variable {store : Store} {scopes : List String} {id : String} {s : Scope} {b : Asset}

/-- Some equipment is held by a first scope or by none. -/
theorem holds_cases (store : Store) (scopes : List String) (id typeName : String) :
    (∃ s b, store.Holds scopes id typeName s b) ∨
      (store.visible scopes).find? (·.holds id typeName) = none := by
  cases hfind : (store.visible scopes).find? (·.holds id typeName) with
  | none => exact .inr rfl
  | some s =>
    have hholds := List.find?_some hfind
    obtain ⟨b, hb, -⟩ := Scope.holds_iff.mp hholds
    exact .inl ⟨s, b, hfind, hb⟩

/-- An asset that is held is answered for by its scope. -/
theorem Holds.inventory_hierarchy {typeName : String} (h : store.Holds scopes id typeName s b)
    (depth : Nat) : store.inventory scopes (.hierarchy id typeName depth)
      = .ok (s.hierarchy id depth) := by
  show Scope.anchored (store.visible scopes) id typeName _ = _
  rw [Scope.anchored, h.1]

/-- Without a scope that holds the asset it is not found. -/
theorem inventory_hierarchy_of_none {typeName : String}
    (h : (store.visible scopes).find? (·.holds id typeName) = none) {depth : Nat} :
    store.inventory scopes (.hierarchy id typeName depth) = .error .notFound := by
  show Scope.anchored (store.visible scopes) id typeName _ = _
  rw [Scope.anchored, h]

/-- An asset that is held belongs to the scope. -/
theorem Holds.mem_assets {typeName : String} (h : store.Holds scopes id typeName s b) :
    b ∈ s.assets :=
  (Scope.mem_of_asset? h.2).1

section

variable {types : List EquipmentType} {f : Forest} (hf : Forest.ofTypes types = .ok f)
  {family : Family} {users : Option Nat} {m : PooledMetric} {rule : PooledRule}
  (hfits : m.Fits f family users rule)

/-- The chain above an asset is made of what is answered about its hierarchy. -/
theorem chainAbove_eq (store : Store) (scopes : List String) (f : Forest) (rule : PooledRule)
    (id : String) : store.chainAbove scopes f rule id
      = Chain.ofAnswer f rule id rule.base.name
          (store.inventory scopes (.hierarchy id rule.base.name rule.depth)) := rfl

/-- Equipment that no scope holds is unknown. -/
theorem chainAbove_of_none
    (h : (store.visible scopes).find? (·.holds id rule.base.name) = none) :
    store.chainAbove scopes f rule id = .error (.unknownEquipment id rule.base.name) := by
  rw [chainAbove_eq, inventory_hierarchy_of_none h]
  rfl

include hf hfits

variable (h : store.Holds scopes id rule.base.name s b)

include h

/-- Equipment with too little above it is unknown. -/
theorem chainAbove_of_ended (hover : s.ascend rule.topOffset b = none) :
    store.chainAbove scopes f rule id = .error (.unknownEquipment id rule.base.name) := by
  rw [chainAbove_eq, h.inventory_hierarchy, Chain.ofAnswer_hierarchy hf hfits h.2, if_pos hover]

/-- **A way up that follows the forest is the chain.** -/
theorem chainAbove_of_followsPath (hpath : s.FollowsPath f rule b) :
    store.chainAbove scopes f rule id = .ok (Chain.chainOf s rule b) := by
  obtain ⟨a, _, _, htop, -⟩ := hpath _ (Nat.le_refl _)
  have htypes := (Chain.followsPath_iff hf hfits).mp hpath
  have hlength := (List.length_map _).symm.trans (congrArg List.length htypes)
  rw [chainAbove_eq, h.inventory_hierarchy, Chain.ofAnswer_hierarchy hf hfits h.2,
    if_neg (by simp [htop]), (Chain.stranger?_eq_none hlength).mpr htypes]

/-- **A way up that is long enough but leaves the forest** is malformed where it does so first. -/
theorem chainAbove_of_stranger (hlong : s.ascend rule.topOffset b ≠ none)
    (hpath : ¬ s.FollowsPath f rule b) :
    ∃ k a t, s.LeavesPath f rule b k a t ∧ store.chainAbove scopes f rule id
      = .error (.lookup .hierarchy (Chain.strangerFault a.toEquipment t.name)) := by
  have hnames := Chain.length_typeNames_of_fits hfits
  have hlength := (Chain.length_linksAbove hlong).trans hnames.symm
  have hresult := chainAbove_eq store scopes f rule id
  rw [h.inventory_hierarchy, Chain.ofAnswer_hierarchy hf hfits h.2, if_neg hlong] at hresult
  rw [Chain.followsPath_iff hf hfits, ← Chain.stranger?_eq_none hlength] at hpath
  obtain ⟨⟨link, expected⟩, hstranger⟩ := Option.ne_none_iff_exists'.mp hpath
  rw [hstranger] at hresult
  obtain ⟨k, hlink, hname, hne, hbelow⟩ := Chain.stranger?_eq_some hstranger
  -- no name is expected above the end type
  have hk : k ≤ rule.topOffset := by
    have hlt := (List.getElem?_eq_some_iff.mp hname).1
    omega
  rw [Chain.getElem?_linksAbove hk] at hlink
  obtain ⟨a, ha, rfl⟩ := Option.map_eq_some_iff.mp hlink
  obtain ⟨i, t, hi, ht, hname'⟩ := hfits.level hf hk
  cases hname.symm.trans hname'
  have hfit : ∀ l < k, s.FitsLevel f rule b l := fun l hl =>
    (Chain.fitsLevel_iff hf hfits (Nat.le_of_lt (Nat.lt_of_lt_of_le hl hk))).mpr (hbelow l hl)
  exact ⟨k, a, t, ⟨hk, hfit, ha, ⟨i, hi, ht⟩, hne⟩, hresult⟩

omit h

/-- **How a search for a chain ends.** -/
theorem chainAbove_outcome (store : Store) (scopes : List String) (id : String) :
    store.Outcome scopes f rule id (store.chainAbove scopes f rule id) := by
  rcases holds_cases store scopes id rule.base.name with ⟨s, b, h⟩ | hnone
  · by_cases hover : s.ascend rule.topOffset b = none
    · rw [chainAbove_of_ended hf hfits h hover]
      exact .ended h hover
    · by_cases hpath : s.FollowsPath f rule b
      · rw [chainAbove_of_followsPath hf hfits h hpath]
        exact .follows h hpath
      · obtain ⟨k, a, t, hleaves, hresult⟩ := chainAbove_of_stranger hf hfits h hover hpath
        rw [hresult]
        exact .leaves h hleaves
  · rw [chainAbove_of_none hnone]
    exact .notHeld hnone

end

/-- The links of a scope's answer are its equipment, level by level. -/
theorem Holds.linksAbove {rule : PooledRule} {typeName : String}
    (h : store.Holds scopes id typeName s b) (hlong : s.ascend rule.topOffset b ≠ none) :
    (Chain.linksAbove s rule b).length = rule.topOffset + 1 ∧
      (∀ k ≤ rule.topOffset, ∃ a ∈ s.assets, s.ascend k b = some a ∧
        (Chain.linksAbove s rule b)[k]? = some a.toEquipment) ∧
      (Chain.linksAbove s rule b).IsChain fun lower upper => lower.parentId = some upper.id := by
  refine ⟨Chain.length_linksAbove hlong, fun k hk => ?_, ?_⟩
  · have hlt : k < (s.climb (rule.topOffset + 1) b).length := by
      have hlength := Chain.length_linksAbove hlong
      rw [Chain.linksAbove, List.length_map] at hlength
      omega
    have hsome := (Scope.lt_length_climb_iff (Nat.lt_succ_of_le hk)).mp hlt
    obtain ⟨a, ha⟩ := Option.isSome_iff_exists.mp hsome
    refine ⟨a, Scope.mem_of_ascend h.mem_assets ha, ha, ?_⟩
    rw [Chain.getElem?_linksAbove hk, ha]
    rfl
  · exact (List.isChain_map _).mpr (Scope.isChain_climb _ b)

/-- **Chains and links agree** in every fleet that is served: whether there is a chain above some
    equipment, and which, is decided by the links of the first visible scope that holds it, however
    they run; what the store cuts off is never missed.  The forest may be that of the types that
    are visible or any other. -/
theorem resolves_of_rule (store : Store) (scopes : List String) {types : List EquipmentType}
    {f : Forest} (hf : Forest.ofTypes types = .ok f) {metric : Metric} {rule : PooledRule}
    (hrule : metric.rule f = .ok (.pooled rule)) (id : String) :
    store.Resolves scopes f rule id := by
  obtain ⟨m, users, -, hfits⟩ := Metric.fits_of_rule hrule
  have houtcome := chainAbove_outcome hf hfits store scopes id
  constructor
  case found =>
    -- each outcome of the lookup gives back how the way up ran
    refine ⟨fun ⟨chain, hchain⟩ => ?_, fun ⟨s, b, h, hpath⟩ => ?_⟩
    · rw [hchain] at houtcome
      cases houtcome with
      | follows h hpath => exact ⟨_, _, h, hpath⟩
    · exact ⟨_, chainAbove_of_followsPath hf hfits h hpath⟩
  case linked =>
    intro chain hchain
    rw [hchain] at houtcome
    cases houtcome with
    | follows h hpath =>
      obtain ⟨a, _, _, htop, -⟩ := hpath _ (Nat.le_refl _)
      exact ⟨_, _, h, h.linksAbove (by rw [htop]; nofun)⟩
  case unknown =>
    refine ⟨fun hunknown => ?_, fun hwhy => ?_⟩
    · rw [hunknown] at houtcome
      cases houtcome with
      | notHeld hnone =>
        exact .inl fun s hs => Bool.eq_false_iff.mpr (List.find?_eq_none.mp hnone s hs)
      | ended h hover => exact .inr ⟨_, _, h, hover⟩
    · rcases hwhy with hnone | ⟨s, b, h, hover⟩
      · refine chainAbove_of_none (List.find?_eq_none.mpr fun s hs => ?_)
        rw [hnone s hs]
        exact Bool.false_ne_true
      · exact chainAbove_of_ended hf hfits h hover
  case malformed =>
    intro failure hfailure hknown
    rw [hfailure] at houtcome
    cases houtcome with
    | notHeld => exact absurd rfl hknown
    | ended => exact absurd rfl hknown
    | leaves h hleaves => exact ⟨_, _, _, _, _, h, hleaves, rfl⟩
  case bounded =>
    refine ⟨rfl, hfits.depth_le, fun found hfound => ?_⟩
    -- a climb is bounded by its depth, on circles too
    rcases holds_cases store scopes id rule.base.name with ⟨s, b, h⟩ | hnone
    · cases (h.inventory_hierarchy rule.depth).symm.trans hfound
      unfold Scope.hierarchy
      rw [h.2]
      simpa using s.length_climb_le (rule.depth + 1) b
    · cases (inventory_hierarchy_of_none hnone).symm.trans hfound

end Store

/-! ### Ways up that lead elsewhere -/

namespace Detours

open TwoClusters (types forest metric rule ofTypes_types rule_metric asset)

/-- A server in its cluster, one whose cluster is missing, and two that are each other's parents. -/
def scope : Scope where
  types := types
  assets := [asset "d" "datacenter" none, asset "b" "cluster" (some "d"),
    asset "s" "server" (some "b"), asset "t" "server" (some "e"),
    asset "u" "server" (some "v"), asset "v" "server" (some "u")]

def fleet : Fleet := ⟨⟨[("main", scope)], List.pairwise_singleton ..⟩⟩

def store : Store := ⟨{ strict := false }, fleet, by decide +kernel⟩

/-- The chain of the first server, none of the second, and a fault in that of the third. -/
theorem chains_detours :
    (∃ chain, store.chainAbove ["main"] forest rule "s" = .ok chain ∧
      chain.links.map (·.id) = ["s", "b", "d"] ∧
      chain.links.IsChain fun lower upper => lower.parentId = some upper.id) ∧
    store.chainAbove ["main"] forest rule "t" = .error (.unknownEquipment "t" "server") ∧
    (∃ s b k a t, store.Holds ["main"] "u" "server" s b ∧ s.LeavesPath forest rule b k a t) ∧
    store.chainAbove ["main"] forest rule "u" = .error
      (.lookup .hierarchy (.malformed "equipment v has type server, expected cluster")) := by
  have hresolves := fun id => Store.resolves_of_rule store ["main"] ofTypes_types rule_metric id
  have hcircle : store.chainAbove ["main"] forest rule "u" = .error
      (.lookup .hierarchy (.malformed "equipment v has type server, expected cluster")) := by
    decide +kernel
  refine ⟨?_, (hresolves "t").unknown.mpr (.inr ⟨scope, _, ⟨rfl, rfl⟩, rfl⟩), ?_, hcircle⟩
  · have hchain : store.chainAbove ["main"] forest rule "s" = .ok
        ⟨[⟨"s", "server", some "b"⟩, ⟨"b", "cluster", some "d"⟩, ⟨"d", "datacenter", none⟩],
          1, 3⟩ := by
      decide +kernel
    obtain ⟨_, _, -, -, -, hlinked⟩ := (hresolves "s").linked _ hchain
    exact ⟨_, hchain, rfl, hlinked⟩
  · obtain ⟨s, b, k, a, t, h, hleaves, -⟩ := (hresolves "u").malformed _ hcircle nofun
    exact ⟨s, b, k, a, t, h, hleaves⟩

end Detours

end LicenseForecast
