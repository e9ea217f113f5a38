import LicenseForecast.Proofs.Fleet.Agreement

namespace LicenseForecast

/-!
# Fleets with other values

The links between equipment do not depend on the values of its attributes.  A scope whose assets
carry other values (`Scope.mapAssets`) passes the same checks and is walked in the same way.  Of
its pools only that of the asset with other values has another sum (`poolSums_overwrite`).
-/

open Decimal (unsignedMax Eqv)

/-- The asset with values replaced by those of readings. -/
def Asset.overwrite (a : Asset) (readings : Readings) : Asset where
  toEquipment := a.toEquipment
  attributes := readings.entries.foldl
    (fun values entry => values.insert entry.1 entry.2.value) a.attributes

/-- Overwriting the values of one asset leaves what lookups go by. -/
theorem Asset.toEquipment_overwrite (id : String) (readings : Readings) (a : Asset) :
    (if a.id = id then a.overwrite readings else a).toEquipment = a.toEquipment := by
  split <;> rfl

namespace Scope

/-- The scope with other assets in place of its own. -/
def mapAssets (s : Scope) (g : Asset → Asset) : Scope := { s with assets := s.assets.map g }

/-- The scope with the values of one asset replaced by those of readings. -/
def overwrite (s : Scope) (id : String) (readings : Readings) : Scope :=
  s.mapAssets fun a => if a.id = id then a.overwrite readings else a

/-! ### The same walks -/

section

variable {s : Scope} {g : Asset → Asset} (hg : ∀ a, (g a).toEquipment = a.toEquipment)

include hg

/-- The id of an asset is not a value. -/
private theorem id_eq (a : Asset) : (g a).id = a.id := congrArg Equipment.id (hg a)

/-- Neither is its type. -/
private theorem typeName_eq (a : Asset) : (g a).typeName = a.typeName :=
  congrArg Equipment.typeName (hg a)

/-- Neither is the link to what it is part of. -/
private theorem parentId_eq (a : Asset) : (g a).parentId = a.parentId :=
  congrArg Equipment.parentId (hg a)

/-- An asset is found by its id, with other values. -/
theorem asset?_mapAssets (id : String) : (s.mapAssets g).asset? id = (s.asset? id).map g := by
  unfold asset?
  show (s.assets.map g).find? (·.id == id) = _
  rw [List.find?_map]
  congr 2
  funext a
  show ((g a).id == id) = _
  rw [id_eq hg]

/-- What an asset is part of stays the same. -/
theorem parentOf_mapAssets (a : Asset) :
    (s.mapAssets g).parentOf (g a) = (s.parentOf a).map g := by
  unfold parentOf
  rw [parentId_eq hg]
  cases a.parentId with
  | none => rfl
  | some id => exact asset?_mapAssets hg id

/-- The way up from an asset stays the same. -/
theorem ascend_mapAssets (n : Nat) (a : Asset) :
    (s.mapAssets g).ascend n (g a) = (s.ascend n a).map g := by
  induction n generalizing a with
  | zero => rfl
  | succ n ih =>
    unfold ascend
    rw [parentOf_mapAssets hg]
    cases s.parentOf a with
    | none => rfl
    | some p => exact ih p

/-- What is part of an asset stays the same. -/
private theorem children_mapAssets (t : Asset) :
    (s.mapAssets g).children (g t) = (s.children t).map g := by
  unfold children
  show (s.assets.map g).filter _ = _
  rw [List.filter_map]
  congr 2
  funext a
  show ((g a).parentId == some (g t).id) = _
  rw [parentId_eq hg, id_eq hg]

/-- What lies below an asset stays the same, level by level. -/
private theorem levels_mapAssets (root : Asset) (n : Nat) (level : List Asset) :
    (s.mapAssets g).levels (g root) n (level.map g) = (s.levels root n level).map g := by
  induction n generalizing level with
  | zero => rfl
  | succ n ih =>
    -- the next level is rewritten as a whole, as neither ids nor parents change
    have hnext : (s.mapAssets g).nextLevel (g root) (level.map g)
        = (s.nextLevel root level).map g := by
      have hchildren : (level.map g).flatMap (s.mapAssets g).children
          = (level.flatMap s.children).map g := by
        rw [List.flatMap_map, List.map_flatMap]
        simp only [children_mapAssets hg]
      unfold nextLevel
      rw [hchildren, List.filter_map]
      congr 2
      funext a
      show ((g a).id != (g root).id) = _
      rw [id_eq hg, id_eq hg]
    unfold levels
    rw [List.map_append, ← ih, hnext]

/-- What lies below an asset stays the same. -/
theorem subtree_mapAssets (id : String) (depth : Option Nat) :
    (s.mapAssets g).subtree id depth = (s.subtree id depth).map g := by
  unfold subtree
  rw [asset?_mapAssets hg]
  cases s.asset? id with
  | none => rfl
  | some root =>
    have hlength : (s.mapAssets g).assets.length = s.assets.length := List.length_map g
    show (s.mapAssets g).levels (g root) _ ([root].map g) = _
    rw [levels_mapAssets hg, hlength]

/-- The equipment that counts is the same. -/
theorem members_mapAssets (id : String) (rule : PooledRule) :
    (s.mapAssets g).members id rule = (s.members id rule).map g := by
  unfold members
  rw [subtree_mapAssets hg, List.filter_map]
  congr 2
  funext a
  show ((g a).typeName == rule.base.name) = _
  rw [typeName_eq hg]

/-- The same assets are refused, if any. -/
private theorem assetFault?_map (name : String) (f : Forest) (earlier : List String)
    (assets : List Asset) :
    assetFault? name f earlier (assets.map g) = assetFault? name f earlier assets := by
  induction assets generalizing earlier with
  | nil => rfl
  | cons a rest ih =>
    rw [List.map_cons]
    unfold assetFault?
    rw [typeName_eq hg, id_eq hg, ih]

/-- **The same checks are passed.** -/
theorem check_mapAssets (name : String) (strict : Bool) :
    (s.mapAssets g).check name strict = s.check name strict := by
  simp only [check, mapAssets, assetFault?_map hg]

end

end Scope

/-! ### Other values -/

/-- Values that are made readings can be read. -/
theorem Readings.value?_ofValues (values : Dictionary Value) (id : String) :
    (Readings.ofValues values).value? id = values.get? id := by
  unfold Readings.value? Readings.ofValues
  rw [Dictionary.get?_mapValues]
  cases values.get? id <;> rfl

/-- The readings that replace values are read first. -/
theorem Asset.value?_overwrite (a : Asset) (readings : Readings) (id : String) :
    (a.overwrite readings).readings.value? id
      = (readings.value? id).or (a.readings.value? id) := by
  unfold Asset.readings
  rw [Readings.value?_ofValues, Readings.value?_ofValues]
  refine (Dictionary.get?_foldl_insert Reading.value id a.attributes readings.ascending).trans ?_
  unfold Readings.value? Dictionary.get?
  cases readings.entries.find? (·.1 == id) <;> rfl

/-- **What readings say of a number, the asset says** once they are written into it. -/
theorem Asset.number_overwrite (a : Asset) {readings : Readings} {field : Attribute}
    {x : Float} (h : readings.number field = .ok x) :
    (a.overwrite readings).readings.number field = .ok x := by
  unfold Readings.number at h ⊢
  rw [Asset.value?_overwrite]
  cases hvalue : readings.value? field.id with
  | none =>
    rw [hvalue] at h
    cases h
  | some value =>
    rw [hvalue] at h
    exact h

namespace Formula

variable {rule : PooledRule} {readings readings' : Readings}

/-- What a contribution comes from. -/
theorem contribution_eq_ok {c : Float} : contribution rule readings = .ok c ↔
    ∃ cores cpus factor, readings.number rule.cores = .ok cores ∧
      readings.number rule.cpus = .ok cpus ∧ readings.number rule.coreFactor = .ok factor ∧
      cores * cpus * factor = c := by
  unfold contribution reading
  simp only [bind_eq_ok, pure_eq_ok, mapError_eq_ok]
  constructor
  · rintro ⟨cores, hcores, cpus, hcpus, factor, hfactor, rfl⟩
    exact ⟨cores, cpus, factor, hcores, hcpus, hfactor, rfl⟩
  · rintro ⟨cores, cpus, factor, hcores, hcpus, hfactor, rfl⟩
    exact ⟨cores, hcores, cpus, hcpus, factor, hfactor, rfl⟩

/-- A contribution depends on three numbers. -/
theorem contribution_congr (h : ∀ field ∈ [rule.cores, rule.cpus, rule.coreFactor],
    readings.number field = readings'.number field) :
    contribution rule readings = contribution rule readings' := by
  simp only [List.forall_mem_cons, List.not_mem_nil, false_implies, implies_true, and_true] at h
  unfold contribution reading
  rw [h.1, h.2.1, h.2.2]

/-- The contribution of an asset with replaced values is that of the readings. -/
theorem contribution_overwrite {a : Asset} {c : Float} (h : contribution rule readings = .ok c) :
    contribution rule (a.overwrite readings).readings = .ok c := by
  obtain ⟨cores, cpus, factor, hcores, hcpus, hfactor, heq⟩ := contribution_eq_ok.mp h
  exact contribution_eq_ok.mpr ⟨cores, cpus, factor, a.number_overwrite hcores,
    a.number_overwrite hcpus, a.number_overwrite hfactor, heq⟩

end Formula

/-! ### Other sums -/

namespace Scope

/-- Contributions to a pool, from the equipment that they come from. -/
private theorem contributionsTo_map (pool : String) (v : Asset → Asset × Float)
    (members : List Asset) :
    contributionsTo pool (members.map v)
      = (members.filter fun a => (v a).1.id == pool).map fun a => (v a).2 := by
  unfold contributionsTo
  rw [List.filter_map, List.map_map]
  rfl

/-- Sums of the same numbers are the same number. -/
private theorem eqv_foldl {cs cs' : List Float} (h : List.Forall₂ Eqv cs cs') {x y : Float}
    (hxy : Eqv x y) : Eqv (cs.foldl (· + ·) x) (cs'.foldl (· + ·) y) := by
  induction h generalizing x y with
  | nil => exact hxy
  | cons hc _ ih => exact ih (Decimal.add_congr hxy hc)

/-- Sums of the same numbers, where there are any. -/
private theorem sum?_congr {cs cs' : List Float} (h : List.Forall₂ Eqv cs cs') {sum sum' : Float}
    (hsum : sum? cs = some sum) (hsum' : sum? cs' = some sum') : Eqv sum sum' := by
  cases h with
  | nil => cases hsum
  | cons hc hcs =>
    cases hsum
    cases hsum'
    exact eqv_foldl (.cons hc hcs) (Eqv.refl 0.0)

/-- A pool to which something contributes has a sum. -/
private theorem exists_sum?_of_mem {pool : String} {v : Asset → Asset × Float}
    {members : List Asset} {b : Asset} (hb : b ∈ members) (hpool : (v b).1.id = pool) :
    ∃ sum, sum? (contributionsTo pool (members.map v)) = some sum := by
  have hmem : (v b).2 ∈ contributionsTo pool (members.map v) := by
    rw [contributionsTo_map]
    refine List.mem_map.mpr ⟨b, List.mem_filter.mpr ⟨hb, ?_⟩, rfl⟩
    exact beq_iff_eq.mpr hpool
  cases hcs : contributionsTo pool (members.map v) with
  | nil =>
    rw [hcs] at hmem
    cases hmem
  | cons c cs => exact ⟨_, rfl⟩

/-- The share of an asset that has one. -/
def shareOf (s : Scope) (rule : PooledRule) (a : Asset) : Asset × Float :=
  (s.share rule a).toOption.getD default

/-- The share of an asset after the asset with an id was overwritten and contributes `c`. -/
def shareAfter (s : Scope) (rule : PooledRule) (id : String) (new : Readings) (c : Float)
    (a : Asset) : Asset × Float :=
  let root := (s.shareOf rule a).1
  (if root.id = id then root.overwrite new else root,
    if a.id = id then c else (s.shareOf rule a).2)

section

variable {s : Scope} {f : Forest} {rule : PooledRule} {id : String} {b root : Asset}
  {new : Readings} {oldC newC : Float} {pools : Dictionary Float}

/-- Another contribution does not change the pool that an asset counts towards. -/
private theorem shareAfter_id (a : Asset) :
    (s.shareAfter rule b.id new newC a).1.id = (s.shareOf rule a).1.id :=
  congrArg Equipment.id (Asset.toEquipment_overwrite b.id new (s.shareOf rule a).1)

/-- The shares after an asset was overwritten. -/
private theorem shares_overwrite (hnew : Formula.contribution rule new = .ok newC)
    {shares : List (Asset × Float)} (hshares : s.shares id rule = .ok shares) :
    (s.overwrite b.id new).shares id rule
      = .ok ((s.members id rule).map (s.shareAfter rule b.id new newC)) := by
  unfold Scope.shares
  rw [overwrite, members_mapAssets (Asset.toEquipment_overwrite b.id new), mapM_eq_ok,
    List.map_map, List.map_map]
  refine List.map_congr_left fun a ha => ?_
  obtain ⟨share, -, hshare⟩ := exists_ok_of_mapM hshares ha
  -- an overwrite moves no machine, so its root is the old one and only the contribution can differ
  have hvalue : s.shareOf rule a = share := by
    unfold shareOf
    rw [hshare]
    rfl
  obtain ⟨hroot, hcontribution⟩ := share_eq_ok.mp hshare
  show (s.mapAssets _).share rule (if a.id = b.id then a.overwrite new else a)
    = .ok (s.shareAfter rule b.id new newC a)
  refine share_eq_ok.mpr ⟨?_, ?_⟩
  · rw [ascend_mapAssets (Asset.toEquipment_overwrite b.id new), hroot, Option.map_some, hvalue]
  · rw [hvalue]
    by_cases hid : a.id = b.id
    · rw [if_pos hid, if_pos hid]
      exact Formula.contribution_overwrite hnew
    · rw [if_neg hid, if_neg hid]
      exact hcontribution

/-- The contributions to a pool after an asset was overwritten. -/
private theorem contributionsTo_shareAfter (pool : String) (members : List Asset) :
    contributionsTo pool (members.map (s.shareAfter rule b.id new newC))
      = (members.filter fun a => (s.shareOf rule a).1.id == pool).map fun a =>
          if a.id = b.id then newC else (s.shareOf rule a).2 := by
  rw [contributionsTo_map]
  simp only [shareAfter_id]
  rfl

/-- To the other pools the contributions are the same. -/
private theorem contributionsTo_of_ne (hs : s.Sound f) (hb : b ∈ s.members id rule)
    (hshare : s.shareOf rule b = (root, oldC)) {pool : String} (hpool : pool ≠ root.id) :
    contributionsTo pool ((s.members id rule).map (s.shareAfter rule b.id new newC))
      = contributionsTo pool ((s.members id rule).map (s.shareOf rule)) := by
  rw [contributionsTo_shareAfter, contributionsTo_map]
  refine List.map_congr_left fun a ha => ?_
  obtain ⟨ha, hin⟩ := List.mem_filter.mp ha
  have hid : a.id ≠ b.id := by
    intro hid
    have heq := hs.eq_of_id_eq (mem_assets_of_mem_members ha) (mem_assets_of_mem_members hb) hid
    rw [heq, hshare] at hin
    exact hpool (beq_iff_eq.mp hin).symm
  rw [if_neg hid]

/-- To its own pool the contributions are the same numbers if that of the asset is. -/
private theorem forall₂_contributionsTo (hs : s.Sound f) (hb : b ∈ s.members id rule)
    (hshare : s.shareOf rule b = (root, oldC)) (hsame : Eqv oldC newC) :
    List.Forall₂ Eqv (contributionsTo root.id ((s.members id rule).map (s.shareOf rule)))
      (contributionsTo root.id
        ((s.members id rule).map (s.shareAfter rule b.id new newC))) := by
  rw [contributionsTo_map, contributionsTo_shareAfter, List.forall₂_map_left_iff,
    List.forall₂_map_right_iff, List.forall₂_same]
  intro a ha
  obtain ⟨ha, -⟩ := List.mem_filter.mp ha
  by_cases hid : a.id = b.id
  · have heq := hs.eq_of_id_eq (mem_assets_of_mem_members ha) (mem_assets_of_mem_members hb) hid
    rw [if_pos hid, heq, hshare]
    exact hsame
  · rw [if_neg hid]
    exact Eqv.refl _

/-- **Only the pool of the asset has another sum** after an asset was overwritten, and that sum is
    the same number if the contributions are. -/
theorem poolSums_overwrite (hs : s.Sound f) (hb : b ∈ s.members id rule)
    (hroot : s.ascend rule.aggregateOffset b = some root)
    (hold : Formula.contribution rule b.readings = .ok oldC)
    (hnew : Formula.contribution rule new = .ok newC)
    (hpools : s.poolSums id rule = .ok pools) :
    ∃ sum sum', pools.get? root.id = some sum ∧
      (s.overwrite b.id new).poolSums id rule = .ok (pools.insert root.id sum') ∧
      (Eqv oldC newC → Eqv sum sum') := by
  obtain ⟨shares, hshares, rfl⟩ := poolSums_eq_ok.mp hpools
  have hvalues : shares = (s.members id rule).map (s.shareOf rule) := eq_map_of_mapM hshares
  have hshare : s.shareOf rule b = (root, oldC) := by
    unfold shareOf
    rw [share_eq_ok.mpr ⟨hroot, hold⟩]
    rfl
  -- the asset is in its pool before and after, so the pool has a sum on both sides
  have hid : (s.shareOf rule b).1.id = root.id := by rw [hshare]
  obtain ⟨sum, hsum⟩ := exists_sum?_of_mem hb hid
  obtain ⟨sum', hsum'⟩ := exists_sum?_of_mem (v := s.shareAfter rule b.id new newC) hb
    ((shareAfter_id b).trans hid)
  have hafter : (shares.foldl addShare .empty).insert root.id sum'
      = ((s.members id rule).map (s.shareAfter rule b.id new newC)).foldl addShare .empty := by
    refine Dictionary.ext_get? fun pool => ?_
    rw [get?_addShares]
    by_cases hpool : pool = root.id
    · rw [hpool, Dictionary.get?_insert_self, hsum']
    · rw [Dictionary.get?_insert_of_ne hpool, get?_addShares, hvalues,
        contributionsTo_of_ne hs hb hshare hpool]
  refine ⟨sum, sum', ?_, poolSums_eq_ok.mpr ⟨_, shares_overwrite hnew hshares, hafter⟩,
    fun hsame => sum?_congr (forall₂_contributionsTo hs hb hshare hsame) hsum hsum'⟩
  rw [get?_addShares, hvalues, hsum]

end

end Scope

end LicenseForecast
