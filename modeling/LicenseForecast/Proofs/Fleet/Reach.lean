import LicenseForecast.Fleet.Lookup
import LicenseForecast.Proofs.Fleet.Generation

namespace LicenseForecast.Scope

/-!
# What a search below an asset reaches

A search goes down level by level, and a level leaves out the asset that it started from.  Whatever
the links are like, in circles or not, the level `k` consists of the assets that come to that asset
after `k` links upwards and not before (`mem_level_iff`).  So `n` levels reach the assets that
come to it after at most `n` links (`mem_levels_iff`), and a search for products finds those that
are installed there (`productsBelow_eq`).
-/

variable {s : Scope} {f : Forest}

/-! ### Levels -/

/-- A level and those below it, one by one. -/
theorem mem_levels {root a : Asset} {n : Nat} {level : List Asset} :
    a ∈ s.levels root n level ↔ ∃ k ≤ n, a ∈ (s.nextLevel root)^[k] level := by
  induction n generalizing level with
  | zero => simp [levels]
  | succ n ih =>
    rw [levels, List.mem_append, ih]
    constructor
    · rintro (ha | ⟨k, hk, ha⟩)
      · exact ⟨0, Nat.zero_le _, ha⟩
      · exact ⟨k + 1, Nat.succ_le_succ hk, ha⟩
    · rintro ⟨k, hk, ha⟩
      cases k with
      | zero => exact .inl ha
      | succ k => exact .inr ⟨k, Nat.le_of_succ_le_succ hk, ha⟩

section

variable (hs : s.Sound f) {root : Asset} (hroot : root ∈ s.assets)

include hs hroot

/-- On the next level are the parts of what is on this one, but for the root. -/
theorem mem_nextLevel {a : Asset} {level : List Asset} (hlevel : ∀ t ∈ level, t ∈ s.assets) :
    a ∈ s.nextLevel root level ↔
      a ∈ s.assets ∧ a ≠ root ∧ ∃ t ∈ level, s.parentOf a = some t := by
  unfold nextLevel
  rw [List.mem_filter, List.mem_flatMap, bne_iff_ne]
  constructor
  · rintro ⟨⟨t, ht, hchild⟩, hid⟩
    obtain ⟨ha, hparent⟩ := (mem_children hs (hlevel t ht)).mp hchild
    exact ⟨ha, fun heq => hid (heq ▸ rfl), t, ht, hparent⟩
  · rintro ⟨ha, hne, t, ht, hparent⟩
    exact ⟨⟨t, ht, (mem_children hs (hlevel t ht)).mpr ⟨ha, hparent⟩⟩,
      fun hid => hne (hs.eq_of_id_eq ha hroot hid)⟩

/-- **The level `k`** consists of the assets that come to the root after `k` links and not
    before. -/
theorem mem_level_iff {k : Nat} {a : Asset} : a ∈ (s.nextLevel root)^[k] [root] ↔
    a ∈ s.assets ∧ s.ascend k a = some root ∧ ∀ l < k, s.ascend l a ≠ some root := by
  induction k generalizing a with
  | zero =>
    show a ∈ [root] ↔ a ∈ s.assets ∧ some a = some root ∧ _
    rw [List.mem_singleton, Option.some.injEq]
    exact ⟨fun heq => ⟨heq ▸ hroot, heq, nofun⟩, fun h => h.2.1⟩
  | succ k ih =>
    rw [Function.iterate_succ_apply', mem_nextLevel hs hroot fun t ht => (ih.mp ht).1]
    -- the first way up reaches the root in one step more than the way of the parent
    refine and_congr_right fun ha => ?_
    constructor
    · rintro ⟨hne, t, ht, hparent⟩
      obtain ⟨-, hascend, hfirst⟩ := ih.mp ht
      refine ⟨by rw [ascend, hparent]; exact hascend, fun l hl => ?_⟩
      cases l with
      | zero => exact fun heq => hne (Option.some.inj heq)
      | succ l =>
        rw [ascend, hparent]
        exact hfirst l (Nat.lt_of_succ_lt_succ hl)
    · rintro ⟨hascend, hfirst⟩
      obtain ⟨t, hparent, hrest⟩ := Option.bind_eq_some_iff.mp hascend
      refine ⟨fun heq => hfirst 0 (Nat.succ_pos k) (congrArg some heq), t, ih.mpr ?_, hparent⟩
      -- a parent that met the root earlier would let its child meet it earlier too
      refine ⟨(mem_of_parentOf hparent).2, hrest, fun l hl heq => ?_⟩
      refine hfirst (l + 1) (Nat.succ_lt_succ hl) ?_
      rw [ascend, hparent]
      exact heq

/-- An asset is known by its id. -/
theorem map_id_ascend_iff {a : Asset} (ha : a ∈ s.assets) {k : Nat} :
    (s.ascend k a).map (·.id) = some root.id ↔ s.ascend k a = some root := by
  refine ⟨fun h => ?_, fun h => by rw [h]; rfl⟩
  obtain ⟨t, ht, hid⟩ := Option.map_eq_some_iff.mp h
  rw [ht, hs.eq_of_id_eq (mem_of_ascend ha ht) hroot hid]

/-- **So many levels reach** the assets that come to the root after at most so many links. -/
theorem mem_levels_iff {n : Nat} {a : Asset} : a ∈ s.levels root n [root] ↔
    a ∈ s.assets ∧ ∃ k ≤ n, s.ascend k a = some root := by
  rw [mem_levels]
  constructor
  · rintro ⟨k, hk, ha⟩
    obtain ⟨ha, hascend, -⟩ := (mem_level_iff hs hroot).mp ha
    exact ⟨ha, k, hk, hascend⟩
  · rintro ⟨ha, k, hk, hascend⟩
    -- an asset is in the level of the first time that it comes to the root
    classical
    have hexists : ∃ k, s.ascend k a = some root := ⟨k, hascend⟩
    have hle : Nat.find hexists ≤ k := Nat.find_min' hexists hascend
    exact ⟨Nat.find hexists, Nat.le_trans hle hk,
      (mem_level_iff hs hroot).mpr ⟨ha, Nat.find_spec hexists, fun l hl => Nat.find_min hexists hl⟩⟩

end

/-! ### Products -/

/-- A product is installed on an asset or on equipment at most `n` links below it. -/
def InstalledWithin (s : Scope) (id : String) (n : Nat) (p : InstalledProduct) : Prop :=
  ∃ a ∈ s.assets, a.id ∈ p.equipment ∧ ∃ k ≤ n, (s.ascend k a).map (·.id) = some id

/-- Whether a product is installed within reach is found out from what lies there. -/
instance (s : Scope) (id : String) (n : Nat) : DecidablePred (s.InstalledWithin id n) := fun p =>
  inferInstanceAs (Decidable
    (∃ a ∈ s.assets, a.id ∈ p.equipment ∧ ∃ k ≤ n, (s.ascend k a).map (·.id) = some id))

/-- What is installed within reach is so within a longer one. -/
theorem InstalledWithin.mono {id : String} {m n : Nat} {p : InstalledProduct} (h : m ≤ n)
    (hp : s.InstalledWithin id m p) : s.InstalledWithin id n p := by
  obtain ⟨a, ha, hinstalled, k, hk, hascend⟩ := hp
  exact ⟨a, ha, hinstalled, k, Nat.le_trans hk h, hascend⟩

/-- The products licensed under a metric that are installed at most `n` links below an asset, in
    the order of the scope. -/
def productsWithin (s : Scope) (id : String) (n : Nat) (metric : String) : List Product :=
  (s.products.filter fun p => p.isLicensedUnder metric ∧ s.InstalledWithin id n p).map (·.product)

/-- A search reaches an installation exactly if it is not too far below. -/
theorem any_within_iff (hs : s.Sound f) {root : Asset} (hroot : root ∈ s.assets) {n : Nat}
    {p : InstalledProduct} :
    p.equipment.any (s.within root.id n).contains = true ↔ s.InstalledWithin root.id n p := by
  unfold within subtree
  simp only [hs.asset?_eq hroot, Option.getD_some, List.any_eq_true, List.contains_iff_mem,
    List.mem_map, mem_levels_iff hs hroot]
  constructor
  · rintro ⟨_, hinstalled, a, ⟨ha, k, hk, hascend⟩, rfl⟩
    exact ⟨a, ha, hinstalled, k, hk, (map_id_ascend_iff hs hroot ha).mpr hascend⟩
  · rintro ⟨a, ha, hinstalled, k, hk, hascend⟩
    exact ⟨a.id, hinstalled, a, ⟨ha, k, hk, (map_id_ascend_iff hs hroot ha).mp hascend⟩, rfl⟩

/-- **What a search for products answers.** -/
theorem productsBelow_eq (hs : s.Sound f) {root : Asset} (hroot : root ∈ s.assets) (n : Nat)
    (metric : String) : s.productsBelow root.id n metric
      = if s.productsWithin root.id n metric = [] then .error .noData
        else .ok (s.productsWithin root.id n metric) := by
  have hfilter : (s.products.filter fun p =>
      p.equipment.any (s.within root.id n).contains && p.isLicensedUnder metric)
        = s.products.filter fun p => p.isLicensedUnder metric ∧ s.InstalledWithin root.id n p := by
    refine List.filter_congr fun p _ => ?_
    rw [Bool.eq_iff_iff, Bool.and_eq_true, any_within_iff hs hroot, decide_eq_true_iff, and_comm]
  unfold productsBelow productsWithin
  simp only [hfilter, List.isEmpty_iff, List.map_eq_nil_iff]

end LicenseForecast.Scope
