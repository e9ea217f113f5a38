import LicenseForecast.Proofs.Equipment.Acceptance

namespace LicenseForecast.Forest

/-!
# Ancestry among the types of a forest

`Forest.ofTypes` lets a list of types through only if every way up ends.  So ancestry among them
is a tree order, and distances measure it (`IsTreeOrder`):

* `getElem?_ancestors` — the ancestors of a type are all that a walk up from it passes, and the
  walk is over before it has made as many steps as there are types (`lt_length_of_ascend`);
* `distance_eq_some_iff` — a distance is a number of steps up, so distances add up along a way
  (`distance_add`) and are taken away from each other (`distance_sub`).
-/

/-- Ancestry among `count` types is a tree order that distances measure. -/
structure IsTreeOrder (f : Forest) (count : Nat) : Prop where
  /-- The ancestors of a type start with it. -/
  starts : ∀ i < count, (f.ancestors i).head? = some i
  /-- They are what a walk up passes that nothing bounds, and where they end it is over. -/
  passes : ∀ i < count, ∀ k, (f.ancestors i)[k]? = f.ascend k i
  distinct : ∀ i < count, (f.ancestors i).Nodup
  ends : ∀ i < count, ∃ root, (f.ancestors i).getLast? = some root ∧ f.parentOf root = none
  measured : ∀ a < count, ∀ b n, f.distance a b = some n ↔ f.ascend n a = some b
  bounded : ∀ a < count, ∀ b n, f.distance a b = some n → n < count
  composed : ∀ a < count, ∀ b c m n, f.distance a b = some m → f.distance b c = some n →
    f.distance a c = some (m + n)
  antisymmetric : ∀ a < count, ∀ b, (f.distance a b).isSome → (f.distance b a).isSome → a = b
  comparable : ∀ a < count, ∀ x y m n, f.distance a x = some m → f.distance a y = some n →
    m ≤ n → f.distance x y = some (n - m)

section

variable {types : List EquipmentType} {f : Forest} (h : ofTypes types = .ok f)

include h

/-- The forest has a place for each type. -/
theorem size_types : f.types.size = types.length := by
  rw [(sound_of_ofTypes h).2, List.size_toArray]

/-! ### Walks up -/

/-- What lies above a type is a type. -/
theorem lt_of_ascend {n i j : Nat} (hi : i < types.length) (hj : f.ascend n i = some j) :
    j < types.length := by
  induction n generalizing i with
  | zero =>
    cases hj
    exact hi
  | succ n ih =>
    obtain ⟨p, hparent, hj⟩ := Option.bind_eq_some_iff.mp hj
    obtain ⟨_, _, -, hp, -⟩ := ((represents_of_ofTypes h).parentOf i p).mp hparent
    exact ih (List.getElem?_eq_some_iff.mp hp).1 hj

/-- **A way up has fewer steps than there are types**: with as many it would pass one of them
    twice. -/
theorem lt_length_of_ascend {n i j : Nat} (hi : i < types.length)
    (hj : f.ascend n i = some j) : n < types.length := by
  obtain ⟨hf, -⟩ := sound_of_ofTypes h
  by_contra hlong
  have hpassed : ∀ k ≤ types.length, ∃ p : Fin types.length, f.ascend k i = some ↑p := by
    intro k hk
    have hsome : (f.ascend k i).isSome :=
      isSome_ascend_of_le (Nat.le_trans hk (Nat.not_lt.mp hlong)) (by rw [hj]; rfl)
    obtain ⟨p, hp⟩ := Option.isSome_iff_exists.mp hsome
    exact ⟨⟨p, lt_of_ascend h hi hp⟩, hp⟩
  obtain ⟨k, l, p, hlt, -, hk, hl⟩ := exists_round hpassed
  have hsame := hf.ascend_unique (size_types h ▸ hi) hk hl
  omega

/-- **The ancestors of a type are what a walk up from it passes**, and where they end the walk is
    over. -/
theorem getElem?_ancestors {i : Nat} (hi : i < types.length) (k : Nat) :
    (f.ancestors i)[k]? = f.ascend k i := by
  unfold ancestors
  rw [size_types h]
  by_cases hk : k < types.length
  · exact getElem?_climb hk i
  · have hover : f.ascend k i = none := by
      rw [Option.eq_none_iff_forall_ne_some]
      exact fun j hj => hk (lt_length_of_ascend h hi hj)
    rw [hover, List.getElem?_eq_none_iff]
    exact Nat.le_trans (length_climb_le _ _) (Nat.not_lt.mp hk)

/-- No type is among its own ancestors twice. -/
theorem nodup_ancestors {i : Nat} (hi : i < types.length) : (f.ancestors i).Nodup := by
  obtain ⟨hf, -⟩ := sound_of_ofTypes h
  rw [List.nodup_iff_getElem?_ne_getElem?]
  intro k l hlt hl heq
  have hlast := List.getElem?_eq_getElem hl
  have hfirst := heq.trans hlast
  rw [getElem?_ancestors h hi] at hfirst hlast
  have hsame := hf.ascend_unique (size_types h ▸ hi) hfirst hlast
  omega

/-- The ancestors of a type end at a root. -/
theorem exists_root {i : Nat} (hi : i < types.length) :
    ∃ root, (f.ancestors i).getLast? = some root ∧ f.parentOf root = none := by
  have hfirst : (f.ancestors i)[0]? = some i := getElem?_ancestors h hi 0
  obtain ⟨hpos, -⟩ := List.getElem?_eq_some_iff.mp hfirst
  have hlast : (f.ancestors i)[(f.ancestors i).length - 1]?
      = some (f.ancestors i)[(f.ancestors i).length - 1] :=
    List.getElem?_eq_getElem (Nat.sub_one_lt_of_lt hpos)
  refine ⟨_, List.getLast?_eq_getElem?.trans hlast, ?_⟩
  -- one step further the walk is over
  have hover : (f.ancestors i)[(f.ancestors i).length]? = none :=
    List.getElem?_eq_none (Nat.le_refl _)
  rw [getElem?_ancestors h hi] at hlast hover
  rw [← Nat.sub_add_cancel hpos, ascend_add, hlast, Option.bind_some] at hover
  exact (ascend_one _).symm.trans hover

/-! ### Distances -/

/-- **A distance is a number of steps up.** -/
theorem distance_eq_some_iff {a b n : Nat} (ha : a < types.length) :
    f.distance a b = some n ↔ f.ascend n a = some b := by
  refine ⟨ascend_of_distance, fun hascend => ?_⟩
  have hat : (f.ancestors a)[n]? = some b := (getElem?_ancestors h ha n).trans hascend
  obtain ⟨hn, heq⟩ := List.getElem?_eq_some_iff.mp hat
  refine List.idxOf?_eq_some_iff.mpr ⟨hn, heq, fun k hk hsame => ?_⟩
  have hdistinct := List.nodup_iff_getElem?_ne_getElem?.mp (nodup_ancestors h ha) k n hk hn
  rw [List.getElem?_eq_getElem (Nat.lt_trans hk hn), List.getElem?_eq_getElem hn, hsame, heq]
    at hdistinct
  exact hdistinct rfl

/-- **Distances add up** on a way up. -/
theorem distance_add {a b c m n : Nat} (ha : a < types.length) (hm : f.distance a b = some m)
    (hn : f.distance b c = some n) : f.distance a c = some (m + n) := by
  have hfirst := ascend_of_distance hm
  have hrest := ascend_of_distance hn
  rw [distance_eq_some_iff h ha, ascend_add, hfirst, Option.bind_some, hrest]

/-- Two types that lie above each other are the same. -/
theorem eq_of_distances {a b : Nat} (ha : a < types.length) (hab : (f.distance a b).isSome)
    (hba : (f.distance b a).isSome) : a = b := by
  obtain ⟨m, hm⟩ := Option.isSome_iff_exists.mp hab
  obtain ⟨n, hn⟩ := Option.isSome_iff_exists.mp hba
  obtain ⟨hf, -⟩ := sound_of_ofTypes h
  -- the way up and back is the way of no steps
  have hround := ascend_of_distance (distance_add h ha hm hn)
  have hzero := hf.ascend_unique (size_types h ▸ ha) hround (n := 0) rfl
  obtain rfl : m = 0 := by omega
  exact Option.some.inj (ascend_of_distance hm)

/-- **Of two ancestors of a type the nearer one lies below the other.** -/
theorem distance_sub {a x y m n : Nat} (ha : a < types.length) (hx : f.distance a x = some m)
    (hy : f.distance a y = some n) (hle : m ≤ n) : f.distance x y = some (n - m) := by
  have hnear := ascend_of_distance hx
  have hfar := ascend_of_distance hy
  rw [← Nat.add_sub_of_le hle, ascend_add, hnear, Option.bind_some] at hfar
  exact (distance_eq_some_iff h (lt_of_ascend h ha hnear)).mpr hfar

/-- **Ancestry is a tree order measured by distance**, in every forest that is built. -/
theorem isTreeOrder_of_ofTypes : f.IsTreeOrder types.length where
  starts i hi := by
    rw [List.head?_eq_getElem?, getElem?_ancestors h hi]
    rfl
  passes i hi := getElem?_ancestors h hi
  distinct i hi := nodup_ancestors h hi
  ends i hi := exists_root h hi
  measured a ha b n := distance_eq_some_iff h ha
  bounded a ha b n hn := lt_length_of_ascend h ha (ascend_of_distance hn)
  composed a ha b c m n := distance_add h ha
  antisymmetric a ha b := eq_of_distances h ha
  comparable a ha x y m n := distance_sub h ha

end

/-! ### Two trees -/

namespace TwoTrees

/-- Partitions of servers in clusters, and desks in rooms, in no particular order. -/
def types : List EquipmentType :=
  [{ id := "c", name := "cluster" }, { id := "p", name := "partition", parentId := some "s" },
    { id := "d", name := "desk", parentId := some "r" },
    { id := "s", name := "server", parentId := some "c" },
    { id := "r", name := "room", parentId := some "" }]

/-- The forest of these types, whose parents stand in any order. -/
def forest : Forest := ⟨types.toArray, #[none, some 3, some 4, some 0, none]⟩

/-- Servers are one step above partitions and clusters two, so clusters are one above servers. -/
theorem isTreeOrder_forest : ofTypes types = .ok forest ∧ forest.IsTreeOrder 5 ∧
    forest.ancestors 1 = [1, 3, 0] ∧ forest.distance 1 3 = some 1 ∧
    forest.distance 1 0 = some 2 ∧ forest.distance 3 0 = some 1 ∧ forest.distance 1 4 = none := by
  have hforest : ofTypes types = .ok forest :=
    ofTypes_eq_ok.mpr ⟨by decide, [none, some 3, some 4, some 0, none],
      by decide +kernel, rfl, by decide⟩
  have horder := isTreeOrder_of_ofTypes hforest
  have hserver : forest.distance 1 3 = some 1 := by decide
  have hcluster : forest.distance 1 0 = some 2 := by decide
  exact ⟨hforest, horder, by decide, hserver, hcluster,
    horder.comparable 1 (by decide) 3 0 1 2 hserver hcluster (by decide), by decide⟩

end TwoTrees

end LicenseForecast.Forest
