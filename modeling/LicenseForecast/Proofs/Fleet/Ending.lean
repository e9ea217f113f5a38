import LicenseForecast.Proofs.Fleet.Agreement

namespace LicenseForecast

/-!
# Walks that end and walks that do not

The checks on loading look at the types of a scope for circles, but not at its assets.  So a walk
upwards need not end:

* `Scope.nearest_eq_none` — it does not end exactly where the links above come round in a circle
  with no asset of the type on the way (`Scope.Circles`), and otherwise it ends after at most as
  many links as there are assets (`Scope.not_circles_iff`);
* `Scope.Linked.not_circles` — there is no circle where the links follow the forest of types;
* `Store.users_endless` — the lookup of users does not end exactly where it has to look at an
  installation below such a circle.
-/

namespace Scope

/-- A walk up from an asset is over after `n` links: there is nothing more, or an asset of the
    type. -/
def Stops (s : Scope) (typeName : String) (n : Nat) (a : Asset) : Prop :=
  ∀ t, s.ascend n a = some t → t.typeName = typeName

/-- The links above an asset come round in a circle, and no asset of the type is on the way. -/
def Circles (s : Scope) (typeName : String) (a : Asset) : Prop :=
  ∃ m n t, m < n ∧ n ≤ s.assets.length ∧ s.ascend m a = some t ∧ s.ascend n a = some t ∧
    ∀ k < n, ¬ s.Stops typeName k a

section

variable {s : Scope} {f : Forest} {typeName : String} {a : Asset}

/-! ### The walk of the program -/

/-- An asset of the type is its own nearest one. -/
theorem nearest_self (h : a.typeName = typeName) : s.nearest typeName a = some (.found a) := by
  rw [nearest, if_pos h]

/-- Where nothing lies above an asset of another type the search ends. -/
theorem nearest_of_root (h : a.typeName ≠ typeName) (hp : s.parentOf a = none) :
    s.nearest typeName a = some .ended := by
  rw [nearest, if_neg h, Option.elimM_pure, hp]
  rfl

/-- Otherwise it goes on above. -/
theorem nearest_of_parentOf {p : Asset} (h : a.typeName ≠ typeName) (hp : s.parentOf a = some p) :
    s.nearest typeName a = s.nearest typeName p := by
  rw [nearest, if_neg h, Option.elimM_pure, hp]
  rfl

/-- **Induction over a walk that has a result**, from its end down. -/
theorem nearest_induction {motive : Asset → Walk → Prop}
    (found : ∀ a, a.typeName = typeName → motive a (.found a))
    (ended : ∀ a, a.typeName ≠ typeName → s.parentOf a = none → motive a .ended)
    (down : ∀ a p walk, a.typeName ≠ typeName → s.parentOf a = some p → motive p walk →
      motive a walk)
    {walk : Walk} (h : s.nearest typeName a = some walk) : motive a walk := by
  refine nearest.partial_correctness typeName s motive ?_ a walk h
  -- whatever finite part of the walk `rest` stands for, it goes on from the parent
  intro rest ih a walk hwalk
  split at hwalk
  next htype =>
    cases hwalk
    exact found a htype
  next htype =>
    rw [Option.elimM_pure] at hwalk
    cases hp : s.parentOf a with
    | none =>
      rw [hp] at hwalk
      cases hwalk
      exact ended a htype hp
    | some p =>
      rw [hp] at hwalk
      exact down a p walk htype hp (ih p walk hwalk)

/-- What is above the parent is above the asset. -/
theorem ascend_succ {p : Asset} (hp : s.parentOf a = some p) (n : Nat) :
    s.ascend (n + 1) a = s.ascend n p := by
  show (s.parentOf a).bind (s.ascend n) = _
  rw [hp, Option.bind_some]

/-- A walk that is over after some links has a result. -/
private theorem isSome_nearest_of_stops {n : Nat} (h : s.Stops typeName n a) :
    (s.nearest typeName a).isSome := by
  induction n generalizing a with
  | zero =>
    rw [nearest_self (h a rfl)]
    rfl
  | succ n ih =>
    -- one step up leaves one step less to the end of the search
    by_cases htype : a.typeName = typeName
    · rw [nearest_self htype]
      rfl
    cases hp : s.parentOf a with
    | none =>
      rw [nearest_of_root htype hp]
      rfl
    | some p =>
      rw [nearest_of_parentOf htype hp]
      exact ih fun t ht => h t ((ascend_succ hp n).trans ht)

/-- A walk that has a result is over after some links. -/
private theorem stops_of_nearest {walk : Walk} (h : s.nearest typeName a = some walk) :
    ∃ n, s.Stops typeName n a := by
  refine nearest_induction (motive := fun a _ => ∃ n, s.Stops typeName n a)
    (fun a htype => ⟨0, fun t ht => ?_⟩) (fun a _ hp => ⟨1, fun t ht => ?_⟩)
    (fun a p walk _ hp ⟨n, hn⟩ => ⟨n + 1, fun t ht => hn t ((ascend_succ hp n).symm.trans ht)⟩) h
  · cases ht
    exact htype
  · rw [ascend_one, hp] at ht
    cases ht

/-! ### Circles -/

/-- A walk that has come round never is over. -/
theorem Circles.not_stops (h : s.Circles typeName a) (k : Nat) : ¬ s.Stops typeName k a := by
  obtain ⟨m, n, t, hmn, -, hm, hn, hbefore⟩ := h
  induction k using Nat.strong_induction_on with
  | _ k ih =>
    rcases Nat.lt_or_ge k n with hk | hk
    · exact hbefore k hk
    · -- once round, the walk is where it has been before
      have hback : s.ascend k a = s.ascend (m + (k - n)) a := by
        rw [← Nat.add_sub_of_le hk, ascend_add, hn, ascend_add, hm, Nat.add_sub_cancel_left]
      intro hstops
      refine ih (m + (k - n)) (by omega) fun u hu => hstops u ?_
      rw [hback]
      exact hu

/-- **A walk that is not over in time has come round**: it has passed more assets than there are. -/
theorem circles_of_not_stops (ha : a ∈ s.assets)
    (h : ∀ k ≤ s.assets.length, ¬ s.Stops typeName k a) : s.Circles typeName a := by
  have hpassed : ∀ k ≤ s.assets.length, ∃ t, s.ascend k a = some t := by
    intro k hk
    have hgoing := h k hk
    unfold Stops at hgoing
    push Not at hgoing
    obtain ⟨t, ht, -⟩ := hgoing
    exact ⟨t, ht⟩
  obtain ⟨k, l, t, hlt, hle, hk, hl⟩ := exists_round_of_ascend ha hpassed
  exact ⟨k, l, t, hlt, hle, hk, hl, fun j hj => h j (Nat.le_of_lt (Nat.lt_of_lt_of_le hj hle))⟩

/-- **A walk ends in time or never**: it is over after at most as many links as there are assets,
    unless it comes round. -/
theorem not_circles_iff (ha : a ∈ s.assets) :
    ¬ s.Circles typeName a ↔ ∃ n ≤ s.assets.length, s.Stops typeName n a := by
  constructor
  · intro h
    by_contra hnever
    push Not at hnever
    exact h (circles_of_not_stops ha hnever)
  · rintro ⟨n, -, hstops⟩ h
    exact h.not_stops n hstops

/-- **The walk of the program does not end** exactly where the links come round. -/
theorem nearest_eq_none (ha : a ∈ s.assets) :
    s.nearest typeName a = none ↔ s.Circles typeName a := by
  constructor
  · intro h
    refine circles_of_not_stops ha fun k _ hstops => ?_
    have hsome := isSome_nearest_of_stops hstops
    rw [h] at hsome
    cases hsome
  · intro h
    cases hwalk : s.nearest typeName a with
    | none => rfl
    | some walk =>
      obtain ⟨n, hstops⟩ := stops_of_nearest hwalk
      exact absurd hstops (h.not_stops n)

/-- Where no asset lies above itself there is no circle. -/
theorem Acyclic.not_circles (h : s.Acyclic) (ha : a ∈ s.assets) : ¬ s.Circles typeName a := by
  rintro ⟨m, n, t, hmn, -, hm, hn, -⟩
  -- the asset where the walk comes round lies above itself
  refine h t (mem_of_ascend ha hm) (n - m) (by omega) ?_
  rw [← Nat.add_sub_of_le (Nat.le_of_lt hmn), ascend_add, hm, Option.bind_some] at hn
  exact hn

/-- **Every walk of the program ends** where no asset lies above itself. -/
theorem Acyclic.exists_nearest (h : s.Acyclic) (ha : a ∈ s.assets) :
    ∃ walk, s.nearest typeName a = some walk := by
  rw [← Option.ne_none_iff_exists', ne_eq, nearest_eq_none ha]
  exact h.not_circles ha

/-- **No circle where the links follow the forest**, in which no type lies above itself. -/
theorem Linked.not_circles (hlinked : s.Linked f) (hs : s.Sound f) (ha : a ∈ s.assets) :
    ¬ s.Circles typeName a :=
  (hlinked.acyclic hs).not_circles ha

end

/-! ### Users -/

section

variable {s : Scope} {rule : PooledRule} {readings : Readings}

/-- The installations of a product among some ids, in the order in which they are looked at. -/
def installations (s : Scope) (reachable : List String) (p : InstalledProduct) : List Asset :=
  (p.equipment.filter reachable.contains).filterMap s.asset?

/-- Installations are assets of the scope. -/
theorem mem_assets_of_installations {reachable : List String} {p : InstalledProduct}
    {before after : List Asset} {a : Asset}
    (h : s.installations reachable p = before ++ a :: after) : a ∈ s.assets := by
  have hmem : a ∈ s.installations reachable p := by
    rw [h]
    exact List.mem_append_right _ List.mem_cons_self
  obtain ⟨_, -, hasset⟩ := List.mem_filterMap.mp hmem
  exact (mem_of_asset? hasset).1

/-- Whether an installation counts is never known exactly if the walk up from it does not end. -/
theorem isActive_eq_endless {a : Asset} :
    s.isActive rule readings a = .error .endless ↔ s.nearest rule.base.name a = none := by
  unfold isActive
  cases s.nearest rule.base.name a with
  | none => exact ⟨fun _ => rfl, fun _ => rfl⟩
  | some walk =>
    refine ⟨fun h => ?_, nofun⟩
    cases walk with
    | ended => cases h
    | found machine =>
      rcases bind_eq_error.mp h with hfailed | ⟨_, -, h⟩
      · -- a contribution that cannot be computed is a fault of another kind
        generalize Formula.contribution rule _ = contribution at hfailed
        cases contribution <;> cases hfailed
      · cases h

/-- The users asked for depend on an installation below a circle: all products of the tag before
    some product have been settled, and so have its installations before one from which the links
    come round, none of which counts. -/
def DependsOnCircle (s : Scope) (id tag : String) (depth : Nat) (rule : PooledRule)
    (readings : Readings) : Prop :=
  ∃ settled p rest, (s.products.filter fun p => p.tag == tag && p.isLicensedUnder rule.name)
      = settled ++ p :: rest ∧
    (∀ q ∈ settled, ∃ counts, s.isInstalled rule readings (s.within id depth) q = .ok counts) ∧
    ∃ before a after, s.installations (s.within id depth) p = before ++ a :: after ∧
      (∀ b ∈ before, s.isActive rule readings b = .ok false) ∧ s.Circles rule.base.name a

/-- **The lookup of users does not end** exactly if it depends on an installation below a circle. -/
theorem usersBelow_eq_endless {id tag : String} {depth : Nat} :
    s.usersBelow id tag depth rule readings = .error .endless ↔
      s.DependsOnCircle id tag depth rule readings := by
  have hinstalled : ∀ p, s.isInstalled rule readings (s.within id depth) p = .error .endless ↔
      ∃ before a after, s.installations (s.within id depth) p = before ++ a :: after ∧
        (∀ b ∈ before, s.isActive rule readings b = .ok false) ∧ s.Circles rule.base.name a := by
    intro p
    have hfirst : s.isInstalled rule readings (s.within id depth) p = .error .endless ↔ _ :=
      anyM_eq_error
    -- the first installation that is not settled is the one whose search does not end
    rw [hfirst]
    refine exists_congr fun before => exists_congr fun a => exists_congr fun after =>
      and_congr_right fun hsplit => and_congr_right fun _ => ?_
    rw [isActive_eq_endless, nearest_eq_none (mem_assets_of_installations hsplit)]
  unfold usersBelow DependsOnCircle
  rw [bind_eq_error, filterM_eq_error]
  simp only [hinstalled]
  constructor
  · rintro (h | ⟨_, -, h⟩)
    · exact h
    · -- once the products are settled, there are users or there is nothing
      split at h <;> cases h
  · exact .inl

end

end Scope

namespace Store

/-- The lookup of users goes to the first visible scope that holds the equipment. -/
theorem inventory_users_eq_endless {store : Store} {scopes : List String}
    {id typeName tag : String} {depth : Nat} {rule : PooledRule} {readings : Readings} :
    store.inventory scopes (.users id typeName tag depth rule readings) = .error .endless ↔
      ∃ s, (store.visible scopes).find? (·.holds id typeName) = some s ∧
        s.DependsOnCircle id tag depth rule readings := by
  have hanchored : store.inventory scopes (.users id typeName tag depth rule readings)
      = Scope.anchored (store.visible scopes) id typeName
          fun s => s.usersBelow id tag depth rule readings := rfl
  rw [hanchored, Scope.anchored]
  cases (store.visible scopes).find? (·.holds id typeName) with
  | none => exact ⟨nofun, fun ⟨_, hs, _⟩ => nomatch hs⟩
  | some s =>
    simp only [Option.some.injEq, exists_eq_left']
    exact Scope.usersBelow_eq_endless

/-- **Where the lookup of users ends**, in any fleet that is served.  The walk up from an
    installation is over after at most as many links as its scope has assets, unless the links come
    round in a circle without an asset of the base type; then it does not end at all.  And the
    lookup does not end exactly if it depends on an installation below such a circle in the scope
    that is asked. -/
theorem users_endless (store : Store) (scopes : List String) (rule : PooledRule) :
    (∀ s ∈ store.visible scopes, ∀ a ∈ s.assets,
      (¬ s.Circles rule.base.name a ↔ ∃ n ≤ s.assets.length, s.Stops rule.base.name n a) ∧
        (s.nearest rule.base.name a = none ↔ s.Circles rule.base.name a)) ∧
    ∀ (id typeName tag : String) (depth : Nat) (readings : Readings),
      store.inventory scopes (.users id typeName tag depth rule readings) = .error .endless ↔
        ∃ s, (store.visible scopes).find? (·.holds id typeName) = some s ∧
          s.DependsOnCircle id tag depth rule readings := by
  refine ⟨fun s _ a ha => ⟨Scope.not_circles_iff ha, Scope.nearest_eq_none ha⟩, ?_⟩
  exact fun id typeName tag depth readings => inventory_users_eq_endless

/-- **The lookup of users ends where the links follow the forests of types.** -/
theorem users_end_of_linked {store : Store} {scopes : List String}
    (h : ∀ s ∈ store.visible scopes, ∀ f, Forest.ofTypes s.types = .ok f → s.Linked f)
    (id typeName tag : String) (depth : Nat) (rule : PooledRule) (readings : Readings) :
    store.inventory scopes (.users id typeName tag depth rule readings) ≠ .error .endless := by
  intro hendless
  obtain ⟨s, hfind, _, p, _, _, _, _, a, _, hsplit, _, hcircles⟩ :=
    inventory_users_eq_endless.mp hendless
  have hvisible := List.mem_of_find?_eq_some hfind
  obtain ⟨f, hs⟩ := sound_of_visible hvisible
  exact (h s hvisible f hs.types_eq).not_circles hs (Scope.mem_assets_of_installations hsplit)
    hcircles

end Store

/-! ### A cluster on its own -/

namespace LoneCluster

open TwoClusters (rule)

/-- A cluster that is its own parent, or has none, with a product on it. -/
def scope (parentId : Option String) : Scope where
  types := TwoClusters.types
  assets := [TwoClusters.asset "b" "cluster" parentId]
  products := [{ name := "database", tag := "db", equipment := ["b"], users := [⟨"u", "anna", 5⟩] }]

def fleet (parentId : Option String) : Fleet :=
  ⟨⟨[("main", scope parentId)], List.pairwise_singleton ..⟩⟩

/-- Either fleet is served, this one too: nobody looks at the parents of assets. -/
def ownParent : Store := ⟨{ strict := false }, fleet (some "b"), by decide +kernel⟩

/-- The store in which the cluster has no parent. -/
def noParent : Store := ⟨{ strict := false }, fleet none, by decide +kernel⟩

/-- Who uses the product is never known if the cluster is its own parent. -/
theorem users_ownParent :
    ownParent.inventory ["main"] (.users "b" "cluster" "db" 1 rule .empty) = .error .endless ∧
    noParent.inventory ["main"] (.users "b" "cluster" "db" 1 rule .empty) ≠ .error .endless := by
  constructor
  · have hround : (scope (some "b")).Circles rule.base.name
        (TwoClusters.asset "b" "cluster" (some "b")) := by
      refine ⟨0, 1, _, Nat.zero_lt_one, Nat.le_refl 1, rfl, rfl, fun k hk hstops => ?_⟩
      cases Nat.lt_one_iff.mp hk
      exact absurd (hstops _ rfl) (by decide)
    refine ((Store.users_endless _ _ _).2 ..).mpr ⟨scope (some "b"), rfl, ?_⟩
    exact ⟨[], _, [], rfl, nofun, [], _, [], rfl, nofun, hround⟩
  · refine Store.users_end_of_linked (fun s hs f hf => ?_) _ _ _ _ _ _
    cases List.mem_singleton.mp hs
    cases hf.symm.trans TwoClusters.ofTypes_types
    decide +kernel

end LoneCluster

end LicenseForecast
