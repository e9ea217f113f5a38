import LicenseForecast.Proofs.Fleet.Acceptance
import LicenseForecast.Proofs.Fleet.Users

namespace LicenseForecast

/-!
# The order in which equipment is listed

A scope lists its equipment in some order, and the walks through it follow that order: an asset is
looked up from the front of the list, and the assets below another one come level by level as they
are listed.  None of this shows in the answers about the way up, products and users if two scopes
list the same equipment (`Scope.Reordered`):

* `Scope.Reordered.asset?_eq` — an id belongs to one asset, which is found wherever it stands, so
  all ways up are the same, those that do not end included (`Scope.nearest_congr`);
* `Scope.Reordered.subtree_perm` — what is below an asset is the same equipment in another order,
  and of a subtree these answers need only which ids are in it;
* `Store.inventory_reordered` — so a fleet is served in whatever order it lists its equipment, and
  answers alike.
-/

/-- A scope lists the equipment of another one in some order, and is like it in all else. -/
structure Scope.Reordered (s s' : Scope) : Prop where
  types_eq : s'.types = s.types
  metrics_eq : s'.metrics = s.metrics
  products_eq : s'.products = s.products
  assets_perm : s'.assets.Perm s.assets

namespace Scope

variable {s s' : Scope} {f : Forest}

theorem Reordered.refl (s : Scope) : s.Reordered s := ⟨rfl, rfl, rfl, .refl _⟩

/-! ### The checks -/

namespace Reordered

/-- **A scope passes its checks in any order.** -/
theorem servable {strict : Bool} (h : s.Reordered s') (hs : s.Servable strict) :
    s'.Servable strict := by
  obtain ⟨hforest, hroles, htyped, hnodup⟩ := hs
  rw [← h.types_eq] at hforest hroles htyped
  refine ⟨hforest, hroles, fun a ha => htyped a (h.assets_perm.subset ha), ?_⟩
  exact (h.assets_perm.map _).nodup_iff.mpr hnodup

/-- A reordering passes the checks that the scope has passed. -/
theorem sound (h : s.Reordered s') (hs : s.Sound f) : s'.Sound f where
  types_eq := by
    rw [h.types_eq]
    exact hs.types_eq
  typed a ha := hs.typed a (h.assets_perm.subset ha)
  ids_nodup := (h.assets_perm.map _).nodup_iff.mpr hs.ids_nodup

end Reordered

/-! ### Ways up -/

section

variable (hparents : s'.parentOf = s.parentOf)

include hparents

/-- Ways up depend on parents alone. -/
theorem ascend_congr : s'.ascend = s.ascend := by
  funext n
  induction n with
  | zero => rfl
  | succ n ih =>
    funext a
    show (s'.parentOf a).bind (s'.ascend n) = (s.parentOf a).bind (s.ascend n)
    rw [hparents, ih]

/-- Ways up are the same, as each of their steps is. -/
theorem climb_congr : s'.climb = s.climb := by
  funext n
  induction n with
  | zero => rfl
  | succ n ih =>
    funext a
    rw [climb, climb, hparents, ih]

/-- What comes of a walk comes of it in the other scope, too. -/
private theorem nearest_of_nearest {typeName : String} {a : Asset} {walk : Walk}
    (h : s.nearest typeName a = some walk) : s'.nearest typeName a = some walk := by
  refine nearest_induction (motive := fun a walk => s'.nearest typeName a = some walk)
    (fun a htype => nearest_self htype) (fun a htype hp => ?_) (fun a p walk htype hp ih => ?_) h
  · rw [← hparents] at hp
    exact nearest_of_root htype hp
  · rw [← hparents] at hp
    exact (nearest_of_parentOf htype hp).trans ih

/-- **A search upwards depends on parents alone**, and so does whether it ends. -/
theorem nearest_congr (typeName : String) (a : Asset) :
    s'.nearest typeName a = s.nearest typeName a := by
  apply Option.ext
  intro walk
  exact ⟨nearest_of_nearest hparents.symm, nearest_of_nearest hparents⟩

end

/-! ### Searches -/

namespace Reordered

variable (h : s.Reordered s') (hs : s.Sound f)

include h hs

/-- **An id leads to the same asset** in whatever order the assets are listed. -/
theorem asset?_eq : s'.asset? = s.asset? := by
  funext id
  apply Option.ext
  intro a
  rw [(h.sound hs).asset?_eq_some_iff, hs.asset?_eq_some_iff, h.assets_perm.mem_iff]

/-- What an asset is part of does not depend on the order. -/
theorem parentOf_eq : s'.parentOf = s.parentOf := by
  funext a
  unfold parentOf
  rw [h.asset?_eq hs]

/-- Neither does whether an asset is there. -/
theorem holds_eq (id typeName : String) : s'.holds id typeName = s.holds id typeName := by
  unfold holds
  rw [h.asset?_eq hs]

/-- **A subtree holds the same assets** in another order. -/
theorem subtree_perm (id : String) (depth : Option Nat) :
    (s'.subtree id depth).Perm (s.subtree id depth) := by
  apply (List.perm_ext_iff_of_nodup (nodup_subtree (h.sound hs) id depth)
    (nodup_subtree hs id depth)).mpr
  intro a
  rw [mem_subtree_iff (h.sound hs), mem_subtree_iff hs, h.assets_perm.mem_iff,
    ascend_congr (h.parentOf_eq hs)]

/-- The same ids are within reach. -/
theorem contains_within (id : String) (depth : Nat) :
    (s'.within id depth).contains = (s.within id depth).contains := by
  funext a
  unfold within
  rw [Bool.eq_iff_iff, List.contains_iff_mem, List.contains_iff_mem]
  exact ((h.subtree_perm hs id depth).map _).mem_iff

/-! ### Answers -/

/-- Neither does the hierarchy above it. -/
theorem hierarchy_eq (id : String) (depth : Nat) :
    s'.hierarchy id depth = s.hierarchy id depth := by
  unfold hierarchy
  rw [h.asset?_eq hs, climb_congr (h.parentOf_eq hs)]

/-- Nor do the products below it, which come in their own order. -/
theorem productsBelow_eq (id : String) (depth : Nat) (metric : String) :
    s'.productsBelow id depth metric = s.productsBelow id depth metric := by
  unfold productsBelow
  simp only [h.contains_within hs, h.products_eq]

/-- Nor does whether an installation counts. -/
theorem isActive_eq (rule : PooledRule) (readings : Readings) :
    s'.isActive rule readings = s.isActive rule readings := by
  funext a
  unfold isActive
  rw [nearest_congr (h.parentOf_eq hs)]

/-- Nor does whether a product is in use. -/
theorem isInstalled_eq (id : String) (depth : Nat) (rule : PooledRule) (readings : Readings) :
    s'.isInstalled rule readings (s'.within id depth)
      = s.isInstalled rule readings (s.within id depth) := by
  funext p
  unfold isInstalled
  rw [h.contains_within hs, h.asset?_eq hs, h.isActive_eq hs]

/-- Nor do the users, who come in the order of the products. -/
theorem usersBelow_eq (id tag : String) (depth : Nat) (rule : PooledRule) (readings : Readings) :
    s'.usersBelow id tag depth rule readings = s.usersBelow id tag depth rule readings := by
  rw [usersBelow_eq_bind, usersBelow_eq_bind, h.isInstalled_eq hs]
  unfold eligible
  rw [h.products_eq]

end Reordered

/-- The first scope that holds some equipment says the same of it as its counterpart in another
    list of scopes. -/
theorem anchored_congr {R : Scope → Scope → Prop} {scopes scopes' : List Scope}
    (hscopes : List.Forall₂ R scopes scopes') {id typeName : String}
    (hholds : ∀ {s s'}, R s s' → s'.holds id typeName = s.holds id typeName)
    {α : Type} {answer : Scope → Except LookupFault α}
    (hanswer : ∀ {s s'}, R s s' → answer s' = answer s) :
    anchored scopes' id typeName answer = anchored scopes id typeName answer := by
  unfold anchored
  induction hscopes with
  | nil => rfl
  | @cons s s' _ _ hfirst _ ih =>
    rw [List.find?_cons, List.find?_cons, hholds hfirst]
    cases s.holds id typeName with
    | true => exact hanswer hfirst
    | false => exact ih

end Scope

/-! ### Fleets -/

namespace Fleet

variable {fleet fleet' : Fleet}

/-- A fleet lists the equipment of each scope of another fleet in some order, and is like it in all
    else. -/
def Reordered (fleet fleet' : Fleet) : Prop :=
  ∀ name, Option.Rel Scope.Reordered (fleet.scopes.get? name) (fleet'.scopes.get? name)

/-- Any scope may list its equipment in another order. -/
theorem reordered_insert {name : String} {s s' : Scope} (hs : fleet.scopes.get? name = some s)
    (h : s.Reordered s') : fleet.Reordered ⟨fleet.scopes.insert name s'⟩ := by
  intro other
  by_cases hname : other = name
  · rw [hname, hs, Dictionary.get?_insert_self]
    exact .some h
  · rw [Dictionary.get?_insert_of_ne hname]
    cases fleet.scopes.get? other with
    | none => exact .none
    | some t => exact .some (.refl t)

/-- **A fleet passes its checks in any order.** -/
theorem Reordered.check_eq_ok {strict : Bool} (h : fleet.Reordered fleet')
    (hcheck : fleet.check strict = .ok ()) : fleet'.check strict = .ok () := by
  rw [Fleet.check_eq_ok] at hcheck ⊢
  intro name s' hs'
  match hs : fleet.scopes.get? name, hs' ▸ h name with
  | some s, .some hscope => exact hscope.servable (hcheck name s hs)

end Fleet

namespace Store

variable {store store' : Store}

/-- The scopes that both stores show are the same one by one, and sound. -/
theorem forall₂_visible (hsettings : store'.settings = store.settings)
    (h : store.fleet.Reordered store'.fleet) (scopes : List String) :
    List.Forall₂ (fun s s' => s.Reordered s' ∧ ∃ f, s.Sound f) (store.visible scopes)
      (store'.visible scopes) := by
  have hnames : store'.visibleNames scopes = store.visibleNames scopes := by
    unfold visibleNames
    rw [hsettings]
  unfold visible
  rw [hnames]
  induction store.visibleNames scopes with
  | nil => exact .nil
  | cons name rest ih =>
    -- a name is missing in both fleets or in neither
    match hs : store.fleet.scopes.get? name, hs' : store'.fleet.scopes.get? name, h name with
    | none, none, .none =>
      rw [List.filterMap_cons_none hs, List.filterMap_cons_none hs']
      exact ih
    | some s, some s', .some hscope =>
      rw [List.filterMap_cons_some hs, List.filterMap_cons_some hs']
      have hsound := Scope.sound_of_check (check_of_mem_entries (Dictionary.get?_eq_some_iff.mp hs))
      exact .cons ⟨hscope, hsound⟩ ih

/-- **A fleet may list its equipment in any order.**  Whatever fleet is served, it is served as well
    with the equipment of its scopes in another order; and what is said of the way up from a piece
    of equipment, of the products and of the users below it is the same, in the same order. -/
theorem inventory_reordered {settings : Settings} {fleet fleet' : Fleet}
    (hstore : ofFleet settings fleet = .ok store) (h : fleet.Reordered fleet') :
    ∃ store', ofFleet settings fleet' = .ok store' ∧
      ∀ (context : Context) (id typeName : String) (depth : Nat),
        store'.inventory context.scopes (.hierarchy id typeName depth)
          = store.inventory context.scopes (.hierarchy id typeName depth) ∧
        (∀ rule, store'.inventory context.scopes (.products id typeName depth rule)
          = store.inventory context.scopes (.products id typeName depth rule)) ∧
        ∀ tag rule readings,
          store'.inventory context.scopes (.users id typeName tag depth rule readings)
            = store.inventory context.scopes (.users id typeName tag depth rule readings) := by
  obtain ⟨hsettings, rfl⟩ := eq_of_ofFleet hstore
  have hcheck : store.fleet.check settings.strict = .ok () := hsettings ▸ store.accepted
  obtain ⟨store', hstore', hsettings', rfl⟩ := ofFleet_of_check (h.check_eq_ok hcheck)
  refine ⟨store', hstore', fun context id typeName depth => ?_⟩
  have hvisible := forall₂_visible (hsettings'.trans hsettings.symm) h context.scopes
  refine ⟨?_, fun rule => ?_, fun tag rule readings => ?_⟩
  · exact Scope.anchored_congr hvisible (fun ⟨hr, _, hs⟩ => hr.holds_eq hs id typeName)
      fun ⟨hr, _, hs⟩ => congrArg Except.ok (hr.hierarchy_eq hs id depth)
  · exact Scope.anchored_congr hvisible (fun ⟨hr, _, hs⟩ => hr.holds_eq hs id typeName)
      fun ⟨hr, _, hs⟩ => hr.productsBelow_eq hs id depth rule.name
  · exact Scope.anchored_congr hvisible (fun ⟨hr, _, hs⟩ => hr.holds_eq hs id typeName)
      fun ⟨hr, _, hs⟩ => hr.usersBelow_eq hs id tag depth rule readings

end Store

/-! ### Backwards -/

namespace TwoClusters

/-- The scope with its equipment listed from below. -/
def upwards : Scope := { scope 2.0 with assets := (scope 2.0).assets.reverse }

/-- Listed from below, the equipment of both clusters has the same answers as listed from above. -/
theorem inventory_upwards : Store.ofFleet store.settings store.fleet = .ok store ∧
    store.fleet.Reordered ⟨store.fleet.scopes.insert "main" upwards⟩ ∧
    ∃ store', Store.ofFleet store.settings ⟨store.fleet.scopes.insert "main" upwards⟩ = .ok store' ∧
      store'.inventory ["main"] (.hierarchy "s" "server" 1)
        = .ok [⟨"s", "server", some "b"⟩, ⟨"b", "cluster", some "d"⟩] ∧
      store'.inventory ["main"] (.products "d" "datacenter" 2 (.pooled rule))
        = .ok [⟨"database", "db"⟩] ∧
      ∀ readings, store'.inventory ["main"] (.users "d" "datacenter" "db" 2 rule readings)
        = store.inventory ["main"] (.users "d" "datacenter" "db" 2 rule readings) := by
  have hstore := Store.ofFleet_self store
  have hreordered : store.fleet.Reordered ⟨store.fleet.scopes.insert "main" upwards⟩ :=
    Fleet.reordered_insert rfl ⟨rfl, rfl, rfl, List.reverse_perm _⟩
  obtain ⟨store', hstore', hsame⟩ := Store.inventory_reordered hstore hreordered
  have hhierarchy := (hsame { scopes := ["main"] } "s" "server" 1).1
  obtain ⟨-, hproducts, husers⟩ := hsame { scopes := ["main"] } "d" "datacenter" 2
  refine ⟨hstore, hreordered, store', hstore', hhierarchy.trans ?_, (hproducts _).trans ?_,
    fun readings => husers "db" rule readings⟩
  · decide +kernel
  · decide +kernel

end TwoClusters

end LicenseForecast
