import LicenseForecast.Proofs.Distinct
import LicenseForecast.Proofs.Fleet.Machines

namespace LicenseForecast

/-!
# Who uses a product

The lookup of users goes through the products with a tag, asks of each whether it has an
installation that counts, and collects the users of those that do, each user once.  What it stops
early and what it leaves out makes no difference to who comes up: wherever the walks up from
installations end,

* `Scope.isInstalled_iff` — a product is in use exactly if some installation counts, although
  those after the first one that does are not looked at;
* `Scope.usersBelow_eq` — the users are the first entries of each user id among the products in
  use (`Scope.InUse`);
* `Store.users_inUse` — so the ids that come up are those that products in use list, each of them
  once and as it is listed first, and there is no data exactly if there are none.
-/

namespace Scope

variable {s : Scope} {f : Forest} {id tag : String} {depth : Nat} {rule : PooledRule}
  {readings : Readings} {p : InstalledProduct}

/-- An installation of a product on an asset or at most `depth` links below it. -/
def InstalledOn (s : Scope) (id : String) (depth : Nat) (p : InstalledProduct) (a : Asset) :
    Prop :=
  a ∈ s.assets ∧ a.id ∈ p.equipment ∧ ∃ k ≤ depth, (s.ascend k a).map (·.id) = some id

/-- A product counts among those asked about. -/
structure InUse (s : Scope) (id tag : String) (depth : Nat) (rule : PooledRule)
    (readings : Readings) (p : InstalledProduct) : Prop where
  tagged : p.tag = tag
  licensed : p.metrics = [] ∨ rule.name ∈ p.metrics
  installed : ∃ a, s.InstalledOn id depth p a ∧ s.Counts rule readings a

/-- A user as some product in use lists it first, in the order of the products and of the users
    of each. -/
def ListsFirst (products : List InstalledProduct) (used : InstalledProduct → Prop)
    (u : NamedUser) : Prop :=
  ∃ before p after, products = before ++ p :: after ∧ used p ∧
    p.users.find? (·.userId == u.userId) = some u ∧
    ∀ q ∈ before, used q → ∀ v ∈ q.users, v.userId ≠ u.userId

/-! ### Products in use -/

/-- The products with a tag that are licensed under a rule. -/
def eligible (s : Scope) (tag : String) (rule : PooledRule) : List InstalledProduct :=
  s.products.filter fun p => p.tag == tag && p.isLicensedUnder rule.name

/-- Eligible are the products of the tag that are licensed under the metric, or under none. -/
theorem mem_eligible_iff : p ∈ s.eligible tag rule ↔
    p ∈ s.products ∧ p.tag = tag ∧ (p.metrics = [] ∨ rule.name ∈ p.metrics) := by
  unfold eligible InstalledProduct.isLicensedUnder
  rw [List.mem_filter, Bool.and_eq_true, beq_iff_eq, Bool.or_eq_true, List.isEmpty_iff,
    List.contains_iff_mem]

/-- The users of some products, each user once. -/
def namedUsers (products : List InstalledProduct) : List NamedUser :=
  NamedUser.distinct (products.flatMap (·.users))

/-- The users of some products, or that there is nothing. -/
def answerOf (products : List InstalledProduct) : Except LookupFault (List NamedUser) :=
  if namedUsers products = [] then .error .noData else .ok (namedUsers products)

/-- The lookup of users, step by step. -/
theorem usersBelow_eq_bind : s.usersBelow id tag depth rule readings
    = (s.eligible tag rule).filterM (s.isInstalled rule readings (s.within id depth))
        >>= answerOf := by
  unfold usersBelow answerOf namedUsers
  simp only [← List.isEmpty_iff]
  refine congrArg (_ >>= ·) (funext fun installed => ?_)
  show (if _ then _ else _) = _
  split <;> rfl

/-- An installation within reach is an asset of the scope so many links below. -/
theorem mem_installations_iff (hs : s.Sound f) {a : Asset} :
    a ∈ s.installations (s.within id depth) p ↔ s.InstalledOn id depth p a := by
  unfold installations InstalledOn
  simp only [List.mem_filterMap, List.mem_filter, List.contains_iff_mem]
  constructor
  · rintro ⟨_, ⟨hequipment, hwithin⟩, hasset⟩
    obtain ⟨ha, rfl⟩ := mem_of_asset? hasset
    exact ⟨ha, hequipment, (mem_within_iff hs ha).mp hwithin⟩
  · rintro ⟨ha, hequipment, hwithin⟩
    exact ⟨a.id, ⟨hequipment, (mem_within_iff hs ha).mpr hwithin⟩, hs.asset?_eq ha⟩

section

variable (hs : s.Sound f) (hacyclic : s.Acyclic)

include hs hacyclic

/-- **A product has an installation that counts** exactly if that is what is found out. -/
theorem isInstalled_iff {found : Bool}
    (h : s.isInstalled rule readings (s.within id depth) p = .ok found) :
    found = true ↔ ∃ a, s.InstalledOn id depth p a ∧ s.Counts rule readings a := by
  have hsearch : (s.installations (s.within id depth) p).anyM (s.isActive rule readings)
      = .ok found := h
  rw [eq_true_of_anyM_eq_ok hsearch]
  refine exists_congr fun a => ?_
  rw [mem_installations_iff hs]
  refine and_congr_right fun ha => ?_
  obtain ⟨walk, hwalk⟩ := hacyclic.exists_nearest ha.1
  exact isActive_eq_true hwalk

/-- A search for an installation that counts fails only at one whose machine cannot be counted. -/
theorem isInstalled_eq_error {fault : LookupFault}
    (h : s.isInstalled rule readings (s.within id depth) p = .error fault) :
    ∃ a m failure, s.InstalledOn id depth p a ∧ s.IsNearest rule.base.name a m ∧
      Contributes rule readings m (.error failure) ∧ fault = assetFault m failure := by
  have hsearch : (s.installations (s.within id depth) p).anyM (s.isActive rule readings)
      = .error fault := h
  obtain ⟨before, a, after, hsplit, -, hfault⟩ := anyM_eq_error.mp hsearch
  have ha : s.InstalledOn id depth p a := by
    rw [← mem_installations_iff hs, hsplit]
    exact List.mem_append_right _ List.mem_cons_self
  obtain ⟨walk, hwalk⟩ := hacyclic.exists_nearest ha.1
  obtain ⟨m, failure, hnearest, hfailure, rfl⟩ := isActive_eq_error hwalk hfault
  exact ⟨a, m, failure, ha, hnearest, hfailure, rfl⟩

/-- **What the lookup of users answers** unless it fails: the users of the products in use. -/
theorem usersBelow_eq (hread : ∀ text,
      s.usersBelow id tag depth rule readings ≠ .error (.malformed text)) :
    ∃ used : InstalledProduct → Bool,
      (∀ p ∈ s.products, used p = true ↔ s.InUse id tag depth rule readings p) ∧
      s.usersBelow id tag depth rule readings = answerOf (s.products.filter used) := by
  rw [usersBelow_eq_bind] at hread ⊢
  cases hkept : (s.eligible tag rule).filterM
      (s.isInstalled rule readings (s.within id depth)) with
  | error fault =>
    obtain ⟨_, p, _, -, -, hfault⟩ := filterM_eq_error.mp hkept
    obtain ⟨_, m, failure, -, -, -, rfl⟩ := isInstalled_eq_error hs hacyclic hfault
    rw [hkept] at hread
    exact absurd rfl (hread _)
  | ok kept =>
    -- what was found out about the eligible products decides which of all products are in use
    obtain ⟨installed, hinstalled, rfl⟩ := filterM_eq_ok hkept
    refine ⟨fun p => installed p && (p.tag == tag && p.isLicensedUnder rule.name),
      fun p hp => ?_, congrArg answerOf List.filter_filter⟩
    have heligible : (p.tag == tag && p.isLicensedUnder rule.name) = true ↔
        p ∈ s.eligible tag rule := by
      rw [eligible, List.mem_filter, and_iff_right hp]
    rw [Bool.and_eq_true, heligible]
    constructor
    · rintro ⟨hfound, hmem⟩
      obtain ⟨-, htag, hlicensed⟩ := mem_eligible_iff.mp hmem
      exact ⟨htag, hlicensed, (isInstalled_iff hs hacyclic (hinstalled p hmem)).mp hfound⟩
    · rintro ⟨htag, hlicensed, hcounts⟩
      have hmem := mem_eligible_iff.mpr ⟨hp, htag, hlicensed⟩
      exact ⟨(isInstalled_iff hs hacyclic (hinstalled p hmem)).mpr hcounts, hmem⟩

end

/-! ### The users of some products -/

/-- There is no data if the products list no user. -/
theorem answerOf_eq_noData {products : List InstalledProduct} :
    answerOf products = .error .noData ↔ namedUsers products = [] := by
  unfold answerOf
  split
  next hnone => exact ⟨fun _ => hnone, fun _ => rfl⟩
  next hsome => exact ⟨nofun, fun hnone => absurd hnone hsome⟩

/-- Otherwise the answer are the users that the products list. -/
theorem answerOf_eq_ok {products : List InstalledProduct} {users : List NamedUser} :
    answerOf products = .ok users ↔ users ≠ [] ∧ users = namedUsers products := by
  unfold answerOf
  split
  next hnone => exact ⟨nofun, fun ⟨hne, h⟩ => absurd (h.trans hnone) hne⟩
  next hsome =>
    rw [Except.ok.injEq]
    exact ⟨fun h => ⟨h ▸ hsome, h.symm⟩, fun h => h.2.symm⟩

section

variable {products : List InstalledProduct} {used : InstalledProduct → Bool}
  {inUse : InstalledProduct → Prop} (hused : ∀ p ∈ products, used p = true ↔ inUse p)

include hused

/-- **The ids that come up** are those that products in use list. -/
theorem mem_userIds_iff {userId : String} :
    userId ∈ (namedUsers (products.filter used)).map (·.userId) ↔
      ∃ p ∈ products, inUse p ∧ ∃ u ∈ p.users, u.userId = userId := by
  unfold namedUsers NamedUser.distinct
  rw [NamedUser.keepsFirst.mem_keys_iff]
  simp only [List.mem_map, List.mem_flatMap, List.mem_filter]
  constructor
  · rintro ⟨u, ⟨p, ⟨hp, hfound⟩, hu⟩, rfl⟩
    exact ⟨p, hp, (hused p hp).mp hfound, u, hu, rfl⟩
  · rintro ⟨p, hp, hinUse, u, hu, rfl⟩
    exact ⟨u, ⟨p, ⟨hp, (hused p hp).mpr hinUse⟩, hu⟩, rfl⟩

/-- There are no users exactly if no product in use has any. -/
theorem namedUsers_eq_nil :
    namedUsers (products.filter used) = [] ↔ ∀ p ∈ products, inUse p → p.users = [] := by
  rw [← List.map_eq_nil_iff (f := NamedUser.userId), List.eq_nil_iff_forall_not_mem]
  simp only [mem_userIds_iff hused]
  constructor
  · intro h p hp hinUse
    rw [List.eq_nil_iff_forall_not_mem]
    exact fun u hu => h u.userId ⟨p, hp, hinUse, u, hu, rfl⟩
  · rintro h userId ⟨p, hp, hinUse, u, hu, -⟩
    rw [h p hp hinUse] at hu
    cases hu

/-- **The users that come up** are those that products in use list first. -/
theorem mem_namedUsers_iff {u : NamedUser} :
    u ∈ namedUsers (products.filter used) ↔ ListsFirst products inUse u := by
  unfold namedUsers NamedUser.distinct ListsFirst
  rw [NamedUser.keepsFirst.mem_iff, and_iff_right List.not_mem_nil, List.find?_flatMap,
    List.findSome?_eq_some_iff]
  simp only [List.find?_eq_none, beq_iff_eq]
  constructor
  · rintro ⟨before, p, after, hsplit, hfirst, hbefore⟩
    -- between the products before there may be others that are not in use
    obtain ⟨front, rest, rfl, rfl, hrest⟩ := List.filter_eq_append_iff.mp hsplit
    obtain ⟨unused, after, rfl, hunused, hp, -⟩ := List.filter_eq_cons_iff.mp hrest
    refine ⟨front ++ unused, p, after, by rw [List.append_assoc],
      (hused p (by simp)).mp hp, hfirst, fun q hq hinUse => ?_⟩
    have hfound := (hused q (by simp only [List.mem_append] at hq ⊢; tauto)).mpr hinUse
    rcases List.mem_append.mp hq with hq | hq
    · exact hbefore q (List.mem_filter.mpr ⟨hq, hfound⟩)
    · exact absurd hfound (hunused q hq)
  · rintro ⟨before, p, after, rfl, hp, hfirst, hbefore⟩
    have hfound := (hused p (by simp)).mpr hp
    refine ⟨before.filter used, p, after.filter used, ?_, hfirst, fun q hq => ?_⟩
    · rw [List.filter_append, List.filter_cons_of_pos hfound]
    · obtain ⟨hq, hfound⟩ := List.mem_filter.mp hq
      exact hbefore q hq ((hused q (List.mem_append_left _ hq)).mp hfound)

end

/-! ### The lookup -/

/-- What is answered to a lookup of users at or below an asset. -/
structure AnswersUsers (s : Scope) (id tag : String) (depth : Nat) (rule : PooledRule)
    (readings : Readings) (answer : Except LookupFault (List NamedUser)) : Prop where
  /-- The answer is never an empty list. -/
  answered : answer = .error .noData ∨ ∃ users, answer = .ok users ∧ users ≠ []
  noData : answer = .error .noData ↔
    ∀ p ∈ s.products, s.InUse id tag depth rule readings p → p.users = []
  distinct : ∀ users, answer = .ok users → (users.map (·.userId)).Nodup
  listed : ∀ users, answer = .ok users → ∀ userId, userId ∈ users.map (·.userId) ↔
    ∃ p ∈ s.products, s.InUse id tag depth rule readings p ∧ ∃ u ∈ p.users, u.userId = userId
  first : ∀ users, answer = .ok users → ∀ u, u ∈ users ↔
    ListsFirst s.products (s.InUse id tag depth rule readings) u

/-- **The users of the products in use** are what should be answered. -/
theorem answersUsers_answerOf {used : InstalledProduct → Bool}
    (hused : ∀ p ∈ s.products, used p = true ↔ s.InUse id tag depth rule readings p) :
    s.AnswersUsers id tag depth rule readings (answerOf (s.products.filter used)) := by
  constructor
  case answered =>
    -- the answer is empty exactly if nobody is named, and then it is no answer
    by_cases hnone : namedUsers (s.products.filter used) = []
    · exact .inl (answerOf_eq_noData.mpr hnone)
    · exact .inr ⟨_, answerOf_eq_ok.mpr ⟨hnone, rfl⟩, hnone⟩
  case noData => rw [answerOf_eq_noData, namedUsers_eq_nil hused]
  case distinct =>
    intro users h
    rw [(answerOf_eq_ok.mp h).2]
    exact NamedUser.keepsFirst.nodup
  case listed =>
    intro users h userId
    rw [(answerOf_eq_ok.mp h).2]
    exact mem_userIds_iff hused
  case first =>
    intro users h u
    rw [(answerOf_eq_ok.mp h).2]
    exact mem_namedUsers_iff hused

/-- The lookup fails on an installation of a product that is asked about: what its machine
    contributes cannot be computed. -/
def FailsOnMachine (s : Scope) (id tag : String) (depth : Nat) (rule : PooledRule)
    (readings : Readings) (fault : LookupFault) : Prop :=
  ∃ p ∈ s.eligible tag rule, ∃ a m failure, s.InstalledOn id depth p a ∧
    s.IsNearest rule.base.name a m ∧ Contributes rule readings m (.error failure) ∧
    fault = .malformed s!"equipment {m.id}: {failure.message}"

/-- **How the lookup of users fails** where the walks up from installations end. -/
theorem usersBelow_eq_error (hs : s.Sound f) (hacyclic : s.Acyclic) {fault : LookupFault}
    (h : s.usersBelow id tag depth rule readings = .error fault) :
    fault = .noData ∨ s.FailsOnMachine id tag depth rule readings fault := by
  rw [usersBelow_eq_bind] at h
  rcases bind_eq_error.mp h with h | ⟨kept, -, h⟩
  · obtain ⟨_, p, _, hsplit, -, hfault⟩ := filterM_eq_error.mp h
    have hp : p ∈ s.eligible tag rule := hsplit ▸ List.mem_append_right _ List.mem_cons_self
    obtain ⟨a, m, failure, ha, hnearest, hfailure, rfl⟩ :=
      isInstalled_eq_error hs hacyclic hfault
    exact .inr ⟨p, hp, a, m, failure, ha, hnearest, hfailure, rfl⟩
  · unfold answerOf at h
    split at h <;> cases h
    exact .inl rfl

end Scope

/-- **Users are those of the products in use, each of them once.**  Where no asset lies above
    itself, a lookup of users that finds its equipment goes wrong only if the contribution of a
    machine cannot be computed.  Otherwise it answers the user ids that products in use list, each
    as it is listed first, and that there is no data exactly if there are none. -/
theorem Store.users_inUse {store : Store} {scopes : List String} {id typeName tag : String}
    {depth : Nat} {rule : PooledRule} {readings : Readings}
    (hacyclic : ∀ s ∈ store.visible scopes, s.Acyclic)
    (hfound : store.inventory scopes (.users id typeName tag depth rule readings)
      ≠ .error .notFound) :
    ∃ s, (store.visible scopes).find? (·.holds id typeName) = some s ∧
      (∀ fault, store.inventory scopes (.users id typeName tag depth rule readings)
          = .error fault →
        fault = .noData ∨ s.FailsOnMachine id tag depth rule readings fault) ∧
      ((∀ text, store.inventory scopes (.users id typeName tag depth rule readings)
          ≠ .error (.malformed text)) →
        s.AnswersUsers id tag depth rule readings
          (store.inventory scopes (.users id typeName tag depth rule readings))) := by
  have hanswer : store.inventory scopes (.users id typeName tag depth rule readings)
      = Scope.anchored (store.visible scopes) id typeName
          fun s => s.usersBelow id tag depth rule readings := rfl
  rw [hanswer] at hfound ⊢
  cases hfind : (store.visible scopes).find? (·.holds id typeName) with
  | none =>
    unfold Scope.anchored at hfound
    rw [hfind] at hfound
    exact absurd rfl hfound
  | some s =>
    have hvisible := List.mem_of_find?_eq_some hfind
    obtain ⟨f, hs⟩ := sound_of_visible hvisible
    rw [Scope.anchored_of_find? hfind]
    refine ⟨s, rfl, fun fault h => Scope.usersBelow_eq_error hs (hacyclic s hvisible) h,
      fun hread => ?_⟩
    -- no machine is unreadable, so the answer is the one over the products in use
    obtain ⟨used, hused, heq⟩ := Scope.usersBelow_eq hs (hacyclic s hvisible) hread
    rw [heq]
    exact Scope.answersUsers_answerOf hused

/-! ### Products of one tag -/

namespace SharedTag

open TwoClusters (asset server rule)

/-- A user of the database. -/
def anna : NamedUser := ⟨"1", "anna", 5⟩

/-- Another user of the database, who uses the cache as well. -/
def bert : NamedUser := ⟨"2", "bert", 1⟩

/-- A user of the cache. -/
def cleo : NamedUser := ⟨"4", "cleo", 2⟩

/-- A database on a server with two cores. -/
def database : InstalledProduct :=
  { name := "database", tag := "db", equipment := ["s"], users := [anna, bert] }

/-- An archive on a server without any, so that its user does not come up. -/
def archive : InstalledProduct :=
  { name := "archive", tag := "db", equipment := ["t"], users := [⟨"5", "dora", 1⟩] }

/-- A cache on a cluster as such; one of its users is known from the database. -/
def cache : InstalledProduct :=
  { name := "cache", tag := "db", equipment := ["e"], users := [⟨"3", "bert", 9⟩, cleo] }

/-- A server without any cores. -/
def idle : Asset := (asset "t" "server" (some "e")).withValue "c" (.float 0.0)

/-- Two servers, one of them idle, and a cluster without any. -/
def scope : Scope where
  types := TwoClusters.types
  assets := [asset "d" "datacenter" none, asset "b" "cluster" (some "d"),
    asset "e" "cluster" (some "d"), server 2.0, idle]
  products := [database, archive, cache]

def store : Store :=
  ⟨{ strict := false }, ⟨⟨[("main", scope)], List.pairwise_singleton ..⟩⟩, by decide +kernel⟩

private theorem visible_store : store.visible ["main"] = [scope] := rfl

/-- No asset of the scope lies above itself. -/
theorem acyclic_scope : scope.Acyclic := by
  have hvisible : scope ∈ store.visible ["main"] := List.mem_singleton_self scope
  obtain ⟨f, hs⟩ := Store.sound_of_visible hvisible
  cases hs.types_eq.symm.trans TwoClusters.ofTypes_types
  have hlinked : scope.Linked TwoClusters.forest := by decide +kernel
  exact hlinked.acyclic hs

/-- No server is above a cluster. -/
theorem lacks_cluster : scope.Lacks rule.base.name (asset "e" "cluster" (some "d")) := by
  intro n t ht
  match n with
  | 0 =>
    cases ht
    decide
  | 1 =>
    have htop : some (asset "d" "datacenter" none) = some t := ht
    cases htop
    decide
  | n + 2 =>
    have hnone : none = some t := ht
    cases hnone

/-- The database is in use, and so is what runs on no server at all. -/
theorem isInstalled_products :
    scope.isInstalled rule .empty (scope.within "d" 2) database = .ok true ∧
    scope.isInstalled rule .empty (scope.within "d" 2) archive = .ok false ∧
    scope.isInstalled rule .empty (scope.within "d" 2) cache = .ok true := by
  have hserver : scope.isActive rule .empty (server 2.0) = .ok true := by
    rw [Scope.isActive_of_isNearest ⟨rfl, 0, rfl, nofun⟩]
    decide +kernel
  have hidle : scope.isActive rule .empty idle = .ok false := by
    rw [Scope.isActive_of_isNearest ⟨rfl, 0, rfl, nofun⟩]
    decide +kernel
  have hcluster : scope.isActive rule .empty (asset "e" "cluster" (some "d")) = .ok true := by
    have hmem : asset "e" "cluster" (some "d") ∈ scope.assets := by
      simp only [scope, List.mem_cons, true_or, or_true]
    -- a cluster has no machine above it, and such an installation counts
    obtain ⟨walk, hwalk⟩ := acyclic_scope.exists_nearest hmem
    exact (Scope.isActive_eq_true hwalk).mpr (.inr lacks_cluster)
  refine ⟨?_, ?_, ?_⟩
  · show [server 2.0].anyM _ = _
    rw [anyM_cons, hserver]
    rfl
  · show [idle].anyM _ = _
    rw [anyM_cons, hidle]
    rfl
  · show [asset "e" "cluster" (some "d")].anyM _ = _
    rw [anyM_cons, hcluster]
    rfl

/-- A user who is listed twice comes up once, as the database lists that user. -/
theorem users_database :
    ∃ users, store.inventory ["main"] (.users "d" "datacenter" "db" 2 rule .empty) = .ok users ∧
      users = [anna, bert, cleo] ∧ (users.map (·.userId)).Nodup ∧
      Scope.ListsFirst scope.products (scope.InUse "d" "db" 2 rule .empty) bert := by
  obtain ⟨hdatabase, harchive, hcache⟩ := isInstalled_products
  have hanswer : store.inventory ["main"] (.users "d" "datacenter" "db" 2 rule .empty)
      = .ok [anna, bert, cleo] := by
    show scope.usersBelow "d" "db" 2 rule .empty = _
    rw [Scope.usersBelow_eq_bind]
    show [database, archive, cache].filterM _ >>= _ = _
    simp only [List.filterM, List.filterAuxM, hdatabase, harchive, hcache]
    rfl
  have hacyclic : ∀ s ∈ store.visible ["main"], s.Acyclic := by
    rw [visible_store]
    exact fun s hs => List.mem_singleton.mp hs ▸ acyclic_scope
  have hfound : store.inventory ["main"] (.users "d" "datacenter" "db" 2 rule .empty)
      ≠ .error .notFound := by
    simp [hanswer]
  have hread : ∀ text, store.inventory ["main"] (.users "d" "datacenter" "db" 2 rule .empty)
      ≠ .error (.malformed text) := by
    simp [hanswer]
  obtain ⟨s, hfind, -, husers⟩ := Store.users_inUse hacyclic hfound
  have hscope : some scope = some s := hfind
  cases hscope
  have h := husers hread
  exact ⟨_, hanswer, rfl, h.distinct _ hanswer,
    (h.first _ hanswer bert).mp (List.mem_cons_of_mem _ List.mem_cons_self)⟩

end SharedTag

end LicenseForecast
