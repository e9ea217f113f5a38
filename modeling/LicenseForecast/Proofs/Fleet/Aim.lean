import LicenseForecast.Proofs.Fleet.Users

namespace LicenseForecast

/-!
# Whom readings are about

A simulation asks for users with readings of one machine.  They are compared with every machine
that an installation runs on, by the value of the first identifier of the base type, and replace
the values of a machine only where they name it (`Scope.Names`):

* `Scope.usersBelow_congr` — so two sets of readings that name no machine that the lookup comes to
  make no difference to it;
* `Scope.not_names_of_value?_eq_none` — without a value of the identifier, readings name none;
* `Store.users_aimedElsewhere` — both together, for any store and any question about users.
-/

namespace Scope

variable {s : Scope} {f : Forest} {id tag : String} {depth : Nat} {rule : PooledRule}
  {readings a b : Readings} {m : Asset}

/-- Readings name no machine that runs an installation, within so many links below an asset, of a
    product with a tag that is licensed under a rule. -/
def NamesNone (s : Scope) (id tag : String) (depth : Nat) (rule : PooledRule)
    (readings : Readings) : Prop :=
  ∀ p ∈ s.products, p.tag = tag → (p.metrics = [] ∨ rule.name ∈ p.metrics) →
    ∀ x, s.InstalledOn id depth p x → ∀ m, s.IsNearest rule.base.name x m → ¬ Names rule readings m

/-! ### One machine -/

/-- Without a value of the identifier, readings name no machine. -/
theorem not_names_of_value?_eq_none (h : ∀ identifier,
      rule.base.attributes.find? (·.isIdentifier) = some identifier →
        readings.value? identifier.id = none) : ¬ Names rule readings m := by
  rintro ⟨identifier, requested, stored, hidentifier, hrequested, -, -⟩
  cases (h identifier hidentifier).symm.trans hrequested

/-! ### The lookup -/

/-- **Readings that name no machine of an installation make no difference.** -/
theorem usersBelow_congr (hs : s.Sound f) (ha : s.NamesNone id tag depth rule a)
    (hb : s.NamesNone id tag depth rule b) :
    s.usersBelow id tag depth rule a = s.usersBelow id tag depth rule b := by
  rw [usersBelow_eq_bind, usersBelow_eq_bind]
  refine congrArg (· >>= answerOf) (filterM_congr fun p hp => ?_)
  obtain ⟨hp, htag, hlicensed⟩ := mem_eligible_iff.mp hp
  refine anyM_congr fun x hx => isActive_congr fun m hm => ?_
  have hx := (mem_installations_iff hs).mp hx
  rw [effectiveReadings_of_not_names (ha p hp htag hlicensed x hx m hm),
    effectiveReadings_of_not_names (hb p hp htag hlicensed x hx m hm)]

end Scope

/-- **Overrides reach only the machine that they name.**  A lookup of users answers the same for
    two sets of readings that name no machine of an installation that it looks at, whatever comes
    of it; and for readings without a value of the identifier it answers as for none at all. -/
theorem Store.users_aimedElsewhere (store : Store) (scopes : List String)
    (id typeName tag : String) (depth : Nat) (rule : PooledRule) :
    (∀ a b : Readings,
      (∀ s, (store.visible scopes).find? (·.holds id typeName) = some s →
        s.NamesNone id tag depth rule a ∧ s.NamesNone id tag depth rule b) →
      store.inventory scopes (.users id typeName tag depth rule a)
        = store.inventory scopes (.users id typeName tag depth rule b)) ∧
    (∀ readings : Readings,
      (∀ identifier, rule.base.attributes.find? (·.isIdentifier) = some identifier →
        readings.value? identifier.id = none) →
      store.inventory scopes (.users id typeName tag depth rule readings)
        = store.inventory scopes (.users id typeName tag depth rule .empty)) := by
  have hsame : ∀ a b : Readings,
      (∀ s, (store.visible scopes).find? (·.holds id typeName) = some s →
        s.NamesNone id tag depth rule a ∧ s.NamesNone id tag depth rule b) →
      store.inventory scopes (.users id typeName tag depth rule a)
        = store.inventory scopes (.users id typeName tag depth rule b) := by
    -- either readings agree with what is stored, so they agree with each other
    intro a b hnone
    show Scope.anchored (store.visible scopes) id typeName _
      = Scope.anchored (store.visible scopes) id typeName _
    unfold Scope.anchored
    cases hfind : (store.visible scopes).find? (·.holds id typeName) with
    | none => rfl
    | some s =>
      obtain ⟨f, hs⟩ := sound_of_visible (List.mem_of_find?_eq_some hfind)
      obtain ⟨ha, hb⟩ := hnone s hfind
      exact Scope.usersBelow_congr hs ha hb
  refine ⟨hsame, fun readings hvalue => hsame readings .empty fun s _ => ⟨?_, ?_⟩⟩
  · exact fun p _ _ _ x _ m _ => Scope.not_names_of_value?_eq_none hvalue
  · exact fun p _ _ _ x _ m _ => Scope.not_names_of_value?_eq_none fun _ _ => rfl

/-! ### Servers with names -/

namespace NamedServers

open TwoClusters (asset cores)

/-- The attribute by which a machine is meant. -/
def name : Attribute := ({ id := "n", name := "code", kind := .text } : Attribute).identifier

/-- Machines with an identifier. -/
def base : EquipmentType :=
  { id := "1", name := "server", parentId := some "2", attributes := [name, cores] }

/-- Servers with names, of which one runs a database. -/
def server (id parentId : String) : Asset :=
  ((asset id "server" (some parentId)).withValue "n" (.text id)).withValue "c" (.float 2.0)

/-- A database on the first server. -/
def database : InstalledProduct :=
  { name := "database", tag := "db", equipment := ["s"], users := [⟨"1", "anna", 5⟩] }

/-- Two servers of the same cluster. -/
def scope : Scope where
  types := base :: TwoClusters.types.tail
  assets := [asset "d" "datacenter" none, asset "b" "cluster" (some "d"), server "s" "b",
    server "t" "b"]
  products := [database]

def store : Store :=
  ⟨{ strict := false }, ⟨⟨[("main", scope)], List.pairwise_singleton ..⟩⟩, by decide +kernel⟩

/-- The rule that counts machines with an identifier. -/
def rule : PooledRule := { TwoClusters.rule with start := base, base }

/-- The server of a name without any cores. -/
def switchedOff (name : String) : Readings :=
  (Dictionary.empty.insert "n" ⟨"code", .text name, false⟩).insert "c" ⟨"cores", .float 0.0, true⟩

/-- A server is its own machine. -/
theorem isNearest_server : scope.IsNearest rule.base.name (server "s" "b") (server "s" "b") :=
  ⟨rfl, 0, rfl, nofun⟩

/-- Only the server that runs the database is looked at. -/
theorem namesNone_other : scope.NamesNone "d" "db" 2 rule (switchedOff "t") := by
  intro p hp _ _ x hx m hm hnames
  cases List.mem_singleton.mp hp
  obtain ⟨hmem, hequipment, -⟩ := hx
  have hid := List.mem_singleton.mp hequipment
  simp only [scope, List.mem_cons, List.not_mem_nil, or_false] at hmem
  rcases hmem with rfl | rfl | rfl | rfl
  case inr.inr.inl =>
    cases (Scope.nearest_eq_found.mpr isNearest_server).symm.trans (Scope.nearest_eq_found.mpr hm)
    have hother : Scope.isMeant rule (switchedOff "t") (server "s" "b") = false := by
      decide +kernel
    exact absurd (Scope.isMeant_iff.mpr hnames) (Bool.eq_false_iff.mp hother)
  all_goals exact absurd hid (by decide)

/-- What is answered depends on whether the server of the database contributes. -/
theorem users_of_isActive {readings : Readings} {active : Bool}
    (h : scope.isActive rule readings (server "s" "b") = .ok active) :
    store.inventory ["main"] (.users "d" "datacenter" "db" 2 rule readings)
      = if active then .ok database.users else .error .noData := by
  have hinstalled : scope.isInstalled rule readings (scope.within "d" 2) database = .ok active := by
    show [server "s" "b"].anyM _ = _
    rw [anyM_cons, h]
    cases active <;> rfl
  show scope.usersBelow "d" "db" 2 rule readings = _
  rw [Scope.usersBelow_eq_bind]
  show [database].filterM _ >>= _ = _
  simp only [List.filterM, List.filterAuxM, hinstalled]
  cases active <;> rfl

/-- Switching off another server leaves the users of the database alone; switching off its own
    leaves no users. -/
theorem users_switchedOff :
    store.inventory ["main"] (.users "d" "datacenter" "db" 2 rule (switchedOff "t"))
      = store.inventory ["main"] (.users "d" "datacenter" "db" 2 rule .empty) ∧
    store.inventory ["main"] (.users "d" "datacenter" "db" 2 rule .empty) = .ok database.users ∧
    store.inventory ["main"] (.users "d" "datacenter" "db" 2 rule (switchedOff "s"))
      = .error .noData := by
  have hempty : scope.NamesNone "d" "db" 2 rule .empty :=
    fun _ _ _ _ _ _ _ _ => Scope.not_names_of_value?_eq_none fun _ _ => rfl
  refine ⟨(Store.users_aimedElsewhere store ["main"] "d" "datacenter" "db" 2 rule).1 _ _ ?_, ?_, ?_⟩
  · intro s hfind
    have hscope : some scope = some s := hfind
    cases hscope
    exact ⟨namesNone_other, hempty⟩
  · have hactive : scope.isActive rule .empty (server "s" "b") = .ok true := by
      rw [Scope.isActive_of_isNearest isNearest_server]
      decide +kernel
    exact users_of_isActive hactive
  · have hidle : scope.isActive rule (switchedOff "s") (server "s" "b") = .ok false := by
      rw [Scope.isActive_of_isNearest isNearest_server]
      decide +kernel
    exact users_of_isActive hidle

end NamedServers

end LicenseForecast
