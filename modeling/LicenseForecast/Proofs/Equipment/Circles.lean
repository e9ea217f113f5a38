import LicenseForecast.Proofs.Equipment.Acceptance

namespace LicenseForecast.Forest

/-!
# Which type is reported for a circle

A list of types in which parents run in a circle is refused in the name of one type.  The search
for it counts the steps up from one type after another, and a count that is too high says of a type
only that it leads to a circle, not that it lies on one.

* `Forest.endless?_eq_some_iff` — the search comes to the first listed type that leads to a circle;
* `Forest.cycle_reported` — so that type is reported, and it lies on the circle itself exactly if
  the types on circles are listed early enough (`Forest.CirclesFirst`).
-/

variable {types : List EquipmentType}

/-- A type lies above itself. -/
def OnCircle (types : List EquipmentType) (t : EquipmentType) : Prop :=
  Relation.TransGen (NamesParent types) t t

/-- A type leads to a circle, and none that is listed before it does. -/
def FirstToCircle (types : List EquipmentType) (t : EquipmentType) : Prop :=
  LeadsToCircle types t ∧ ∃ i : Nat, types[i]? = some t ∧
    ∀ j < i, ∀ b, types[j]? = some b → ¬ LeadsToCircle types b

/-- Before each type that leads to a circle without lying on one, a type is listed that does lie
    on one. -/
def CirclesFirst (types : List EquipmentType) : Prop :=
  ∀ (i : Nat) t, types[i]? = some t → LeadsToCircle types t → ¬ OnCircle types t →
    ∃ j < i, ∃ b, types[j]? = some b ∧ OnCircle types b

/-- What lies on a circle leads to one. -/
theorem OnCircle.leadsToCircle {t : EquipmentType} (h : OnCircle types t) :
    LeadsToCircle types t :=
  ⟨t, .refl, h⟩

/-! ### The search -/

section

variable {parents : List (Option Nat)} (hdistinct : Distinct types)
  (hparents : types.mapM (findParent types.toArray) = .ok parents)

include hdistinct hparents

/-- **The search comes to the first type** that leads to a circle. -/
theorem endless?_eq_some_iff {t : EquipmentType} :
    (⟨types.toArray, parents.toArray⟩ : Forest).endless? = some t ↔ FirstToCircle types t := by
  have hat : ∀ i, (⟨types.toArray, parents.toArray⟩ : Forest).get? i = types[i]? :=
    fun i => List.getElem?_toArray
  unfold endless? FirstToCircle
  simp only [Option.bind_eq_some_iff, List.find?_range_eq_some, hat, List.size_toArray]
  constructor
  · rintro ⟨i, ⟨hlong, -, hshort⟩, ht⟩
    refine ⟨(isSome_ascend_iff hdistinct hparents ht).mp hlong, i, ht, fun j hj b hb hleads => ?_⟩
    have hlong := (isSome_ascend_iff hdistinct hparents hb).mpr hleads
    have hshort := hshort j hj
    simp [hlong] at hshort
  · rintro ⟨hleads, i, ht, hbefore⟩
    obtain ⟨hi, -⟩ := List.getElem?_eq_some_iff.mp ht
    refine ⟨i, ⟨(isSome_ascend_iff hdistinct hparents ht).mpr hleads, List.mem_range.mpr hi,
      fun j hj => ?_⟩, ht⟩
    -- an earlier type is listed, too
    have hb : types[j]? = some types[j] := List.getElem?_eq_getElem (Nat.lt_trans hj hi)
    have hnot := mt (isSome_ascend_iff hdistinct hparents hb).mp (hbefore j hj _ hb)
    simpa using hnot

/-- Once ids and names are distinct and parents found, the search alone decides. -/
private theorem ofTypes_of_parents : ofTypes types
    = (endless? ⟨types.toArray, parents.toArray⟩).elim (.ok ⟨types.toArray, parents.toArray⟩)
        fun t => .error (.cycle t.name) := by
  have hdup : duplicate? [] types = none :=
    duplicate?_eq_none.mpr ⟨hdistinct.1, hdistinct.2, fun _ _ _ h => absurd h List.not_mem_nil⟩
  cases hendless : endless? ⟨types.toArray, parents.toArray⟩ with
  | none => exact ofTypes_eq_ok.mpr ⟨hdup, parents, hparents, rfl, hendless⟩
  | some t =>
    unfold ofTypes
    rw [hdup]
    refine bind_eq_error.mpr (.inr ⟨parents, hparents, ?_⟩)
    simp only [hendless]
    rfl

end

/-! ### What is reported -/

/-- **The first listed type that leads to a circle is reported**, if nothing else is wrong. -/
theorem ofTypes_eq_cycle {name : String} : ofTypes types = .error (.cycle name) ↔
    Distinct types ∧ ParentsListed types ∧ ∃ t, FirstToCircle types t ∧ t.name = name := by
  have hsearch : Distinct types → ParentsListed types → (ofTypes types = .error (.cycle name) ↔
      ∃ t, FirstToCircle types t ∧ t.name = name) := by
    intro hdistinct hlisted
    obtain ⟨parents, hparents⟩ := exists_parents_iff.mpr hlisted
    simp only [← endless?_eq_some_iff hdistinct hparents, ofTypes_of_parents hdistinct hparents]
    cases endless? ⟨types.toArray, parents.toArray⟩ <;> simp
  constructor
  · intro h
    -- every other reason to refuse a list is reported as such
    rcases refused_of_ofTypes h with ⟨-, ⟨_, hfault, -⟩ | ⟨_, hfault, -⟩⟩ |
      ⟨-, _, -, _, -, -, hfault⟩ | ⟨hdistinct, hlisted, -⟩
    · cases hfault
    · cases hfault
    · cases hfault
    · exact ⟨hdistinct, hlisted, (hsearch hdistinct hlisted).mp h⟩
  · rintro ⟨hdistinct, hlisted, hfirst⟩
    exact (hsearch hdistinct hlisted).mpr hfirst

/-- **The first type that leads to a circle lies on one** exactly if those on circles are listed
    early enough. -/
theorem FirstToCircle.onCircle_iff {t : EquipmentType} (h : FirstToCircle types t) :
    OnCircle types t ↔ CirclesFirst types := by
  obtain ⟨hleads, i, ht, hbefore⟩ := h
  constructor
  · intro hcircle k u hu hleads hoff
    rcases Nat.lt_trichotomy i k with hlt | rfl | hlt
    · exact ⟨i, hlt, t, ht, hcircle⟩
    · rw [ht, Option.some.injEq] at hu
      exact absurd (hu ▸ hcircle) hoff
    · exact absurd hleads (hbefore k hlt u hu)
  · intro hfirst
    by_contra hoff
    obtain ⟨j, hj, b, hb, hcircle⟩ := hfirst i t ht hleads hoff
    exact hbefore j hj b hb hcircle.leadsToCircle

/-- **Of a circle the first type is reported that leads to it.**  A list is refused for a circle
    exactly if nothing else is wrong with it and some type leads to one; the name reported is that
    of the first such type.  So it is the name of a type on a circle exactly if the types on
    circles are listed early enough, and in any case that of a type from which one comes to a
    circle. -/
theorem cycle_reported (types : List EquipmentType) (name : String) :
    (ofTypes types = .error (.cycle name) ↔
      Distinct types ∧ ParentsListed types ∧ ∃ t, FirstToCircle types t ∧ t.name = name) ∧
    (ofTypes types = .error (.cycle name) →
      ∃ t ∈ types, t.name = name ∧ (OnCircle types t ↔ CirclesFirst types) ∧
        ∃ u, Relation.ReflTransGen (NamesParent types) t u ∧ OnCircle types u) := by
  refine ⟨ofTypes_eq_cycle, fun h => ?_⟩
  obtain ⟨-, -, t, hfirst, hname⟩ := ofTypes_eq_cycle.mp h
  obtain ⟨i, ht, -⟩ := hfirst.2
  exact ⟨t, List.mem_of_getElem? ht, hname, hfirst.onCircle_iff, hfirst.1⟩

/-! ### A type that is its own parent -/

namespace OwnParent

/-- A cluster that is its own parent. -/
def cluster : EquipmentType := { id := "2", name := "cluster", parentId := some "2" }

/-- A server below it. -/
def server : EquipmentType := { id := "1", name := "server", parentId := some "2" }

/-- No type is below the server, so it is on no circle. -/
theorem not_onCircle_server : ¬ OnCircle [server, cluster] server := by
  intro hcircle
  obtain ⟨t, -, ht, -, hnames⟩ := Relation.TransGen.tail'_iff.mp hcircle
  simp only [List.mem_cons, List.not_mem_nil, or_false] at ht
  rcases ht with rfl | rfl
  · exact absurd hnames (by decide)
  · exact absurd hnames (by decide)

/-- The server is reported if it is listed first, although only the cluster is on a circle. -/
theorem ofTypes_server_cluster :
    ofTypes [server, cluster] = .error (.cycle "server") ∧
    ¬ OnCircle [server, cluster] server ∧ ¬ CirclesFirst [server, cluster] ∧
    ofTypes [cluster, server] = .error (.cycle "cluster") ∧ OnCircle [cluster, server] cluster := by
  have hserver : ofTypes [server, cluster] = .error (.cycle "server") := by decide +kernel
  have hcluster : ofTypes [cluster, server] = .error (.cycle "cluster") := by decide +kernel
  have hround : OnCircle [cluster, server] cluster :=
    .single ⟨List.mem_cons_self, List.mem_cons_self, by decide⟩
  obtain ⟨t, ht, hname, honCircle, -⟩ := (cycle_reported _ _).2 hserver
  refine ⟨hserver, not_onCircle_server, ?_, hcluster, hround⟩
  simp only [List.mem_cons, List.not_mem_nil, or_false] at ht
  rcases ht with rfl | rfl
  · rw [← honCircle]
    exact not_onCircle_server
  · exact absurd hname (by decide)

end OwnParent

end LicenseForecast.Forest
