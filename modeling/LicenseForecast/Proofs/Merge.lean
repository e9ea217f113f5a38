import LicenseForecast.Proofs.Distinct
import LicenseForecast.Proofs.Equipment.Acceptance
import LicenseForecast.Proofs.Repetition

namespace LicenseForecast

/-!
# The types of several scopes

The types of each scope make a forest.  Where several scopes are visible, of types with the same
id the first counts, and so a type of one scope may come to lie below a type of another.  For all
that no parent is lost and no circle arises (`Forest.Rooted`):

* `Forest.acyclic_append` — types that come later may lie below earlier ones but never above
  them, so a circle would be one of the earlier types or one of the later types alone;
* `Forest.Rooted.merge`, `Forest.rooted_allTypes` — hence one more scope does no harm, and neither
  does any number of them;
* `Store.types_merge` — so the types of the visible scopes make a forest unless two scopes give
  the same name to types of different ids.
-/

/-! ### The first type of each id -/

namespace EquipmentType

variable {seen : List String} {types : List EquipmentType}

/-- What is kept stands in its order. -/
theorem distinctFrom_sublist : (distinctFrom seen types).Sublist types := by
  induction types generalizing seen with
  | nil => exact List.Sublist.refl _
  | cons t rest ih =>
    rw [distinctFrom]
    split
    · exact ih.cons t
    · exact ih.cons_cons t

/-- **What is kept** is the first type of each id that has not been met before. -/
theorem mem_distinctFrom_iff {t : EquipmentType} : t ∈ distinctFrom seen types ↔
    t.id ∉ seen ∧ types.find? (·.id == t.id) = some t :=
  keepsFirst.mem_iff

/-- No two types that are kept have the same id. -/
theorem nodup_distinctFrom : ((distinctFrom seen types).map (·.id)).Nodup := keepsFirst.nodup

end EquipmentType

namespace Scope

/-- A type is listed if it is the first one of its id in all scopes. -/
theorem mem_allTypes_iff {scopes : List Scope} {t : EquipmentType} :
    t ∈ allTypes scopes ↔ (scopes.flatMap (·.types)).find? (·.id == t.id) = some t := by
  unfold allTypes
  rw [EquipmentType.mem_distinctFrom_iff]
  exact and_iff_right List.not_mem_nil

/-- A type that is listed is one of some scope. -/
theorem exists_scope_of_mem_allTypes {scopes : List Scope} {t : EquipmentType}
    (h : t ∈ allTypes scopes) : ∃ s ∈ scopes, t ∈ s.types :=
  List.mem_flatMap.mp (EquipmentType.distinctFrom_sublist.subset h)

/-- What one more scope adds to the types. -/
theorem allTypes_concat (scopes : List Scope) (s : Scope) : allTypes (scopes ++ [s])
    = allTypes scopes ++ EquipmentType.distinctFrom ((allTypes scopes).map (·.id)) s.types := by
  unfold allTypes
  rw [List.flatMap_append, List.flatMap_singleton, EquipmentType.distinctFrom_append,
    List.append_nil]

end Scope

/-! ### Circles and lost parents -/

namespace Forest

/-- Every way up ends, and at a type that names no parent. -/
structure Rooted (types : List EquipmentType) : Prop where
  listed : ParentsListed types
  acyclic : Acyclic types

variable {types more : List EquipmentType}

/-- Fewer types have no more circles. -/
theorem Acyclic.of_subset (h : Acyclic types) (hsub : more ⊆ types) : Acyclic more :=
  fun t hcircle => h t <|
    Relation.TransGen.mono (fun _ _ ⟨ht, hp, hnames⟩ => ⟨hsub ht, hsub hp, hnames⟩) t t hcircle

/-- **Two parts make no circle** of which neither has one and the first never leads to the
    second. -/
theorem acyclic_append (hclosed : ∀ t p, NamesParent (types ++ more) t p → t ∈ types → p ∈ types)
    (h : Acyclic types) (hmore : Acyclic more) : Acyclic (types ++ more) := by
  -- a way up that starts in the first part stays there
  have hstays : ∀ {t u}, t ∈ types → Relation.TransGen (NamesParent (types ++ more)) t u →
      u ∈ types ∧ Relation.TransGen (NamesParent types) t u := by
    intro t u ht habove
    induction habove with
    | single hparent =>
      have hp := hclosed _ _ hparent ht
      exact ⟨hp, .single ⟨ht, hp, hparent.2.2⟩⟩
    | tail _ hparent ih =>
      have hp := hclosed _ _ hparent ih.1
      exact ⟨hp, ih.2.tail ⟨ih.1, hp, hparent.2.2⟩⟩
  -- and one that never enters it lies in the second
  have havoids : ∀ {t u}, t ∉ types → u ∉ types →
      Relation.TransGen (NamesParent (types ++ more)) t u →
      Relation.TransGen (NamesParent more) t u := by
    intro t u ht hu habove
    have hlater : ∀ {v}, v ∈ types ++ more → v ∉ types → v ∈ more :=
      fun hmem hnot => (List.mem_append.mp hmem).resolve_left hnot
    induction habove with
    | single hparent =>
      obtain ⟨htmem, hpmem, hnames⟩ := hparent
      exact .single ⟨hlater htmem ht, hlater hpmem hu, hnames⟩
    | tail _ hparent ih =>
      have hbelow := fun hmem => hu (hclosed _ _ hparent hmem)
      obtain ⟨hvmem, humem, hnames⟩ := hparent
      exact (ih hbelow).tail ⟨hlater hvmem hbelow, hlater humem hu, hnames⟩
  intro t hcircle
  by_cases ht : t ∈ types
  · exact h t (hstays ht hcircle).2
  · exact hmore t (havoids ht ht hcircle)

/-- **One more scope does no harm.** -/
theorem Rooted.merge (h : Rooted types) (hmore : Rooted more) :
    Rooted (types ++ EquipmentType.distinctFrom (types.map (·.id)) more) where
  listed := by
    intro t ht id hid
    rw [List.map_append, List.mem_append]
    rcases List.mem_append.mp ht with ht | ht
    · exact .inl (h.listed t ht id hid)
    · have hlisted := hmore.listed t (EquipmentType.distinctFrom_sublist.subset ht) id hid
      obtain ⟨p, hp, rfl⟩ := List.mem_map.mp hlisted
      exact (List.mem_append.mp (EquipmentType.mem_distinctFrom hp)).symm
  acyclic := by
    refine acyclic_append (fun t p ⟨_, hp, hnames⟩ ht => ?_) h.acyclic
      (hmore.acyclic.of_subset EquipmentType.distinctFrom_sublist.subset)
    -- the parent that an earlier type names is an earlier type, and later ones have other ids
    have hlisted := h.listed t ht p.id hnames
    rcases List.mem_append.mp hp with hp | hp
    · exact hp
    · exact absurd hlisted (EquipmentType.mem_distinctFrom_iff.mp hp).1

/-- **No number of scopes does harm.** -/
theorem rooted_allTypes {scopes : List Scope} (h : ∀ s ∈ scopes, Rooted s.types) :
    Rooted (Scope.allTypes scopes) := by
  induction scopes using List.reverseRecOn with
  | nil => exact ⟨nofun, fun t hcircle => by
      obtain ⟨_, ⟨ht, -, -⟩, -⟩ := Relation.TransGen.head'_iff.mp hcircle
      cases ht⟩
  | append_singleton scopes s ih =>
    rw [Scope.allTypes_concat]
    exact (ih fun s' hs' => h s' (List.mem_append_left _ hs')).merge
      (h s (List.mem_append_right _ List.mem_cons_self))

/-- The types of a forest are rooted. -/
theorem rooted_of_ofTypes {f : Forest} (h : ofTypes types = .ok f) : Rooted types := by
  obtain ⟨hdup, parents, hparents, rfl, hendless⟩ := ofTypes_eq_ok.mp h
  obtain ⟨hids, hnames, -⟩ := duplicate?_eq_none.mp hdup
  exact ⟨exists_parents_iff.mp ⟨parents, hparents⟩,
    (endless?_eq_none_iff ⟨hids, hnames⟩ hparents).mp hendless⟩

/-- Two types of different ids that bear a name which comes up twice. -/
theorem exists_namesakes {name : String} (hids : (types.map (·.id)).Nodup)
    (hcount : 1 < (types.map (·.name)).count name) :
    ∃ t ∈ types, ∃ u ∈ types, t.id ≠ u.id ∧ t.name = name ∧ u.name = name := by
  have hseveral : 1 < (types.filter (·.name == name)).length := by
    rw [List.count, List.countP_map, List.countP_eq_length_filter] at hcount
    exact hcount
  have hsub : (types.filter (·.name == name)).Sublist types := List.filter_sublist
  -- two types or more bear the name: none and one are too few
  rcases hnamed : types.filter (·.name == name) with _ | ⟨t, _ | ⟨u, rest⟩⟩
  · rw [hnamed] at hseveral
    cases hseveral
  · rw [hnamed] at hseveral
    exact absurd hseveral (Nat.lt_irrefl 1)
  · have hnames : ∀ v ∈ t :: u :: rest, v ∈ types ∧ v.name = name := by
      intro v hv
      rw [← hnamed] at hv
      obtain ⟨hmem, hname⟩ := List.mem_filter.mp hv
      exact ⟨hmem, beq_iff_eq.mp hname⟩
    rw [hnamed] at hsub
    have hne := (List.nodup_cons.mp (hids.sublist (hsub.map (·.id)))).1
    obtain ⟨ht, htname⟩ := hnames t List.mem_cons_self
    obtain ⟨hu, huname⟩ := hnames u (List.mem_cons_of_mem _ List.mem_cons_self)
    refine ⟨t, ht, u, hu, fun heq => hne ?_, htname, huname⟩
    exact List.mem_map.mpr ⟨u, List.mem_cons_self, heq.symm⟩

/-- **Nothing but a repeated name** keeps rooted types of distinct ids from making a forest. -/
theorem Rooted.ofTypes_cases (h : Rooted types) (hids : (types.map (·.id)).Nodup) :
    (∃ f, ofTypes types = .ok f) ∨ ∃ name, ofTypes types = .error (.duplicateTypeName name) ∧
      ∃ t ∈ types, ∃ u ∈ types, t.id ≠ u.id ∧ t.name = name ∧ u.name = name := by
  cases hresult : ofTypes types with
  | ok f => exact .inl ⟨f, rfl⟩
  | error fault =>
    rcases refused_of_ofTypes hresult with ⟨-, ⟨id, -, hcount⟩ | ⟨name, rfl, hcount⟩⟩ |
      ⟨-, t, ht, id, hid, hunlisted, -⟩ | ⟨-, -, hcyclic, -⟩
    · have honce := List.nodup_iff_count_le_one.mp hids id
      omega
    · exact .inr ⟨name, rfl, exists_namesakes hids hcount⟩
    · exact absurd (h.listed t ht id hid) hunlisted
    · exact absurd h.acyclic hcyclic

end Forest

/-! ### The visible types of a store -/

namespace Store

/-- Two scopes that a request may see give a name to types of different ids. -/
def Disputed (store : Store) (scopes : List String) (name : String) : Prop :=
  ∃ first ∈ store.visibleNames scopes, ∃ second ∈ store.visibleNames scopes, first ≠ second ∧
    ∃ s s', store.fleet.scopes.get? first = some s ∧ store.fleet.scopes.get? second = some s' ∧
      ∃ t ∈ s.types, ∃ u ∈ s'.types, t.id ≠ u.id ∧ t.name = name ∧ u.name = name

/-- Within one visible scope a name belongs to one type. -/
theorem eq_of_name_eq {store : Store} {scopes : List String} {s : Scope}
    (hs : s ∈ store.visible scopes) {t u : EquipmentType} (ht : t ∈ s.types) (hu : u ∈ s.types)
    (hname : t.name = u.name) : t = u := by
  obtain ⟨f, hsound⟩ := sound_of_visible hs
  obtain ⟨hf, htypes⟩ := Forest.sound_of_ofTypes hsound.types_eq
  have hnames := hf.names_nodup
  rw [htypes] at hnames
  exact List.inj_on_of_nodup_map hnames ht hu hname

/-- Types of different ids and the same name are in scopes of different names. -/
theorem disputed_of_namesakes {store : Store} {scopes : List String} {name : String}
    (h : ∃ t ∈ Scope.allTypes (store.visible scopes), ∃ u ∈ Scope.allTypes (store.visible scopes),
      t.id ≠ u.id ∧ t.name = name ∧ u.name = name) : store.Disputed scopes name := by
  obtain ⟨t, ht, u, hu, hids, htname, huname⟩ := h
  obtain ⟨s, hs, ht⟩ := Scope.exists_scope_of_mem_allTypes ht
  obtain ⟨s', hs', hu⟩ := Scope.exists_scope_of_mem_allTypes hu
  obtain ⟨first, hfirst, hget⟩ := List.mem_filterMap.mp hs
  obtain ⟨second, hsecond, hget'⟩ := List.mem_filterMap.mp hs'
  refine ⟨first, hfirst, second, hsecond, ?_, s, s', hget, hget', t, ht, u, hu, hids, htname,
    huname⟩
  rintro rfl
  cases hget.symm.trans hget'
  exact hids (congrArg _ (eq_of_name_eq hs ht hu (htname.trans huname.symm)))

/-- **To merge the types of scopes keeps them a forest**, but for a name that two of the scopes
    dispute: no id comes up twice, no parent is unknown and there is no circle, however many scopes
    are visible.  Of the types with an id the first is kept, and all types of a single scope make a
    forest. -/
theorem types_merge (store : Store) (scopes : List String) :
    ∃ types, store.inventory scopes .equipmentTypes = .ok types ∧
      types.Sublist ((store.visible scopes).flatMap (·.types)) ∧
      (∀ t, t ∈ types ↔
        ((store.visible scopes).flatMap (·.types)).find? (·.id == t.id) = some t) ∧
      ((∃ f, Forest.ofTypes types = .ok f) ∨
        ∃ name, Forest.ofTypes types = .error (.duplicateTypeName name) ∧
          store.Disputed scopes name) ∧
      ∀ s, store.visible scopes ⊆ [s] → ∃ f, Forest.ofTypes types = .ok f := by
  have hrooted : Forest.Rooted (Scope.allTypes (store.visible scopes)) := by
    refine Forest.rooted_allTypes fun s hs => ?_
    obtain ⟨f, hsound⟩ := sound_of_visible hs
    exact Forest.rooted_of_ofTypes hsound.types_eq
  have hcases := hrooted.ofTypes_cases EquipmentType.nodup_distinctFrom
  refine ⟨_, rfl, EquipmentType.distinctFrom_sublist, fun t => Scope.mem_allTypes_iff,
    hcases.imp_right ?_, fun s hsingle => ?_⟩
  · rintro ⟨name, hresult, hnamesakes⟩
    exact ⟨name, hresult, disputed_of_namesakes hnamesakes⟩
  · refine hcases.resolve_right ?_
    rintro ⟨name, -, t, ht, u, hu, hids, htname, huname⟩
    obtain ⟨s', hs', ht⟩ := Scope.exists_scope_of_mem_allTypes ht
    obtain ⟨s'', hs'', hu⟩ := Scope.exists_scope_of_mem_allTypes hu
    cases List.mem_singleton.mp (hsingle hs')
    cases List.mem_singleton.mp (hsingle hs'')
    -- two types of one scope that share a name are the same, so nothing is disputed there
    exact hids (congrArg _ (eq_of_name_eq hs' ht hu (htname.trans huname.symm)))

/-- Racks of one scope and racks of another that bear a different id. -/
example :
    let types := Scope.allTypes [{ types := [{ id := "1", name := "rack" }] },
      { types := [{ id := "2", name := "rack" }] }]
    (Forest.ofTypes types).map (·.parents) = .error (.duplicateTypeName "rack") := by
  decide +kernel

end Store

end LicenseForecast
