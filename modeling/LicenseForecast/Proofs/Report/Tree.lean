import LicenseForecast.Proofs.Equipment.Ancestry
import LicenseForecast.Report.Tree

namespace LicenseForecast

/-!
# The type tree prints every type once

The tree of a forest is printed by a recursion that looks for the children of each type among all
types.  Such a recursion ends, and comes to each type once, only because parents do not run in
circles.  An `Outline` is what the recursion does without a bound on its depth, so there is one
only where it ends:

* `Forest.exists_outline` — the bound that the tree sets never cuts anything off;
* `Forest.mem_outline` — an outline has a type as many levels below the given ones as it is steps
  below one of them, and has it only once if they lie apart (`Forest.nodup_outline`);
* `Report.tree_outlines` — so the tree is the outline of all types, each once and as far to the
  right as it has ancestors.
-/

/-- An outline of siblings on a level: each of them in turn, and directly behind it the outline of
    what is below it, one level further. -/
inductive Outline {α : Type} (below : α → List α) : Nat → List α → List (Nat × α) → Prop
  | nil {level : Nat} : Outline below level [] []
  | cons {level : Nat} {a : α} {siblings : List α} {inner rest : List (Nat × α)} :
      Outline below (level + 1) (below a) inner → Outline below level siblings rest →
        Outline below level (a :: siblings) ((level, a) :: (inner ++ rest))

/-- An outline may be made of other things that have the same below them. -/
theorem Outline.map {α β : Type} {below : α → List α} {below' : β → List β} {g : α → β}
    {p : α → Prop} (hg : ∀ a, p a → (below a).map g = below' (g a))
    (hp : ∀ a, p a → ∀ b ∈ below a, p b) {level : Nat} {siblings : List α}
    {entries : List (Nat × α)} (h : Outline below level siblings entries)
    (hsiblings : ∀ a ∈ siblings, p a) :
    Outline below' level (siblings.map g) (entries.map fun e => (e.1, g e.2)) := by
  induction h with
  | nil => exact .nil
  | @cons level a siblings inner rest _ _ ihInner ihRest =>
    have ha : p a := hsiblings a List.mem_cons_self
    rw [List.map_cons, List.map_cons, List.map_append]
    apply Outline.cons
    · rw [← hg a ha]
      exact ihInner (hp a ha)
    · exact ihRest fun b hb => hsiblings b (List.mem_cons_of_mem _ hb)

namespace Forest

/-- The types that name no parent, as they are listed. -/
def rootTypes (types : List EquipmentType) : List EquipmentType :=
  types.filter (·.namedParent?.isNone)

/-- The types that name a type as their parent, as they are listed. -/
def childTypes (types : List EquipmentType) (t : EquipmentType) : List EquipmentType :=
  types.filter (·.namedParent? == some t.id)

/-- What comes to a child in some steps comes to its parent in one more. -/
theorem ascend_succ_of_mem_children {f : Forest} {i j k n : Nat} (hk : k ∈ f.children i)
    (hn : f.ascend n j = some k) : f.ascend (n + 1) j = some i := by
  have hparent : f.parentOf k = some i := by simpa using (List.mem_filter.mp hk).2
  rw [ascend_add, hn, Option.bind_some, ascend_one, hparent]

section

variable {types : List EquipmentType} {f : Forest} (h : ofTypes types = .ok f)

include h

/-! ### Children and roots -/

/-- Parents and children are places of the list. -/
theorem lt_of_parentOf {i j : Nat} (hparent : f.parentOf j = some i) :
    j < types.length ∧ i < types.length := by
  obtain ⟨t, p, ht, hp, -⟩ := ((represents_of_ofTypes h).parentOf j i).mp hparent
  exact ⟨(List.getElem?_eq_some_iff.mp ht).1, (List.getElem?_eq_some_iff.mp hp).1⟩

/-- The children of a place are those that have it as their parent. -/
theorem mem_children {i j : Nat} : j ∈ f.children i ↔ f.parentOf j = some i := by
  unfold children
  rw [List.mem_filter, beq_iff_eq, List.mem_range, size_types h]
  exact and_iff_right_of_imp fun hparent => (lt_of_parentOf h hparent).1

/-- The roots are the places without a parent. -/
theorem mem_roots {i : Nat} : i ∈ f.roots ↔ i < types.length ∧ f.parentOf i = none := by
  unfold roots
  rw [List.mem_filter, Option.isNone_iff_eq_none, List.mem_range, size_types h]

/-- A child is a place of the list. -/
theorem lt_of_mem_children {i j : Nat} (hj : j ∈ f.children i) : j < types.length :=
  (lt_of_parentOf h ((mem_children h).mp hj)).1

/-- What lies below a type is a type. -/
theorem lt_of_ascend_to {i j k : Nat} (hi : i < types.length) (hk : f.ascend k j = some i) :
    j < types.length := by
  cases k with
  | zero => exact Option.some.inj hk ▸ hi
  | succ k =>
    obtain ⟨p, hparent, -⟩ := Option.bind_eq_some_iff.mp hk
    exact (lt_of_parentOf h hparent).1

/-- What stands at a place of the list is found there. -/
theorem getD_get? {i : Nat} {t : EquipmentType} (ht : types[i]? = some t) :
    (f.get? i).getD default = t := by
  rw [(represents_of_ofTypes h).get?, ht, Option.getD_some]

/-- No type is listed twice. -/
theorem index_unique {i j : Nat} {t : EquipmentType} (hi : types[i]? = some t)
    (hj : types[j]? = some t) : i = j := by
  have hbyId := (represents_of_ofTypes h).indexOfId? t.id
  have hindex : f.indexOfId? t.id = some i := (hbyId i).mpr ⟨t, hi, rfl⟩
  exact Option.some.inj (hindex.symm.trans ((hbyId j).mpr ⟨t, hj, rfl⟩))

/-- The types of all indices are the list. -/
theorem map_range_types :
    (List.range types.length).map (fun j => (f.get? j).getD default) = types := by
  apply List.ext_getElem
  · simp
  · intro j _ hj
    simp [getD_get? h (List.getElem?_eq_getElem hj)]

/-- A selection of indices is the same selection of types. -/
private theorem map_filter_range {p : Nat → Bool} {q : EquipmentType → Bool}
    (hpq : ∀ j t, types[j]? = some t → p j = q t) :
    ((List.range f.types.size).filter p).map (fun j => (f.get? j).getD default)
      = types.filter q := by
  conv_rhs => rw [← map_range_types h, List.filter_map]
  rw [size_types h]
  congr 1
  refine List.filter_congr fun j hj => ?_
  have ht := List.getElem?_eq_getElem (List.mem_range.mp hj)
  rw [hpq j _ ht, Function.comp_apply, getD_get? h ht]

/-- The types at the roots are those without a parent, in the order of the list. -/
theorem map_roots : f.roots.map (fun j => (f.get? j).getD default) = rootTypes types := by
  refine map_filter_range h fun j t ht => ?_
  have hsome := isSome_parentOf_iff h ht
  cases hj : f.parentOf j <;> cases ht' : t.namedParent? <;> simp [hj, ht'] at hsome ⊢

/-- The types at the children of a place are those that name its type as their parent, in order. -/
theorem map_children {i : Nat} (hi : i < types.length) :
    (f.children i).map (fun j => (f.get? j).getD default)
      = childTypes types ((f.get? i).getD default) := by
  have hat : types[i]? = some types[i] := List.getElem?_eq_getElem hi
  rw [getD_get? h hat]
  refine map_filter_range h fun j t ht => ?_
  rw [Bool.eq_iff_iff, beq_iff_eq, beq_iff_eq, (represents_of_ofTypes h).parentOf]
  constructor
  · rintro ⟨t', p, ht', hp, hnamed⟩
    rw [ht, Option.some.injEq] at ht'
    rw [hat, Option.some.injEq] at hp
    rw [ht', hp, hnamed]
  · intro hnamed
    exact ⟨t, _, ht, hat, hnamed⟩

/-! ### Outlines of indices -/

/-- **An outline has what is below the given types**, each as far to the right as it is below. -/
theorem mem_outline {level l j : Nat} {siblings : List Nat} {entries : List (Nat × Nat)}
    (ho : Outline f.children level siblings entries) : (l, j) ∈ entries ↔
      ∃ k, l = level + k ∧ ∃ i ∈ siblings, f.ascend k j = some i := by
  induction ho with
  | nil => simp
  | @cons level a siblings inner rest _ _ ihInner ihRest =>
    -- below a node: one step more to reach the node itself
    have hinner : (l, j) ∈ inner ↔ ∃ k, l = level + (k + 1) ∧ f.ascend (k + 1) j = some a := by
      rw [ihInner]
      simp only [mem_children h, ascend_add, Option.bind_eq_some_iff, ascend_one, Nat.add_assoc,
        Nat.add_comm 1]
      exact exists_congr fun k => and_congr_right fun _ => exists_congr fun c => and_comm
    simp only [List.mem_cons, List.mem_append, Prod.mk.injEq, hinner, ihRest]
    constructor
    · rintro (⟨rfl, rfl⟩ | ⟨k, rfl, hk⟩ | ⟨k, rfl, i, hi, hk⟩)
      · exact ⟨0, rfl, j, .inl rfl, rfl⟩
      · exact ⟨k + 1, rfl, a, .inl rfl, hk⟩
      · exact ⟨k, rfl, i, .inr hi, hk⟩
    · rintro ⟨k, rfl, i, rfl | hi, hk⟩
      · cases k with
        | zero => exact .inl ⟨rfl, Option.some.inj hk⟩
        | succ k => exact .inr (.inl ⟨k, rfl, hk⟩)
      · exact .inr (.inr ⟨k, rfl, i, hi, hk⟩)

/-- **An outline has nothing twice** if nothing is below two of the given types. -/
theorem nodup_outline {level : Nat} {siblings : List Nat} {entries : List (Nat × Nat)}
    (ho : Outline f.children level siblings entries) (hnodup : siblings.Nodup)
    (hlt : ∀ i ∈ siblings, i < types.length)
    (hapart : ∀ i ∈ siblings, ∀ i' ∈ siblings, ∀ j k l, f.ascend k j = some i →
      f.ascend l j = some i' → i = i') : (entries.map (·.2)).Nodup := by
  obtain ⟨hf, -⟩ := sound_of_ofTypes h
  induction ho with
  | nil => simp
  | @cons level a siblings inner rest hoInner hoRest ihInner ihRest =>
    obtain ⟨hfresh, hnodup⟩ := List.nodup_cons.mp hnodup
    have ha : a < types.length := hlt a List.mem_cons_self
    have hinner : ∀ j ∈ inner.map (·.2), ∃ k, f.ascend (k + 1) j = some a := by
      intro j hj
      obtain ⟨⟨l, j⟩, he, rfl⟩ := List.mem_map.mp hj
      obtain ⟨k, -, c, hc, hk⟩ := (mem_outline h hoInner).mp he
      exact ⟨k, ascend_succ_of_mem_children hc hk⟩
    -- what is below a later sibling is not below this one
    have hrest : ∀ j ∈ rest.map (·.2), ∀ k, f.ascend k j ≠ some a := by
      intro j hj k hk
      obtain ⟨⟨l, j⟩, he, rfl⟩ := List.mem_map.mp hj
      obtain ⟨m, -, i, hi, hm⟩ := (mem_outline h hoRest).mp he
      have heq := hapart a List.mem_cons_self i (List.mem_cons_of_mem _ hi) j k m hk hm
      exact hfresh (heq ▸ hi)
    rw [List.map_cons, List.map_append, List.nodup_cons, List.mem_append, List.nodup_append]
    refine ⟨?_, ihInner ?_ ?_ ?_, ihRest hnodup ?_ ?_, ?_⟩
    · rintro (hmem | hmem)
      · obtain ⟨k, hk⟩ := hinner a hmem
        exact hf.no_return (size_types h ▸ ha) (m := 0) rfl (Nat.succ_pos k) hk
      · exact hrest a hmem 0 rfl
    · exact List.nodup_range.filter _
    · exact fun c hc => lt_of_mem_children h hc
    · -- two children of a type are as far above what is below both
      intro c hc c' hc' j k l hk hl
      have hj := lt_of_ascend_to h (lt_of_mem_children h hc) hk
      have hsame := hf.ascend_unique (size_types h ▸ hj) (ascend_succ_of_mem_children hc hk)
        (ascend_succ_of_mem_children hc' hl)
      obtain rfl : k = l := by omega
      exact Option.some.inj (hk.symm.trans hl)
    · exact fun i hi => hlt i (List.mem_cons_of_mem _ hi)
    · exact fun i hi i' hi' => hapart i (List.mem_cons_of_mem _ hi) i' (List.mem_cons_of_mem _ hi')
    · rintro j hj j' hj' rfl
      obtain ⟨k, hk⟩ := hinner j hj
      exact hrest j hj' (k + 1) hk

/-! ### All types -/

/-- A way up to two roots is one way up. -/
theorem eq_of_ascend_roots {i i' j k l : Nat} (hi : i ∈ f.roots) (hi' : i' ∈ f.roots)
    (hk : f.ascend k j = some i) (hl : f.ascend l j = some i') : i = i' := by
  -- there is no step up from a root
  have hends : ∀ {i i' k l}, i ∈ f.roots → k ≤ l → f.ascend k j = some i →
      f.ascend l j = some i' → i = i' := by
    intro i i' k l hi hle hk hl
    obtain ⟨m, rfl⟩ := Nat.exists_eq_add_of_le hle
    rw [ascend_add, hk, Option.bind_some] at hl
    cases m with
    | zero => exact Option.some.inj hl
    | succ m =>
      rw [ascend, ((mem_roots h).mp hi).2] at hl
      cases hl
  rcases Nat.le_total k l with hle | hle
  · exact hends hi hle hk hl
  · exact (hends hi' hle hl hk).symm

/-- A type is below a root, by as many steps as it has ancestors besides itself. -/
theorem exists_ascend_root {j : Nat} (hj : j < types.length) :
    ∃ k, ∃ i ∈ f.roots, f.ascend k j = some i ∧ (f.ancestors j).length = k + 1 := by
  obtain ⟨i, hlast, hroot⟩ := exists_root h hj
  rw [List.getLast?_eq_getElem?, getElem?_ancestors h hj] at hlast
  have hpos : (f.ancestors j)[0]? = some j := getElem?_ancestors h hj 0
  obtain ⟨hpos, -⟩ := List.getElem?_eq_some_iff.mp hpos
  exact ⟨_, i, (mem_roots h).mpr ⟨lt_of_ascend h hj hlast, hroot⟩, hlast, by omega⟩

/-- **The outline of the roots has every type once**, on the level of its ancestors. -/
theorem outline_roots {entries : List (Nat × Nat)} (ho : Outline f.children 0 f.roots entries) :
    (entries.map (·.2)).Perm (List.range types.length) ∧
      ∀ e ∈ entries, (f.ancestors e.2).length = e.1 + 1 := by
  obtain ⟨hf, -⟩ := sound_of_ofTypes h
  have hlt : ∀ i ∈ f.roots, i < types.length := fun i hi => ((mem_roots h).mp hi).1
  have hmem : ∀ {l j}, (l, j) ∈ entries ↔ ∃ i ∈ f.roots, f.ascend l j = some i := by
    intro l j
    rw [mem_outline h ho]
    simp
  constructor
  · have hnodup : (entries.map (·.2)).Nodup :=
      nodup_outline h ho (List.nodup_range.filter _) hlt fun i hi i' hi' j k l hk hl =>
        eq_of_ascend_roots h hi hi' hk hl
    -- each type is met, and by the uniqueness of its root only once
    apply (List.perm_ext_iff_of_nodup hnodup List.nodup_range).mpr
    intro j
    rw [List.mem_range]
    constructor
    · intro hj
      obtain ⟨⟨l, j⟩, he, rfl⟩ := List.mem_map.mp hj
      obtain ⟨i, hi, hl⟩ := hmem.mp he
      exact lt_of_ascend_to h (hlt i hi) hl
    · intro hj
      obtain ⟨k, i, hi, hk, -⟩ := exists_ascend_root h hj
      exact List.mem_map.mpr ⟨(k, j), hmem.mpr ⟨i, hi, hk⟩, rfl⟩
  · rintro ⟨l, j⟩ he
    obtain ⟨i, hi, hl⟩ := hmem.mp he
    have hj := lt_of_ascend_to h (hlt i hi) hl
    obtain ⟨k, i', hi', hk, hlength⟩ := exists_ascend_root h hj
    cases eq_of_ascend_roots h hi hi' hl hk
    rw [hlength, hf.ascend_unique (size_types h ▸ hj) hl hk]

end

/-! ### The bound on the depth -/

/-- **The bound on the depth cuts nothing off** that is less deep: what is printed is an outline. -/
theorem exists_outline {f : Forest} (color : Bool) (level : Nat) {n : Nat} {siblings : List Nat}
    (hn : ∀ i ∈ siblings, ∀ j k, f.ascend k j = some i → k < n) :
    ∃ entries, Outline f.children level siblings entries ∧
      siblings.flatMap (Report.subtreeLines color f n level)
        = entries.map fun e => Report.typeLine color e.1 ((f.get? e.2).getD default) := by
  induction n generalizing level siblings with
  | zero =>
    -- each type is below itself, which is too deep
    have hempty : siblings = [] := by
      rw [List.eq_nil_iff_forall_not_mem]
      exact fun i hi => absurd (hn i hi i 0 rfl) (Nat.not_lt_zero 0)
    subst hempty
    exact ⟨[], .nil, rfl⟩
  | succ n ih =>
    induction siblings with
    | nil => exact ⟨[], .nil, rfl⟩
    | cons a siblings ihSiblings =>
      have hbelow : ∀ c ∈ f.children a, ∀ j k, f.ascend k j = some c → k < n := by
        intro c hc j k hk
        have hup := ascend_succ_of_mem_children hc hk
        exact Nat.lt_of_succ_lt_succ (hn a List.mem_cons_self j (k + 1) hup)
      obtain ⟨inner, hinner, hinnerLines⟩ := ih (level + 1) hbelow
      obtain ⟨rest, hrest, hrestLines⟩ :=
        ihSiblings fun i hi => hn i (List.mem_cons_of_mem _ hi)
      refine ⟨_, .cons hinner hrest, ?_⟩
      rw [List.flatMap_cons, hrestLines, Report.subtreeLines, hinnerLines]
      simp

end Forest

namespace Report

open Forest

/-- A line without colours: two blanks for each level, the name of the type, its id in brackets and
    the names of its attributes. -/
def plainLine (level : Nat) (t : EquipmentType) : String :=
  String.ofList (List.replicate (2 * level) ' ') ++ t.name ++ " [" ++ t.id ++ "] "
    ++ ", ".intercalate (t.attributes.map (·.name)) ++ "\n"

/-- Without colours a line is plain. -/
theorem typeLine_plain (level : Nat) (t : EquipmentType) :
    typeLine false level t = plainLine level t := by
  simp [typeLine, plainLine]

/-- **The tree of a forest is the outline of its types**: it has one line for each type, with two
    blanks for each ancestor, roots and children in the order of the list and each type directly
    above what is below it. -/
theorem tree_outlines {types : List EquipmentType} {f : Forest} (h : ofTypes types = .ok f) :
    ∃ entries : List (Nat × EquipmentType),
      tree false f = String.join (entries.map fun e => plainLine e.1 e.2) ∧
      Outline (childTypes types) 0 (rootTypes types) entries ∧
      (entries.map (·.2)).Perm types ∧
      ∀ level t, (level, t) ∈ entries → ∀ i, types[i]? = some t →
        (f.ancestors i).length = level + 1 := by
  -- no way up is as long as the list of types, so the bound never cuts a branch
  have hdeep : ∀ i ∈ f.roots, ∀ j k, f.ascend k j = some i → k < f.types.size := by
    intro i hi j k hk
    have hj : j < types.length := lt_of_ascend_to h ((mem_roots h).mp hi).1 hk
    rw [size_types h]
    exact lt_length_of_ascend h hj hk
  obtain ⟨entries, ho, hlines⟩ := exists_outline false 0 hdeep
  obtain ⟨hperm, hlevel⟩ := outline_roots h ho
  refine ⟨entries.map fun e => (e.1, (f.get? e.2).getD default), ?_, ?_, ?_, ?_⟩
  · rw [tree, treeLines, hlines, List.map_map]
    simp only [Function.comp_def, typeLine_plain]
  · rw [← map_roots h]
    apply ho.map (p := (· < types.length))
    · exact fun i hi => map_children h hi
    · exact fun i _ j hj => lt_of_mem_children h hj
    · exact fun i hi => ((mem_roots h).mp hi).1
  · have htypes := hperm.map fun j => (f.get? j).getD default
    rw [map_range_types h, List.map_map] at htypes
    rwa [List.map_map]
  · intro level t ht i hi
    obtain ⟨⟨l, j⟩, he, heq⟩ := List.mem_map.mp ht
    obtain ⟨rfl, rfl⟩ := Prod.mk.inj heq
    have hj : j ∈ List.range types.length := hperm.mem_iff.mp (List.mem_map.mpr ⟨_, he, rfl⟩)
    have hat := List.getElem?_eq_getElem (List.mem_range.mp hj)
    rw [getD_get? h hat] at hi
    rw [index_unique h hi hat]
    exact hlevel _ he

/-- Servers are printed below the cluster that is listed before them, and partitions below servers
    that are listed after them. -/
theorem tree_twoTrees : ofTypes TwoTrees.types = .ok TwoTrees.forest ∧
    tree false TwoTrees.forest
      = "cluster [c] \n  server [s] \n    partition [p] \nroom [r] \n  desk [d] \n" ∧
    ∃ entries : List (Nat × EquipmentType),
      tree false TwoTrees.forest = String.join (entries.map fun e => plainLine e.1 e.2) ∧
      Outline (childTypes TwoTrees.types) 0 (rootTypes TwoTrees.types) entries ∧
      (entries.map (·.2)).Perm TwoTrees.types ∧
      ∀ level t, (level, t) ∈ entries → ∀ i, TwoTrees.types[i]? = some t →
        (TwoTrees.forest.ancestors i).length = level + 1 := by
  have hforest : ofTypes TwoTrees.types = .ok TwoTrees.forest :=
    ofTypes_eq_ok.mpr ⟨by decide, [none, some 3, some 4, some 0, none],
      by decide +kernel, rfl, by decide⟩
  exact ⟨hforest, by decide +kernel, tree_outlines hforest⟩

end Report

end LicenseForecast
