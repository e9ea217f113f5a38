import LicenseForecast.Proofs.Fleet.Linked
import Mathlib.Data.List.Flatten
import Mathlib.Data.List.Perm.Subperm

namespace LicenseForecast.Scope

/-!
# Generations — a subtree level by level

`Scope.subtree` collects levels until it has made as many as there are assets.  In a linked scope
the level `n` below an asset holds exactly the assets that are `n` links below it
(`mem_generation`), so a subtree is the generations one after another (`subtree_eq`).  All assets
of one type are in one generation, the one that the forest says (`filter_subtree`).
-/

/-- The assets `n` levels below those of a list. -/
def generation (s : Scope) : Nat → List Asset → List Asset
  | 0, level => level
  | n + 1, level => s.generation n (level.flatMap s.children)

variable {s : Scope} {f : Forest}

/-! ### Generations of lists -/

/-- Generations of generations. -/
theorem generation_add (m n : Nat) (level : List Asset) :
    s.generation (m + n) level = s.generation n (s.generation m level) := by
  induction m generalizing level with
  | zero => rw [Nat.zero_add]; rfl
  | succ m ih =>
    rw [Nat.succ_add]
    exact ih (level.flatMap s.children)

/-- A generation of a list is made of those of its members. -/
theorem generation_eq_flatMap (n : Nat) (level : List Asset) :
    s.generation n level = level.flatMap fun t => s.generation n [t] := by
  induction n generalizing level with
  | zero => exact (List.flatMap_singleton' level).symm
  | succ n ih =>
    show s.generation n (level.flatMap s.children) = _
    rw [ih, List.flatMap_assoc]
    congr 1
    funext t
    show _ = s.generation n ([t].flatMap s.children)
    rw [List.flatMap_singleton, ← ih]

/-- What is part of an asset are the assets that have it as their parent. -/
theorem mem_children (hs : s.Sound f) {a t : Asset} (ht : t ∈ s.assets) :
    a ∈ s.children t ↔ a ∈ s.assets ∧ s.parentOf a = some t := by
  unfold children
  rw [List.mem_filter, beq_iff_eq]
  refine and_congr_right fun _ => ⟨fun hid => ?_, fun hp => (mem_of_parentOf hp).1⟩
  rw [parentOf, hid, Option.bind_some, hs.asset?_eq ht]

/-- **A generation holds the assets that are so many links below.** -/
theorem mem_generation (hs : s.Sound f) {n : Nat} {a t : Asset} (ht : t ∈ s.assets) :
    a ∈ s.generation n [t] ↔ a ∈ s.assets ∧ s.ascend n a = some t := by
  induction n generalizing t with
  | zero =>
    show a ∈ [t] ↔ a ∈ s.assets ∧ some a = some t
    rw [List.mem_singleton, Option.some.injEq]
    exact ⟨fun h => ⟨h ▸ ht, h⟩, And.right⟩
  | succ n ih =>
    show a ∈ s.generation n ([t].flatMap s.children) ↔ _
    rw [List.flatMap_singleton, generation_eq_flatMap, List.mem_flatMap, ascend_add,
      Option.bind_eq_some_iff]
    -- the last step up is the first generation, the steps before it are the generations of a child
    constructor
    · rintro ⟨c, hc, ha⟩
      obtain ⟨hmem, hparent⟩ := (mem_children hs ht).mp hc
      obtain ⟨ha, hascend⟩ := (ih hmem).mp ha
      exact ⟨ha, c, hascend, (ascend_one c).trans hparent⟩
    · rintro ⟨ha, c, hascend, hparent⟩
      have hmem := mem_of_ascend ha hascend
      rw [ascend_one] at hparent
      exact ⟨c, (mem_children hs ht).mpr ⟨hmem, hparent⟩, (ih hmem).mpr ⟨ha, hascend⟩⟩

/-- No asset occurs twice in a scope that is sound. -/
theorem Sound.assets_nodup (hs : s.Sound f) : s.assets.Nodup := hs.ids_nodup.of_map

/-- Different assets have different children, so generations of a list without repetitions have
    none either. -/
theorem nodup_generation_of_nodup (hs : s.Sound f) {n : Nat} {level : List Asset}
    (hmem : ∀ t ∈ level, t ∈ s.assets) (hnodup : level.Nodup) : (s.generation n level).Nodup := by
  induction n generalizing level with
  | zero => exact hnodup
  | succ n ih =>
    refine ih (fun a ha => ?_) (List.nodup_flatMap.mpr ⟨fun t _ => ?_, ?_⟩)
    · obtain ⟨t, ht, ha⟩ := List.mem_flatMap.mp ha
      exact ((mem_children hs (hmem t ht)).mp ha).1
    · exact hs.assets_nodup.filter _
    · -- nobody has two parents
      refine hnodup.imp_of_mem fun {t t'} ht ht' hne a ha ha' => hne ?_
      have hp := ((mem_children hs (hmem t ht)).mp ha).2
      have hp' := ((mem_children hs (hmem t' ht')).mp ha').2
      exact Option.some.inj (hp.symm.trans hp')

/-- No asset occurs twice in a generation. -/
theorem nodup_generation (hs : s.Sound f) {n : Nat} {t : Asset} (ht : t ∈ s.assets) :
    (s.generation n [t]).Nodup :=
  nodup_generation_of_nodup hs (fun _ h => (List.mem_singleton.mp h) ▸ ht) (List.nodup_singleton t)

/-! ### Subtrees -/

/-- Of parts laid one after another only one is not empty. -/
theorem flatMap_eq_single {α β : Type} {l : List α} {g : α → List β} {x : α} (hl : l.Nodup)
    (hx : x ∈ l) (h : ∀ y ∈ l, y ≠ x → g y = []) : l.flatMap g = g x := by
  induction l with
  | nil => cases hx
  | cons y l ih =>
    obtain ⟨hy, hl⟩ := List.nodup_cons.mp hl
    rw [List.flatMap_cons]
    rcases List.mem_cons.mp hx with rfl | hx
    -- the element does not come again, so nothing else contributes
    · have hrest : l.flatMap g = [] := by
        rw [List.flatMap_eq_nil_iff]
        rintro z hz
        exact h z (List.mem_cons_of_mem _ hz) fun heq => hy (heq ▸ hz)
      rw [hrest, List.append_nil]
    · have hnil : g y = [] := h y List.mem_cons_self fun heq => hy (heq ▸ hx)
      rw [hnil, List.nil_append]
      exact ih hl hx fun z hz => h z (List.mem_cons_of_mem _ hz)

/-- The ids of an asset and of those above it, link by link. -/
private def idsAbove (s : Scope) (n : Nat) (a : Asset) : List (Option String) :=
  (List.range (n + 1)).map fun k => (s.ascend k a).map (·.id)

/-- A way up passes through assets of the scope. -/
private theorem exists_ascend_of_le {n k : Nat} {a t : Asset} (ha : a ∈ s.assets)
    (h : s.ascend n a = some t) (hk : k ≤ n) : ∃ u ∈ s.assets, s.ascend k a = some u := by
  obtain ⟨m, rfl⟩ := Nat.exists_eq_add_of_le hk
  rw [ascend_add] at h
  obtain ⟨u, hu, -⟩ := Option.bind_eq_some_iff.mp h
  exact ⟨u, mem_of_ascend ha hu, hu⟩

section

variable (hs : s.Sound f) (hlinked : s.Linked f)

include hs hlinked

/-- The forest says how far below an asset those of a type are. -/
theorem ascend_index_unique {m n i j : Nat} {a t : Asset} (ha : a ∈ s.assets)
    (hi : f.indexOfName? a.typeName = some i) (hj : f.indexOfName? t.typeName = some j)
    (hdistance : f.ascend m i = some j) (h : s.ascend n a = some t) : n = m := by
  obtain ⟨hf, -⟩ := Forest.sound_of_ofTypes hs.types_eq
  obtain ⟨j', hj', hascend⟩ := hlinked.ascend_index ha hi h
  cases hj.symm.trans hj'
  exact hf.ascend_unique (Forest.lt_of_indexOfName? hi) hascend hdistance

/-- Nothing lies below itself. -/
theorem ascend_ne_self {n : Nat} {t : Asset} (ht : t ∈ s.assets) (hn : 0 < n) :
    s.ascend n t ≠ some t := by
  intro h
  obtain ⟨i, hi⟩ := hs.typed t ht
  have hzero := ascend_index_unique hs hlinked ht hi hi (m := 0) rfl h
  omega

/-- The root does not come up again, so nothing is left out of a level. -/
theorem nextLevel_generation {n : Nat} {t : Asset} (ht : t ∈ s.assets) :
    s.nextLevel t (s.generation n [t]) = s.generation (n + 1) [t] := by
  have hnext : (s.generation n [t]).flatMap s.children = s.generation (n + 1) [t] :=
    (generation_add n 1 [t]).symm
  unfold nextLevel
  rw [hnext, List.filter_eq_self]
  intro a ha
  obtain ⟨hmem, hascend⟩ := (mem_generation hs ht).mp ha
  rw [bne_iff_ne]
  intro hid
  cases hs.eq_of_id_eq hmem ht hid
  exact ascend_ne_self hs hlinked ht (Nat.succ_pos n) hascend

/-- Levels below an asset are its generations, one after another. -/
private theorem levels_eq (n k : Nat) {t : Asset} (ht : t ∈ s.assets) :
    s.levels t n (s.generation k [t])
      = (List.range' k (n + 1)).flatMap fun i => s.generation i [t] := by
  induction n generalizing k with
  | zero => exact (List.flatMap_singleton ..).symm
  | succ n ih =>
    rw [List.range'_succ, List.flatMap_cons, ← ih (k + 1), ← nextLevel_generation hs hlinked ht]
    rfl

/-- **A subtree is the generations one after another.** -/
theorem subtree_eq {t : Asset} (ht : t ∈ s.assets) :
    s.subtree t.id none
      = (List.range (s.assets.length + 1)).flatMap fun n => s.generation n [t] := by
  rw [List.range_eq_range', ← levels_eq hs hlinked _ _ ht]
  unfold subtree
  rw [hs.asset?_eq ht]
  rfl

/-- The ids along a way up are those of different assets. -/
private theorem nodup_idsAbove {n : Nat} {a t : Asset} (ha : a ∈ s.assets)
    (h : s.ascend n a = some t) : (s.idsAbove n a).Nodup := by
  obtain ⟨i, hi⟩ := hs.typed a ha
  refine List.Nodup.map_on (fun k hk l hl heq => ?_) List.nodup_range
  obtain ⟨u, hu, hku⟩ := exists_ascend_of_le ha h (Nat.lt_succ_iff.mp (List.mem_range.mp hk))
  obtain ⟨v, hv, hlv⟩ := exists_ascend_of_le ha h (Nat.lt_succ_iff.mp (List.mem_range.mp hl))
  rw [hku, hlv, Option.map_some, Option.map_some, Option.some.injEq] at heq
  cases hs.eq_of_id_eq hu hv heq
  -- the type says how far up the asset is
  obtain ⟨j, hj, hk⟩ := hlinked.ascend_index ha hi hku
  exact (ascend_index_unique hs hlinked ha hi hj hk hlv).symm

/-- A way up has fewer links than there are assets. -/
theorem lt_length_of_ascend {n : Nat} {a t : Asset} (ha : a ∈ s.assets)
    (h : s.ascend n a = some t) : n < s.assets.length := by
  have hsubset : s.idsAbove n a ⊆ s.assets.map (some ·.id) := by
    intro id hid
    obtain ⟨k, hk, rfl⟩ := List.mem_map.mp hid
    obtain ⟨u, hu, hku⟩ := exists_ascend_of_le ha h (Nat.lt_succ_iff.mp (List.mem_range.mp hk))
    rw [hku]
    exact List.mem_map.mpr ⟨u, hu, rfl⟩
  have hle := (List.subperm_of_subset (nodup_idsAbove hs hlinked ha h) hsubset).length_le
  rw [idsAbove, List.length_map, List.length_map, List.length_range] at hle
  exact hle

/-- Equipment of a type is in one generation only. -/
private theorem filter_generation_eq_nil {n d i j : Nat} {t : Asset} {name : String}
    (ht : t ∈ s.assets) (hi : f.indexOfName? name = some i)
    (hj : f.indexOfName? t.typeName = some j) (hdistance : f.ascend d i = some j) (hn : n ≠ d) :
    (s.generation n [t]).filter (·.typeName == name) = [] := by
  rw [List.filter_eq_nil_iff]
  intro a ha hname
  obtain ⟨hmem, hascend⟩ := (mem_generation hs ht).mp ha
  rw [← beq_iff_eq.mp hname] at hi
  exact hn (ascend_index_unique hs hlinked hmem hi hj hdistance hascend)

/-- **The equipment of a type in a subtree** is in the generation that the forest says. -/
theorem filter_subtree {d i j : Nat} {t : Asset} {name : String} (ht : t ∈ s.assets)
    (hi : f.indexOfName? name = some i) (hj : f.indexOfName? t.typeName = some j)
    (hdistance : f.ascend d i = some j) :
    (s.subtree t.id none).filter (·.typeName == name)
      = (s.generation d [t]).filter (·.typeName == name) := by
  rw [subtree_eq hs hlinked ht, List.filter_flatMap]
  by_cases hd : d < s.assets.length + 1
  · refine flatMap_eq_single List.nodup_range (List.mem_range.mpr hd) fun n _ hn => ?_
    exact filter_generation_eq_nil hs hlinked ht hi hj hdistance hn
  -- no way up is as long as the scope is large
  · have hempty : s.generation d [t] = [] := by
      rw [List.eq_nil_iff_forall_not_mem]
      intro a ha
      obtain ⟨hmem, hascend⟩ := (mem_generation hs ht).mp ha
      have := lt_length_of_ascend hs hlinked hmem hascend
      omega
    rw [hempty, List.filter_nil, List.flatMap_eq_nil_iff]
    intro n hn
    have := List.mem_range.mp hn
    exact filter_generation_eq_nil hs hlinked ht hi hj hdistance (by omega)

end

end LicenseForecast.Scope
