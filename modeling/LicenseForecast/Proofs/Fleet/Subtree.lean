import LicenseForecast.Proofs.Fleet.Reach

namespace LicenseForecast.Scope

/-!
# What is below an asset

A subtree without a limit is searched for as many levels as a scope has assets.  That is deep
enough: an asset that comes to another one by following links upwards does so within fewer links
than there are assets, also where they run in circles (`exists_ascend_le`).  So a subtree has
exactly the assets that come to its root (`mem_subtree_iff`), each of them once
(`nodup_subtree`).
-/

variable {s : Scope} {f : Forest}

/-- **A way up need not be longer than there are assets**: a longer one comes round, and without
    the round it leads to the same asset. -/
theorem exists_ascend_le {a t : Asset} {n : Nat} (ha : a ∈ s.assets)
    (h : s.ascend n a = some t) : ∃ k ≤ s.assets.length, s.ascend k a = some t := by
  induction n using Nat.strong_induction_on with
  | _ n ih =>
    by_cases hlong : n ≤ s.assets.length
    · exact ⟨n, hlong, h⟩
    have hpassed : ∀ k ≤ s.assets.length, ∃ u, s.ascend k a = some u := by
      intro k hk
      obtain ⟨m, rfl⟩ := Nat.exists_eq_add_of_le (Nat.le_trans hk (Nat.le_of_not_le hlong))
      rw [ascend_add] at h
      obtain ⟨u, hu, -⟩ := Option.bind_eq_some_iff.mp h
      exact ⟨u, hu⟩
    obtain ⟨k, l, u, hlt, hle, hk, hl⟩ := exists_round_of_ascend ha hpassed
    -- from where the walk comes round it goes on as it did before
    obtain ⟨m, rfl⟩ := Nat.exists_eq_add_of_le (Nat.le_trans hle (Nat.le_of_not_le hlong))
    rw [ascend_add, hl, Option.bind_some] at h
    refine ih (k + m) (by omega) ?_
    rw [ascend_add, hk, Option.bind_some, h]

section

variable (hs : s.Sound f)

include hs

/-- **A subtree has the assets that come to its root** after some links upwards, and if it has a
    limit, after no more links than that. -/
theorem mem_subtree_iff {id : String} {depth : Option Nat} {a : Asset} :
    a ∈ s.subtree id depth ↔ a ∈ s.assets ∧
      ∃ k, (∀ d, depth = some d → k ≤ d) ∧ (s.ascend k a).map (·.id) = some id := by
  unfold subtree
  cases hroot : s.asset? id with
  | none =>
    -- a way up ends at an asset that is held, and none has the id
    refine ⟨nofun, fun ⟨ha, k, _, hk⟩ => ?_⟩
    obtain ⟨t, ht, rfl⟩ := Option.map_eq_some_iff.mp hk
    cases hroot.symm.trans (hs.asset?_eq (mem_of_ascend ha ht))
  | some root =>
    obtain ⟨hmem, rfl⟩ := mem_of_asset? hroot
    rw [mem_levels_iff hs hmem]
    refine and_congr_right fun ha => ?_
    simp only [map_id_ascend_iff hs hmem ha]
    cases depth with
    | none =>
      -- a bounded search suffices: longer ways come round and can be cut
      refine ⟨fun ⟨k, _, hk⟩ => ⟨k, nofun, hk⟩, fun ⟨k, _, hk⟩ => exists_ascend_le ha hk⟩
    | some d =>
      exact ⟨fun ⟨k, hk, h⟩ => ⟨k, fun _ hd => Option.some.inj hd ▸ hk, h⟩,
        fun ⟨k, hk, h⟩ => ⟨k, hk d rfl, h⟩⟩

/-- The ids within reach are those of the assets that come to the root in time. -/
theorem mem_within_iff {id : String} {depth : Nat} {a : Asset} (ha : a ∈ s.assets) :
    a.id ∈ s.within id depth ↔ ∃ k ≤ depth, (s.ascend k a).map (·.id) = some id := by
  unfold within
  rw [List.mem_map]
  constructor
  · rintro ⟨b, hb, hid⟩
    obtain ⟨hb, k, hk, hascend⟩ := (mem_subtree_iff hs).mp hb
    cases hs.eq_of_id_eq hb ha hid
    exact ⟨k, hk depth rfl, hascend⟩
  · rintro ⟨k, hk, hascend⟩
    exact ⟨a, (mem_subtree_iff hs).mpr ⟨ha, k, fun _ h => Option.some.inj h ▸ hk, hascend⟩, rfl⟩

/-- No asset is in a level twice. -/
private theorem nodup_level {root : Asset} (hroot : root ∈ s.assets) (k : Nat) :
    ((s.nextLevel root)^[k] [root]).Nodup := by
  induction k with
  | zero => exact List.nodup_singleton root
  | succ k ih =>
    rw [Function.iterate_succ_apply']
    have hlevel : ∀ t ∈ (s.nextLevel root)^[k] [root], t ∈ s.assets :=
      fun t ht => ((mem_level_iff hs hroot).mp ht).1
    have hnext := nodup_generation_of_nodup hs (n := 1) hlevel ih
    exact hnext.filter _

/-- **No asset is in a subtree twice**: it is in the level in which it comes to the root first. -/
theorem nodup_subtree (id : String) (depth : Option Nat) : (s.subtree id depth).Nodup := by
  have hlevels : ∀ {root : Asset}, root ∈ s.assets → ∀ n k,
      (s.levels root n ((s.nextLevel root)^[k] [root])).Nodup := by
    intro root hroot n
    induction n with
    | zero => exact nodup_level hs hroot
    | succ n ih =>
      intro k
      have hrest := ih (k + 1)
      rw [Function.iterate_succ_apply'] at hrest
      refine List.nodup_append.mpr ⟨nodup_level hs hroot k, hrest, fun a ha b hb heq => ?_⟩
      subst heq
      obtain ⟨j, -, hj⟩ := mem_levels.mp hb
      rw [← Function.iterate_succ_apply' (s.nextLevel root), ← Function.iterate_add_apply] at hj
      -- an asset comes to the root for the first time only once
      exact ((mem_level_iff hs hroot).mp hj).2.2 k (by omega) ((mem_level_iff hs hroot).mp ha).2.1
  unfold subtree
  cases hroot : s.asset? id with
  | none => exact List.nodup_nil
  | some root => exact hlevels (mem_of_asset? hroot).1 _ 0

end

end LicenseForecast.Scope
