import LicenseForecast.Metric.Rule
import LicenseForecast.Proofs.Fleet.Agreement
import LicenseForecast.Proofs.Fleet.Subtree

namespace LicenseForecast.Scope

/-!
# Searching below an asset

What is below an asset can be searched for with a queue: an asset is taken off, passed over if it
was found before, and otherwise listed, and the assets right below it are queued with the next
level.  Levels are counted in a byte, so the count stands still at `maxDepth`.  Parents may run in
circles, name the asset itself or nobody; it is not plain that such a search ends, or that the count
does no harm further down.

* `Search.comesTo_level` — the search goes through the levels of `Scope.levels` one after another:
  only its root can be met twice, and the count is right as long as a limit can ask for it;
* `Search.endsWith_subtree` — so it ends, with the subtree;
* `subtree_searched` — a subtree lists what comes to its root within the limit, nearer assets
  first, and is what the search finds.
-/

variable {s : Scope} {f : Forest}

/-! ### What there is to find -/

/-- An asset comes to another one after `k` links upwards and not before. -/
def ComesAfter (s : Scope) (root : Asset) (k : Nat) (a : Asset) : Prop :=
  s.ascend k a = some root ∧ ∀ l < k, s.ascend l a ≠ some root

/-- A list of what is below an asset, up to a limit of levels if there is one. -/
structure ListsBelow (s : Scope) (root : Asset) (depth : Option Nat) (found : List Asset) :
    Prop where
  first : found.head? = some root
  distinct : (found.map (·.id)).Nodup
  /-- An asset is listed if it comes to the root after some number of links that is not beyond the
      limit. -/
  members : ∀ a, a ∈ found ↔
    a ∈ s.assets ∧ ∃ k, (∀ d, depth = some d → k ≤ d) ∧ s.ascend k a = some root
  /-- The smallest such number does not decrease along the list. -/
  ordered : found.Pairwise fun a b =>
    ∀ k l, s.ComesAfter root k a → s.ComesAfter root l b → k ≤ l

/-! ### Levels -/

/-- The last level stands at the end. -/
theorem levels_succ (root : Asset) (n : Nat) (level : List Asset) :
    s.levels root (n + 1) level = s.levels root n level ++ (s.nextLevel root)^[n + 1] level := by
  induction n generalizing level with
  | zero => rfl
  | succ n ih =>
    show level ++ s.levels root (n + 1) (s.nextLevel root level) = _
    rw [ih, Function.iterate_succ_apply _ (n + 1), levels, List.append_assoc]

section

variable (hs : s.Sound f) {root : Asset} (hroot : root ∈ s.assets)

include hs hroot

/-- What lies below an asset of the scope, in levels. -/
theorem subtree_root (depth : Option Nat) :
    s.subtree root.id depth = s.levels root (depth.getD s.assets.length) [root] := by
  unfold subtree
  rw [hs.asset?_eq hroot]

/-- No id is in a subtree twice. -/
theorem nodup_ids_levels (n : Nat) : ((s.levels root n [root]).map (·.id)).Nodup := by
  have hnodup : (s.levels root n [root]).Nodup := by
    simpa [subtree_root hs hroot] using nodup_subtree hs root.id (some n)
  refine hnodup.map_on fun a ha b hb hid => ?_
  have hmem : ∀ c ∈ s.levels root n [root], c ∈ s.assets :=
    fun c hc => ((mem_levels_iff hs hroot).mp hc).1
  exact hs.eq_of_id_eq (hmem a ha) (hmem b hb) hid

/-- **Below as many levels as there are assets there is nothing.** -/
theorem level_eq_nil : (s.nextLevel root)^[s.assets.length + 1] [root] = [] := by
  rw [List.eq_nil_iff_forall_not_mem]
  intro a ha
  obtain ⟨hmem, hascend, hfirst⟩ := (mem_level_iff hs hroot).mp ha
  obtain ⟨k, hk, hk'⟩ := exists_ascend_le hmem hascend
  exact hfirst k (by omega) hk'

/-- **Levels come in order**, the nearer first. -/
theorem ordered_levels (n : Nat) : (s.levels root n [root]).Pairwise fun a b =>
    ∀ k l, s.ComesAfter root k a → s.ComesAfter root l b → k ≤ l := by
  -- the level that an asset is in is the only one that it comes to the root after
  have hunique : ∀ {a : Asset} {k n : Nat}, s.ComesAfter root k a →
      a ∈ (s.nextLevel root)^[n] [root] → k = n := by
    intro a k n ⟨hk, hfirst⟩ ha
    obtain ⟨-, hn, hfirst'⟩ := (mem_level_iff hs hroot).mp ha
    rcases Nat.lt_trichotomy k n with hlt | heq | hlt
    · exact absurd hk (hfirst' k hlt)
    · exact heq
    · exact absurd hn (hfirst n hlt)
  induction n with
  | zero =>
    show [root].Pairwise _
    simp
  | succ n ih =>
    rw [levels_succ]
    refine List.pairwise_append.mpr ⟨ih, ?_, ?_⟩
    · refine List.pairwise_of_forall_mem_list fun a ha b hb k l hk hl => ?_
      rw [hunique hk ha, hunique hl hb]
    · intro a ha b hb k l hk hl
      obtain ⟨m, hm, ha⟩ := mem_levels.mp ha
      have := hunique hk ha
      have := hunique hl hb
      omega

/-- **A subtree is a list of what is below its root.** -/
theorem listsBelow_subtree (depth : Option Nat) :
    s.ListsBelow root depth (s.subtree root.id depth) where
  first := by
    rw [subtree_root hs hroot]
    cases depth.getD s.assets.length <;> simp [levels]
  distinct := by
    rw [subtree_root hs hroot]
    exact nodup_ids_levels hs hroot _
  members a := by
    rw [mem_subtree_iff hs]
    exact and_congr_right fun ha => by simp only [map_id_ascend_iff hs hroot ha]
  ordered := by
    rw [subtree_root hs hroot]
    exact ordered_levels hs hroot _

end

/-! ### The search -/

/-- A search under way: the assets that are queued, each with its level, and those found. -/
structure Search where
  queue : List (Asset × Nat)
  found : List Asset

namespace Search

/-- A search from an id starts with its asset alone. -/
def start (s : Scope) (id : String) : Search := ⟨(s.asset? id).toList.map (·, 0), []⟩

/-- The count of the next level, which does not go beyond a byte. -/
def nextCount (level : Nat) : Nat := min (level + 1) maxDepth

/-- What is queued for an asset: the assets right below it, unless it is at the limit. -/
def queued (s : Scope) (depth : Option Nat) (level : Nat) (a : Asset) : List (Asset × Nat) :=
  if depth.any (· ≤ level) then [] else (s.children a).map (·, nextCount level)

/-- Above the limit the children of an asset are queued, one level further down. -/
theorem queued_below {depth : Option Nat} {level : Nat} (h : depth.any (· ≤ level) = false) :
    queued s depth level = fun a => (s.children a).map (·, nextCount level) := by
  funext a
  simp [queued, h]

/-- At the limit nothing is queued. -/
theorem queued_atLimit {depth : Option Nat} {level : Nat} (h : depth.any (· ≤ level) = true) :
    queued s depth level = fun _ => [] := by
  funext a
  simp [queued, h]

/-- Takes one asset off the queue.  An id is listed only once. -/
def step (s : Scope) (depth : Option Nat) : Search → Search
  | ⟨[], found⟩ => ⟨[], found⟩
  | ⟨(a, level) :: rest, found⟩ =>
    if found.any (·.id == a.id) then ⟨rest, found⟩
    else ⟨rest ++ queued s depth level a, found ++ [a]⟩

/-- Some steps lead from a search to another. -/
def ComesTo (s : Scope) (depth : Option Nat) (q q' : Search) : Prop :=
  ∃ n, (step s depth)^[n] q = q'

/-- A search ends: the queue gets empty, and a list has been found by then. -/
def EndsWith (s : Scope) (depth : Option Nat) (q : Search) (found : List Asset) : Prop :=
  ComesTo s depth q ⟨[], found⟩

variable {depth : Option Nat} {q q' q'' : Search}

theorem ComesTo.refl : ComesTo s depth q q := ⟨0, rfl⟩

/-- One step more in front. -/
theorem ComesTo.head (h : ComesTo s depth (step s depth q) q') : ComesTo s depth q q' := by
  obtain ⟨n, h⟩ := h
  exact ⟨n + 1, h⟩

theorem ComesTo.trans (h : ComesTo s depth q q') (h' : ComesTo s depth q' q'') :
    ComesTo s depth q q'' := by
  obtain ⟨m, rfl⟩ := h
  obtain ⟨n, rfl⟩ := h'
  exact ⟨n + m, Function.iterate_add_apply _ n m q⟩

/-- A search does not end in two ways: with an empty queue it stands still. -/
theorem EndsWith.unique {found found' : List Asset} (h : EndsWith s depth q found)
    (h' : EndsWith s depth q found') : found = found' := by
  have hstill : ∀ n found, (step s depth)^[n] ⟨[], found⟩ = ⟨[], found⟩ :=
    fun n found => Function.iterate_fixed rfl n
  obtain ⟨m, hm⟩ := h
  obtain ⟨n, hn⟩ := h'
  have hsame : (⟨[], found⟩ : Search) = ⟨[], found'⟩ := by
    rw [← hstill n found, ← hm, ← Function.iterate_add_apply, Nat.add_comm,
      Function.iterate_add_apply, hn, hstill]
  exact congrArg Search.found hsame

/-- **One level goes through the queue.**  If the root is found, and nothing else of the level is,
    the level is listed without the root, and what is below it is queued behind the rest. -/
theorem comesTo_pass {root : Asset} {level : Nat} {met found : List Asset}
    {rest : List (Asset × Nat)} (hroot : root.id ∈ found.map (·.id))
    (hnew : ((found ++ met.filter (·.id != root.id)).map (·.id)).Nodup) :
    ComesTo s depth ⟨met.map (·, level) ++ rest, found⟩
      ⟨rest ++ (met.filter (·.id != root.id)).flatMap (queued s depth level),
        found ++ met.filter (·.id != root.id)⟩ := by
  induction met generalizing found rest with
  | nil =>
    simp only [List.map_nil, List.nil_append, List.filter_nil, List.flatMap_nil, List.append_nil]
    exact .refl
  | cons a met ih =>
    apply ComesTo.head
    by_cases hid : a.id = root.id
    · -- the root is passed over
      have hseen : found.any (·.id == a.id) = true := by
        simpa [hid] using hroot
      rw [List.filter_cons_of_neg (by simpa using hid)] at hnew ⊢
      simp only [List.map_cons, List.cons_append, step, hseen, if_true]
      exact ih hroot hnew
    · rw [List.filter_cons_of_pos (by simpa using hid)] at hnew ⊢
      have hunseen : found.any (·.id == a.id) = false := by
        rw [List.map_append, List.nodup_append] at hnew
        rw [List.any_eq_false]
        intro b hb
        have hne := hnew.2.2 b.id (List.mem_map_of_mem hb) a.id (by simp)
        simpa using hne
      simp only [List.map_cons, List.cons_append, step, hunseen, Bool.false_eq_true, if_false]
      -- the asset counts as found from here on
      have hrootNow : root.id ∈ (found ++ [a]).map (·.id) := by
        rw [List.map_append]
        exact List.mem_append_left _ hroot
      have hrest : ComesTo s depth
          ⟨met.map (·, level) ++ (rest ++ queued s depth level a), found ++ [a]⟩ _ :=
        ih hrootNow (by simpa using hnew)
      simpa using hrest

section

variable (hs : s.Sound f) {root : Asset} (hroot : root ∈ s.assets)
  (hdepth : ∀ d, depth = some d → d ≤ maxDepth)

include hs hroot hdepth

/-- **The search goes down level by level.**  After the level `n` what is below it is queued with
    the count of that level, and the levels so far are found. -/
theorem comesTo_level (n : Nat) (hn : ∀ d, depth = some d → n ≤ d) :
    ComesTo s depth (start s root.id)
      ⟨((s.nextLevel root)^[n] [root]).flatMap (queued s depth (min n maxDepth)),
        s.levels root n [root]⟩ := by
  induction n with
  | zero =>
    apply ComesTo.head
    have hstep : step s depth (start s root.id) = ⟨queued s depth 0 root, [root]⟩ := by
      simp [start, hs.asset?_eq hroot, step]
    rw [hstep]
    simpa [levels] using ComesTo.refl
  | succ n ih =>
    refine (ih fun d hd => Nat.le_of_succ_le (hn d hd)).trans ?_
    -- the count is below the limit, also where it stands still
    have hbelow : depth.any (· ≤ min n maxDepth) = false := by
      cases hd : depth with
      | none => rfl
      | some d =>
        have := hn d hd
        have := hdepth d hd
        simp only [Option.any_some, decide_eq_false_iff_not]
        omega
    have hcount : nextCount (min n maxDepth) = min (n + 1) maxDepth := by
      unfold nextCount
      omega
    have hqueue : ((s.nextLevel root)^[n] [root]).flatMap (queued s depth (min n maxDepth))
        = (((s.nextLevel root)^[n] [root]).flatMap s.children).map (·, min (n + 1) maxDepth)
          ++ [] := by
      rw [queued_below hbelow, hcount, List.map_flatMap, List.append_nil]
    have hlevels : s.levels root (n + 1) [root]
        = s.levels root n [root] ++ (s.nextLevel root)^[n + 1] [root] := levels_succ root n [root]
    rw [Function.iterate_succ_apply'] at hlevels ⊢
    have hids := nodup_ids_levels hs hroot (n + 1)
    rw [hlevels] at hids ⊢
    rw [hqueue]
    apply comesTo_pass _ hids
    have hmem : root ∈ s.levels root n [root] :=
      (mem_levels_iff hs hroot).mpr ⟨hroot, 0, Nat.zero_le n, rfl⟩
    exact List.mem_map_of_mem hmem

/-- **The search ends with the subtree.** -/
theorem endsWith_subtree : EndsWith s depth (start s root.id) (s.subtree root.id depth) := by
  rw [subtree_root hs hroot]
  cases hd : depth with
  | some d =>
    subst hd
    have hlast := comesTo_level hs hroot hdepth d fun d' hd' => by cases hd'; exact Nat.le_refl d
    -- nothing is queued at the limit
    have hstop : (some d).any (· ≤ min d maxDepth) = true := by
      simpa using hdepth d rfl
    rw [queued_atLimit hstop, List.flatMap_eq_nil_iff.mpr fun _ _ => rfl] at hlast
    exact hlast
  | none =>
    subst hd
    have hlast := comesTo_level hs hroot hdepth (s.assets.length + 1) nofun
    rw [levels_succ, level_eq_nil hs hroot, List.flatMap_nil, List.append_nil] at hlast
    exact hlast

end

end Search

/-! ### Subtrees -/

/-- **A subtree is exact, whatever the links are like**, in every scope that passes its checks: it
    is empty if no asset bears the id, and else lists what is below that asset.  It is what the
    search with a queue ends with, for each limit that can be asked for and for none. -/
theorem subtree_searched {name : String} {strict : Bool} (h : s.check name strict = .ok ())
    (id : String) (depth : Option Nat) :
    ((∀ a ∈ s.assets, a.id ≠ id) → s.subtree id depth = []) ∧
    (∀ root ∈ s.assets, root.id = id → s.ListsBelow root depth (s.subtree id depth)) ∧
    ((∀ d, depth = some d → d ≤ maxDepth) → ∀ found,
      Search.EndsWith s depth (Search.start s id) found ↔ found = s.subtree id depth) := by
  obtain ⟨f, hs⟩ := sound_of_check h
  refine ⟨fun hnone => ?_, fun root hroot hid => ?_, fun hdepth found => ?_⟩
  · have hmissing : s.asset? id = none := List.find?_eq_none.mpr (by simpa using hnone)
    simp [subtree, hmissing]
  · subst hid
    exact listsBelow_subtree hs hroot depth
  -- the queue ends with the levels, and a search has only one end
  · have hends : Search.EndsWith s depth (Search.start s id) (s.subtree id depth) := by
      cases hroot : s.asset? id with
      | none =>
        simp only [Search.start, subtree, hroot]
        exact .refl
      | some root =>
        obtain ⟨hmem, rfl⟩ := mem_of_asset? hroot
        exact Search.endsWith_subtree hs hmem hdepth
    constructor
    · intro hfound
      exact hfound.unique hends
    · rintro rfl
      exact hends

/-! ### Equipment in a circle -/

namespace Circle

open TwoClusters (asset)

/-- Two clusters are each other's parent, a third is its own, and the parent of a server is missing.
    Another server is below the first cluster, with one below it. -/
def scope : Scope where
  types := TwoClusters.types
  assets := [asset "v" "server" (some "s"), asset "a" "cluster" (some "b"),
    asset "b" "cluster" (some "a"), asset "c" "cluster" (some "c"),
    asset "x" "server" (some "nowhere"), asset "s" "server" (some "b")]

/-- From one cluster on the circle both are found, each once, and the servers below. -/
theorem subtree_circle : scope.check "main" false = .ok () ∧
    (scope.subtree "a" none).map (·.id) = ["a", "b", "s", "v"] ∧
    (∃ root ∈ scope.assets, root.id = "a" ∧
      scope.ListsBelow root none (scope.subtree "a" none)) ∧
    Search.EndsWith scope none (Search.start scope "a") (scope.subtree "a" none) ∧
    (scope.subtree "a" (some 2)).map (·.id) = ["a", "b", "s"] ∧
    (∀ found, Search.EndsWith scope (some 2) (Search.start scope "a") found ↔
      found = scope.subtree "a" (some 2)) ∧
    (scope.subtree "c" none).map (·.id) = ["c"] ∧ scope.subtree "nowhere" none = [] := by
  have hcheck : scope.check "main" false = .ok () := by decide +kernel
  obtain ⟨-, hlists, hends⟩ := subtree_searched hcheck "a" none
  refine ⟨hcheck, by decide +kernel, ?_, (hends nofun _).mpr rfl, by decide +kernel, ?_,
    by decide +kernel, ?_⟩
  · have hmem : asset "a" "cluster" (some "b") ∈ scope.assets := by simp [scope]
    exact ⟨_, hmem, rfl, hlists _ hmem rfl⟩
  · exact (subtree_searched hcheck "a" (some 2)).2.2 fun d hd => by cases hd; decide
  · exact (subtree_searched hcheck "nowhere" none).1 (by decide)

end Circle

end LicenseForecast.Scope
