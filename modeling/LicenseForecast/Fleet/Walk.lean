import LicenseForecast.Fleet.Basic

namespace LicenseForecast.Scope

/-!
# Walks over the equipment of a scope

Assets name their parents by id, and nothing keeps these links from running in a circle:

* `Scope.climb` and `Scope.ascend` follow a given number of links upwards;
* `Scope.subtree` collects an asset and those below it, level by level, and stops in time;
* `Scope.nearest` looks upwards for an asset of a type, on and on where the links run in a circle
  without one.
-/

/-- The asset with an id. -/
def asset? (s : Scope) (id : String) : Option Asset := s.assets.find? (·.id == id)

/-- Whether a scope holds equipment with the given id and type. -/
def holds (s : Scope) (id typeName : String) : Bool :=
  (s.asset? id).any (·.typeName == typeName)

/-- The asset that an asset names as its parent. -/
def parentOf (s : Scope) (a : Asset) : Option Asset := a.parentId.bind s.asset?

/-! ### Upwards -/

/-- An asset and those above it, at most `n` of them. -/
def climb (s : Scope) : Nat → Asset → List Asset
  | 0, _ => []
  | n + 1, a =>
    a :: match s.parentOf a with
      | none => []
      | some p => s.climb n p

/-- The asset that is `n` links above an asset. -/
def ascend (s : Scope) : Nat → Asset → Option Asset
  | 0, a => some a
  | n + 1, a => (s.parentOf a).bind (s.ascend n)

/-- What a walk upwards comes to. -/
inductive Walk where
  | found (a : Asset)
  /-- The links ended before. -/
  | ended

/-- The first asset of a type on the way up from an asset.  Nothing comes of a walk that does not
    end, which is the outer option: that an asset has no parent is a result. -/
def nearest (typeName : String) (a : Asset) (s : Scope) : Option Walk :=
  if a.typeName = typeName then some (.found a)
  else Option.elimM (pure (s.parentOf a)) (some .ended) (s.nearest typeName)
partial_fixpoint

/-! ### Downwards -/

/-- The assets right below an asset, in their order in the scope. -/
def children (s : Scope) (a : Asset) : List Asset :=
  s.assets.filter (·.parentId == some a.id)

/-- The assets right below those of one level.  An asset has one parent, so none comes up twice
    except the root, and that only if it lies on a circle. -/
def nextLevel (s : Scope) (root : Asset) (level : List Asset) : List Asset :=
  (level.flatMap s.children).filter (·.id != root.id)

/-- A level and the `n` levels below it. -/
def levels (s : Scope) (root : Asset) : Nat → List Asset → List Asset
  | 0, level => level
  | n + 1, level => level ++ s.levels root n (s.nextLevel root level)

/-- The asset with an id and the assets up to `depth` levels below it, level by level.  Without a
    depth there is no limit, which is no more than as many levels as there are assets. -/
def subtree (s : Scope) (id : String) (depth : Option Nat) : List Asset :=
  match s.asset? id with
  | none => []
  | some root => s.levels root (depth.getD s.assets.length) [root]

end LicenseForecast.Scope
