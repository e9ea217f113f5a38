import LicenseForecast.Equipment.Forest
import LicenseForecast.Report.Style

namespace LicenseForecast.Report

/-!
# The type tree

One line for each type of a forest, roots first, each type directly above those below it and
indented by two spaces per level.
-/

/-- The line of a type at a level. -/
def typeLine (color : Bool) (level : Nat) (t : EquipmentType) : String :=
  let attributes := ", ".intercalate (t.attributes.map (·.name))
  String.ofList (List.replicate (2 * level) ' ') ++ styled color .bold t.name ++ " [" ++ t.id
    ++ "] " ++ styled color .dimmed attributes ++ "\n"

/-- The lines of type `i` and those below it, at most `n` levels in all. -/
def subtreeLines (color : Bool) (f : Forest) : Nat → Nat → Nat → List String
  | 0, _, _ => []
  | n + 1, level, i =>
    typeLine color level ((f.get? i).getD default)
      :: (f.children i).flatMap (subtreeLines color f n (level + 1))

/-- The lines of all types.  A forest has no more levels than types. -/
def treeLines (color : Bool) (f : Forest) : List String :=
  f.roots.flatMap (subtreeLines color f f.types.size 0)

/-- The tree of a forest. -/
def tree (color : Bool) (f : Forest) : String := String.join (treeLines color f)

end LicenseForecast.Report
