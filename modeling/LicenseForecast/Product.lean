namespace LicenseForecast

/-!
# Products and their named users
-/

/-- A product as it appears in a forecast. -/
structure Product where
  name : String
  tag : String
deriving DecidableEq, Repr, Inhabited

/-- A user of a product and how often the user counts. -/
structure NamedUser where
  id : String
  userId : String
  count : Int
deriving DecidableEq, Repr, Inhabited

/-- The first entry of each user, in order; `seen` are users met before. -/
def NamedUser.distinctFrom (seen : List String) : List NamedUser → List NamedUser
  | [] => []
  | user :: rest =>
    if seen.contains user.userId then distinctFrom seen rest
    else user :: distinctFrom (user.userId :: seen) rest

/-- The first entry of each user, in order. -/
def NamedUser.distinct (users : List NamedUser) : List NamedUser := distinctFrom [] users

end LicenseForecast
