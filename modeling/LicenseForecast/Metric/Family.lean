import LicenseForecast.ModelFault
import LicenseForecast.Text.Blank

namespace LicenseForecast

/-!
# Metric families

A licensing metric belongs to one of four families.  Two of them count processors over a pool of
equipment (`Family.isPooled`); the other two count each piece of equipment on its own.
-/

/-- A family of licensing metrics. -/
inductive Family where
  | ops
  | nup
  | ips
  | sps
deriving DecidableEq, Repr, Inhabited

namespace Family

/-- All families, in the order in which they are listed. -/
def all : List Family := [.ops, .nup, .ips, .sps]

/-- The full name of a family. -/
def tag : Family → String
  | .ops => "oracle.processor.standard"
  | .nup => "oracle.nup.standard"
  | .ips => "ibm.pvu.standard"
  | .sps => "sag.processor.standard"

/-- The short name of a family. -/
def shortName : Family → String
  | .ops => "OPS"
  | .nup => "NUP"
  | .ips => "IPS"
  | .sps => "SPS"

/-- Whether a family counts processors over a pool. -/
def isPooled : Family → Bool
  | .ops | .nup => true
  | .ips | .sps => false

/-- Whether a trimmed text names the family, by its full name or by its short name in any case. -/
def isNamed (text : String) (family : Family) : Bool :=
  family.tag == text || Text.sameLetters family.shortName text

/-- The family that a text names, white space around it aside. -/
def named? (text : String) : Option Family := all.find? (isNamed (Text.trim text))

/-- The family that a text names. -/
def ofText (text : String) : Except ModelFault Family :=
  match named? text with
  | some family => .ok family
  | none => .error (.unsupportedFamily text)

end Family

end LicenseForecast
