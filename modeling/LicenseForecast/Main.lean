import LicenseForecast.Command.Run

/-!
# The command

Runs the command on the files of the machine.
-/

namespace LicenseForecast.Command

/-- The number of a fault, which the machine gives with either sign. -/
def faultNumber (code : UInt32) : Nat :=
  if code.toNat < 2147483648 then code.toNat else 4294967296 - code.toNat

/-- Why the machine could not read a file. -/
def readFault : IO.Error → ReadFault
  | .noFileOrDirectory .. => .notFound
  | .permissionDenied .. => .denied
  | .inappropriateType _ code _ => if faultNumber code = 20 then .notDirectory else .isDirectory
  | .invalidArgument _ 22 _ => .nulInName
  | .invalidArgument .. => .nameTooLong
  | error => .other (toString error)

/-- The text of some bytes. -/
def textOf (bytes : ByteArray) : Except ReadFault String :=
  match String.fromUTF8? bytes with
  | some text => .ok text
  | none => .error .notText

/-- The text of a file. -/
def readFile (path : String) : IO (Except ReadFault String) := do
  try
    return textOf (← IO.FS.readBinFile path)
  catch error =>
    return .error (readFault error)

/-- All that is typed in. -/
def readInput : IO (Except ReadFault String) := do
  try
    return textOf (← (← IO.getStdin).readBinToEnd)
  catch error =>
    return .error (readFault error)

end LicenseForecast.Command

open LicenseForecast.Command in
/-- Runs the command and prints what it leaves behind. -/
def main (arguments : List String) : IO UInt32 := do
  let color := (← IO.getEnv "NO_COLOR").isNone && (← (← IO.getStdout).isTty)
  let outcome ← run ⟨readFile, readInput⟩ color arguments
  IO.print outcome.output
  IO.eprint outcome.messages
  return outcome.code.toUInt32
