namespace LicenseForecast

/-!
# Contexts — the circumstances of a request

A context names the scopes that a request may see, and says until when and under which flag it
goes on.  `Context.interruption` is looked at before each lookup, never during one.
-/

/-- A flag that calls requests off.  Contexts that are copied from one another share theirs. -/
abbrev Flag := Nat

/-- The flags that have been raised. -/
structure Flags where
  raised : List Flag := []
deriving DecidableEq, Repr, Inhabited

/-- Whether a flag has been raised. -/
def Flags.isRaised (flags : Flags) (flag : Flag) : Bool := flags.raised.contains flag

/-- The flags with one more raised.  A flag is never lowered again. -/
def Flags.raise (flags : Flags) (flag : Flag) : Flags := ⟨flag :: flags.raised⟩

/-- When a request has to be finished. -/
inductive Deadline where
  | past
  | ahead
deriving DecidableEq, Repr, Inhabited

/-- The deadline of a request that may take some time from now on. -/
def Deadline.after (milliseconds : Nat) : Deadline := if milliseconds = 0 then .past else .ahead

/-- The circumstances of a request. -/
structure Context where
  scopes : List String := []
  deadline : Option Deadline := none
  flag : Flag := 0
deriving DecidableEq, Repr, Inhabited

/-- Why a request does not go on. -/
inductive Interruption where
  | cancelled
  | deadlineExceeded
deriving DecidableEq, Repr, Inhabited

/-- Why a request does not go on, if it does not: a raised flag counts before a deadline. -/
def Context.interruption (context : Context) (flags : Flags) : Option Interruption :=
  if flags.isRaised context.flag then some .cancelled
  else if context.deadline = some .past then some .deadlineExceeded
  else none

end LicenseForecast
