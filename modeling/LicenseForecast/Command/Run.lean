import LicenseForecast.Command.Help
import LicenseForecast.Document.Fleet
import LicenseForecast.Document.Forecast
import LicenseForecast.Report.Catalog
import LicenseForecast.Report.Table
import LicenseForecast.Report.Tree

namespace LicenseForecast.Command

/-!
# Running the command

`run` does what a command line asks for.  Files and typed input come through `Surroundings`, so
that nothing here depends on where they are; all that is printed is part of the `Outcome`.
-/

/-- What the command can get hold of. -/
structure Surroundings (m : Type → Type) where
  read : String → m (Except ReadFault String)
  input : m (Except ReadFault String)

/-- What a run leaves behind. -/
structure Outcome where
  code : Nat
  output : String := ""
  messages : String := ""
deriving DecidableEq, Repr, Inhabited

/-- What a run leaves behind that stops at a sum that does not fit. -/
def Outcome.stopped : Outcome := { code := 101, messages := "attempt to add with overflow\n" }

/-- Why a run fails: in one sentence, and what led to it, the nearest cause first. -/
structure Trouble where
  summary : String
  causes : List String := []
deriving DecidableEq, Repr, Inhabited

namespace Trouble

/-- A text with blanks in front of every line after the first. -/
def hanging (indent : String) (text : String) : String :=
  String.join (text.toList.map fun c => if c = '\n' then "\n" ++ indent else c.toString)

/-- A cause; it has a number if there are others. -/
def causeText (number : Option Nat) (cause : String) : String :=
  match number with
  | none => "    " ++ hanging "    " cause
  | some n => Report.padLeft 5 (toString n) ++ ": " ++ hanging "       " cause

/-- The causes, each on lines of its own. -/
def causeTexts (causes : List String) : List String :=
  match causes with
  | [cause] => [causeText none cause]
  | causes => causes.zipIdx.map fun cause => causeText (some cause.2) cause.1

/-- The message to the user. -/
def text (trouble : Trouble) : String :=
  "Error: " ++ trouble.summary ++
    (if trouble.causes.isEmpty then ""
      else "\n\nCaused by:\n" ++ "\n".intercalate (causeTexts trouble.causes)) ++ "\n"

/-- A document that cannot be loaded. -/
def ofLoad (summary : String) (fault : LoadFault) : Trouble :=
  ⟨summary, fault.message :: fault.reason?.toList⟩

end Trouble

section Actions

variable {m : Type → Type} [Monad m] (surroundings : Surroundings m)

/-- The settings that a call asks for. -/
def Call.settings (call : Call) : ExceptT Trouble m Settings := do
  let settings ←
    match call.config with
    | none => pure {}
    | some path =>
      ExceptT.mk do
        return (← Settings.ofFile surroundings.read path).mapError
          (.ofLoad s!"reading config {path}")
  return { settings with fleetPath := call.fleet.getD settings.fleetPath }

/-- The store that serves the fleet of some settings. -/
def openStore (settings : Settings) : ExceptT Trouble m Store :=
  ExceptT.mk do
    return (← Store.open surroundings.read settings).mapError
      (.ofLoad s!"loading snapshot {settings.fleetPath}")

/-- The request at a path, or the one typed in. -/
def readRequest (path : String) : ExceptT Trouble m Request :=
  ExceptT.mk do
    let text ←
      if path = "-" then
        pure ((← surroundings.input).mapError fun fault => (⟨fault.message, []⟩ : Trouble))
      else
        pure ((← surroundings.read path).mapError fun fault =>
          (⟨s!"reading {path}", [fault.message]⟩ : Trouble))
    return text.bind fun text =>
      (Request.reader.ofText text).mapError fun fault =>
        ⟨"parsing simulation request", [fault.message]⟩

end Actions

/-- The printed forecast of a request.  Who asks for more talk is told the sum of all differences on
    the way, if there is one. -/
def simulate (color verbose : Bool) (store : Store) (context : Context) (format : Format)
    (request : Request) : Except Trouble Outcome :=
  match request.forecast.result (store.inventory context.scopes) (context.interruption {}) with
  | .error (.lookup _ .overflow) => .ok .stopped
  | .error failure =>
    let subject := s!"{request.typeName} {request.equipmentId}"
    .error ⟨s!"simulation of {subject} failed ({failure.kind.name}): {failure.message}", []⟩
  | .ok forecast =>
    if verbose && forecast.totalDelta.toOption.isNone then .ok .stopped
    else match format with
    | .json => .ok { code := 0, output := forecast.json.pretty ++ "\n" }
    | .table =>
      if forecast.rows.isEmpty then
        .ok { code := 0
              messages := Report.styled color .boldYellow "note" ++ " no products affected\n" }
      else .ok { code := 0, output := Report.table color forecast }

/-- The metrics of one family or of all families. -/
def metrics (color : Bool) (store : Store) (context : Context) (family : Option String) :
    Except Trouble Outcome :=
  let catalogs : Except Failure (List String) := do
    let families ←
      match family with
      | none => pure Family.all
      | some text => pure [← Family.ofRequest text]
    families.mapM fun family => do
      let metrics ← (Inquiry.metrics family).result (store.inventory context.scopes)
        (context.interruption {})
      return Report.catalog color family metrics
  match catalogs with
  | .error failure => .error ⟨failure.message, []⟩
  | .ok texts => .ok { code := 0, output := String.join texts }

/-- The types that a context may see, as a tree. -/
def types (color : Bool) (store : Store) (context : Context) : Except Trouble Outcome := do
  let types ← (store.inventory context.scopes .equipmentTypes).mapError fun fault =>
    ⟨s!"listing equipment types: {fault.message}", []⟩
  let forest ← (Forest.ofTypes types).mapError fun fault => ⟨fault.message, []⟩
  return { code := 0, output := Report.tree color forest }

/-- What a store that could be opened consists of. -/
def check (color : Bool) (store : Store) : Outcome :=
  let count := store.scopeNames.length
  let names := ", ".intercalate store.scopeNames
  { code := 0
    messages := Report.styled color .boldGreen "ok" ++
      s!" {store.settings.fleetPath} loaded, {count} scope(s): {names}\n" }

section Run

variable {m : Type → Type} [Monad m] (surroundings : Surroundings m)

/-- Does what a call asks for. -/
def Call.run (color : Bool) (call : Call) : ExceptT Trouble m Outcome := do
  let store ← openStore surroundings (← call.settings surroundings)
  let context : Context := { scopes := call.scopes }
  match call.action with
  | .simulate path timeout format =>
    let request ← readRequest surroundings path
    let context := { context with deadline := timeout.map Deadline.after }
    ExceptT.mk (pure (simulate color call.verbose store context format request))
  | .metrics family => ExceptT.mk (pure (metrics color store context family))
  | .types => ExceptT.mk (pure (types color store context))
  | .check => return check color store

/-- The name of the command and its version. -/
def versionLine : String := "fleetlic 0.3.0\n"

/-- Does what a command line asks for.  One that makes no sense ends with code 2, and trouble on
    the way with code 1.  A run that stops has a code of its own. -/
def run (color : Bool) (arguments : List String) : m Outcome := do
  match Demand.ofArguments arguments with
  | none => return { code := 2 }
  | some .version => return { code := 0, output := versionLine }
  | some (.help topic) => return { code := 0, output := topic.text }
  | some (.call call) =>
    match ← (call.run surroundings color).run with
    | .ok outcome => return outcome
    | .error trouble => return { code := 1, messages := trouble.text }

end Run

end LicenseForecast.Command
