import LicenseForecast.Decimal.Integer

namespace LicenseForecast.Command

/-!
# Arguments of the command

`Demand.ofArguments` reads the words of a command line: options, one verb, and options again.  The
options that say which fleet to serve and which scopes to see may stand on either side of the
verb; those after it count before those in front of it.

The first word that asks for help, or in front of the verb for the version, is answered, whatever
follows.  A value is looked at when the next option comes, or at the end of its side of the verb,
so that help may be asked for behind a value that makes no sense.
-/

/-- How a forecast is printed. -/
inductive Format where
  | table
  | json
deriving DecidableEq, Repr, Inhabited

/-- What the command is asked to do. -/
inductive Verb where
  | simulate
  | metrics
  | types
  | check
deriving DecidableEq, Repr, Inhabited

/-- The verb of the given name. -/
def Verb.named? : String → Option Verb
  | "simulate" => some .simulate
  | "metrics" => some .metrics
  | "types" => some .types
  | "check" => some .check
  | _ => none

/-- An option that takes a value. -/
inductive Setting where
  | config
  | fleet
  | scope
  | request
  | timeout
  | format
  | family
deriving DecidableEq, Repr, Inhabited

/-- The option of the given name. -/
def Setting.named? : String → Option Setting
  | "--config" => some .config
  | "--snapshot" => some .fleet
  | "--scope" => some .scope
  | "--request" => some .request
  | "--timeout-ms" => some .timeout
  | "--format" => some .format
  | "--family" => some .family
  | _ => none

/-- Whether an option may stand in front of the verb too. -/
def Setting.isGlobal : Setting → Bool
  | .config | .fleet | .scope => true
  | _ => false

/-- Whether an option may stand after a verb. -/
def Verb.accepts (verb : Verb) (setting : Setting) : Bool :=
  setting.isGlobal ||
    match verb, setting with
    | .simulate, .request | .simulate, .timeout | .simulate, .format => true
    | .metrics, .family => true
    | _, _ => false

/-! ### Values of options -/

/-- The options given on one side of the verb. -/
structure Options where
  config : Option String := none
  fleet : Option String := none
  scopes : List String := []
  request : Option String := none
  timeout : Option Nat := none
  format : Option Format := none
  family : Option String := none
  verbose : Bool := false
deriving DecidableEq, Repr, Inhabited

/-- A path, which cannot be empty. -/
def path? (text : String) : Option String := if text.isEmpty then none else some text

/-- A number of milliseconds that 64 bits can hold; a plus sign may stand in front. -/
def milliseconds? (text : String) : Option Nat :=
  let digits :=
    match text.toList with
    | '+' :: rest => rest
    | all => all
  if digits.isEmpty || !digits.all Char.isDigit then none
  else
    let n := digits.foldl (fun n c => 10 * n + (c.toNat - '0'.toNat)) 0
    if n ≤ Decimal.unsignedMax then some n else none

/-- The format of the given name. -/
def Format.named? : String → Option Format
  | "table" => some .table
  | "json" => some .json
  | _ => none

/-- The value of an option that can be given only once. -/
def once {α : Type} (earlier : Option α) (value : Option α) : Option (Option α) :=
  if earlier.isSome then none else value.map some

/-- The options with one more. -/
def Options.add (o : Options) (setting : Setting) (text : String) : Option Options :=
  match setting with
  | .config => return { o with config := ← once o.config (path? text) }
  | .fleet => return { o with fleet := ← once o.fleet (path? text) }
  | .scope => some { o with scopes := o.scopes ++ [text] }
  | .request => return { o with request := ← once o.request (path? text) }
  | .timeout => return { o with timeout := ← once o.timeout (milliseconds? text) }
  | .format => return { o with format := ← once o.format (Format.named? text) }
  | .family => return { o with family := ← once o.family (some text) }

/-! ### Words -/

/-- What a word can be where an option may stand. -/
inductive Word where
  | setting (setting : Setting) (attached : Option String)
  /-- A request for more talk. -/
  | verbose
  /-- A request for help. -/
  | help
  /-- A request for the version of the command. -/
  | version
  /-- The end of all options. -/
  | stop
  | plain
  | unknown
deriving DecidableEq, Repr, Inhabited

/-- A long option, with the value that an equals sign attaches to it. -/
def Word.long (text : List Char) : Word :=
  let name := String.ofList (text.takeWhile (· != '='))
  let attached :=
    match text.dropWhile (· != '=') with
    | [] => none
    | _ :: value => some (String.ofList value)
  match Setting.named? name with
  | some option => .setting option attached
  | none =>
    if attached.isSome then .unknown
    else if name = "--verbose" then .verbose
    else if name = "--help" then .help
    else if name = "--version" then .version
    else .unknown

/-- Short options, which may share one word. -/
def Word.short : List Char → Word
  | [] => .verbose
  | 'v' :: rest => short rest
  | 'h' :: _ => .help
  | 'V' :: _ => .version
  | _ => .unknown

/-- What a word is where an option may stand. -/
def Word.ofText (text : String) : Word :=
  match text.toList with
  | ['-', '-'] => .stop
  | '-' :: '-' :: rest => .long ('-' :: '-' :: rest)
  | '-' :: c :: rest => .short (c :: rest)
  | _ => .plain

/-- Whether a word can be the value of the option in front of it. -/
def isValue (text : String) : Bool := text == "-" || text.toList.head? != some '-'

/-- An option with a value that has not been looked at yet. -/
structure Pending where
  setting : Setting
  text : String
deriving DecidableEq, Repr, Inhabited

/-- The options with the one that is still to be looked at. -/
def Options.settle (o : Options) : Option Pending → Option Options
  | none => some o
  | some pending => o.add pending.setting pending.text

/-- What some options lead to. -/
inductive Lead where
  /-- The version is asked for. -/
  | version
  /-- Help is asked for. -/
  | help
  /-- The options, the last one, and the words from the first one that is no option. -/
  | options (given : Options) (last : Option Pending) (rest : List String)
deriving DecidableEq, Repr, Inhabited

/-- Whether an option may stand in front of the verb, or after the given one. -/
def isAllowed (verb : Option Verb) (setting : Setting) : Bool :=
  match verb with
  | none => setting.isGlobal
  | some verb => verb.accepts setting

/-- The options up to the first word that is none, and what they lead to. -/
def takeOptions (verb : Option Verb) (given : Options) (last : Option Pending) :
    List String → Option Lead
  | [] => some (.options given last [])
  | text :: rest =>
    match Word.ofText text with
    | .plain => some (.options given last (text :: rest))
    | .stop => if rest.isEmpty then some (.options given last []) else none
    | .unknown => none
    | .verbose => do takeOptions verb { ← given.settle last with verbose := true } none rest
    | .help => do
      discard <| given.settle last
      return .help
    | .version => do
      discard <| given.settle last
      if verb.isNone then return .version else none
    | .setting setting attached =>
      if isAllowed verb setting then
        match attached, rest with
        | some value, rest => do
          takeOptions verb (← (← given.settle last).add setting value) none rest
        | none, value :: rest => do
          let given ← given.settle last
          if isValue value then takeOptions verb given (some ⟨setting, value⟩) rest else none
        | none, [] => none
      else none

/-! ### Calls -/

/-- What the command is asked to do, with all that it takes. -/
inductive Action where
  /-- `request` is the path of a request, or `-` for one that is typed in. -/
  | simulate (request : String) (timeout : Option Nat) (format : Format)
  | metrics (family : Option String)
  | types
  | check
deriving DecidableEq, Repr, Inhabited

/-- A command line with a verb that makes sense. -/
structure Call where
  config : Option String
  fleet : Option String
  scopes : List String
  /-- Whether more is told on the way. -/
  verbose : Bool
  action : Action
deriving DecidableEq, Repr, Inhabited

/-- What a verb asks for with its options. -/
def Verb.action (verb : Verb) (o : Options) : Option Action :=
  match verb with
  | .simulate => return .simulate (← o.request) o.timeout (o.format.getD .table)
  | .metrics => some (.metrics o.family)
  | .types => some .types
  | .check => some .check

/-- The call of a verb with the options in front of it and those after it. -/
def Verb.call (verb : Verb) (outer inner : Options) : Option Call := do
  return {
    config := inner.config.or outer.config
    fleet := inner.fleet.or outer.fleet
    scopes := if inner.scopes.isEmpty then outer.scopes else inner.scopes
    verbose := outer.verbose || inner.verbose
    action := ← verb.action inner }

/-- What help is about. -/
inductive Topic where
  | command
  | verb (verb : Verb)
  /-- How to ask for help. -/
  | help
deriving DecidableEq, Repr, Inhabited

/-- What the words behind a plain `help` ask about.  Below a verb there is nothing to ask about. -/
def Topic.ofWords? : List String → Option Topic
  | [] => some .command
  | ["help"] => some .help
  | [name] => (Verb.named? name).map .verb
  | _ => none

/-- What is wanted of the command. -/
inductive Demand where
  | version
  | help (topic : Topic)
  | call (call : Call)
deriving DecidableEq, Repr, Inhabited

/-- What the words of a command line ask for, if they make sense. -/
def Demand.ofArguments (arguments : List String) : Option Demand := do
  match ← takeOptions none {} none arguments with
  | .version => return .version
  | .help => return .help .command
  | .options _ _ [] => none
  | .options _ _ ("help" :: words) => return .help (← Topic.ofWords? words)
  | .options outer outerLast (name :: rest) =>
    let verb ← Verb.named? name
    match ← takeOptions (some verb) {} none rest with
    | .help => return .help (.verb verb)
    | .options inner innerLast [] =>
      -- every value has to be sound, also one that another replaces
      return .call (← verb.call (← outer.settle outerLast) (← inner.settle innerLast))
    | _ => none

example : Demand.ofArguments ["--scope", "A", "simulate", "--request=-", "-v", "--timeout-ms", "+5"]
    = some (.call ⟨none, none, ["A"], true, .simulate "-" (some 5) .table⟩) := by decide +kernel

example : Demand.ofArguments ["check", "--scope", "-v"] = none := by decide +kernel

example : Demand.ofArguments ["--scope", "A", "-vV", "nonsense"] = some .version := by
  decide +kernel

example : Demand.ofArguments ["check", "--version"] = none := by decide +kernel

-- the empty path is not looked at before help is asked for
example : Demand.ofArguments ["--config", "", "check", "-vh", "nonsense"]
    = some (.help (.verb .check)) := by decide +kernel

example : Demand.ofArguments ["--config", "", "--help"] = none := by decide +kernel

end LicenseForecast.Command
