import LicenseForecast.Command.Arguments

namespace LicenseForecast.Command

/-!
# Help

What the command prints about itself: what a verb is for, how it is called, and its options with a
line for each.  The lines of one part stand in two columns.
-/

/-- A line of help: what is to be typed, and what that does. -/
structure HelpLine where
  usage : String
  purpose : String

/-- Some lines under a title, in two columns. -/
def helpPart (title : String) (lines : List HelpLine) : String :=
  let width := lines.foldl (fun width line => max width line.usage.length) 0
  let text (line : HelpLine) : String :=
    "  " ++ line.usage ++ String.ofList (List.replicate (width - line.usage.length) ' ') ++ "  "
      ++ line.purpose ++ "\n"
  "\n" ++ title ++ ":\n" ++ String.join (lines.map text)

/-- What a verb does. -/
def Verb.purpose : Verb → String
  | .simulate => "Simulate an attribute change on one equipment instance"
  | .metrics => "List metric definitions"
  | .types => "Print the equipment type forest"
  | .check => "Load the snapshot and report what it contains"

/-- The name of a verb. -/
def Verb.name : Verb → String
  | .simulate => "simulate"
  | .metrics => "metrics"
  | .types => "types"
  | .check => "check"

/-- All verbs, as they are listed. -/
def Verb.all : List Verb := [.simulate, .metrics, .types, .check]

/-- A verb is found by its name. -/
theorem Verb.named?_name (verb : Verb) : Verb.named? verb.name = some verb := by
  cases verb <;> rfl

/-- The line of an option with a value. -/
def Setting.helpLine : Setting → HelpLine
  | .config => ⟨"    --config <CONFIG>", "Store configuration (JSON)"⟩
  | .fleet => ⟨"    --snapshot <SNAPSHOT>", "Fleet snapshot; overrides the configured path"⟩
  | .scope => ⟨"    --scope <SCOPES>",
      "Scope to query (repeatable); defaults to the configured scopes"⟩
  | .request => ⟨"    --request <REQUEST>", "Simulation request (JSON), or `-` for stdin"⟩
  | .timeout => ⟨"    --timeout-ms <TIMEOUT_MS>",
      "Abort when the computation runs longer than this"⟩
  | .format => ⟨"    --format <FORMAT>", "[default: table] [possible values: json, table]"⟩
  | .family => ⟨"    --family <FAMILY>", "Only this family (tag or OPS/NUP/IPS/SPS)"⟩

/-- The options with a value that may be given in front of the verb or after it, as they are
    listed: those of a verb stand among the others, by their places in both lists. -/
def settingsOf : Option Verb → List Setting
  | some .simulate => [.config, .request, .fleet, .timeout, .format, .scope]
  | some .metrics => [.config, .family, .fleet, .scope]
  | _ => [.config, .fleet, .scope]

/-- **The options listed are those that may be given.** -/
theorem mem_settingsOf_iff {verb : Option Verb} {setting : Setting} :
    setting ∈ settingsOf verb ↔ isAllowed verb setting = true := by
  cases verb with
  | none => cases setting <;> decide
  | some verb => cases verb <;> cases setting <;> decide

/-- The options that may be given in front of the verb or after it. -/
def optionLines (verb : Option Verb) : List HelpLine :=
  (settingsOf verb).map Setting.helpLine
    ++ [⟨"-v, --verbose...", "More log output (-v debug, -vv trace)"⟩, ⟨"-h, --help", "Print help"⟩]
    ++ if verb.isNone then [⟨"-V, --version", "Print version"⟩] else []

/-- What the command prints about a topic. -/
def Topic.text : Topic → String
  | .command =>
    "Fleetlic: software license what-if simulation\n\nUsage: fleetlic [OPTIONS] <COMMAND>\n"
      ++ helpPart "Commands"
        (Verb.all.map (fun verb => ⟨verb.name, verb.purpose⟩)
          ++ [⟨"help", "Print this message or the help of the given subcommand(s)"⟩])
      ++ helpPart "Options" (optionLines none)
  | .verb v =>
    let needed := if v = .simulate then " --request <REQUEST>" else ""
    v.purpose ++ "\n\nUsage: fleetlic " ++ v.name ++ " [OPTIONS]" ++ needed ++ "\n"
      ++ helpPart "Options" (optionLines (some v))
  | .help =>
    "Print this message or the help of the given subcommand(s)\n\n"
      ++ "Usage: fleetlic help [COMMAND]...\n"
      ++ helpPart "Arguments" [⟨"[COMMAND]...", "Print help for the subcommand(s)"⟩]

end LicenseForecast.Command
