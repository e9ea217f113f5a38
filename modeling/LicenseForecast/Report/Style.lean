namespace LicenseForecast.Report

/-!
# Styles — emphasis in reports

A styled text is wrapped into the control sequences of a terminal, or left alone where colours
are off.  A text that resets the terminal itself would lose its style there, so the style is taken
up again after each reset.
-/

/-- A way to emphasise a text. -/
inductive Style where
  | bold
  | dimmed
  | red
  | green
  | boldGreen
  | boldYellow
deriving DecidableEq, Repr, Inhabited

/-- The number of a style in a control sequence. -/
def Style.code : Style → String
  | .bold => "1"
  | .dimmed => "2"
  | .red => "31"
  | .green => "32"
  | .boldGreen => "1;32"
  | .boldYellow => "1;33"

/-- The sequence that a style starts with. -/
def Style.opening (style : Style) : String := "\x1b[" ++ style.code ++ "m"

/-- The sequence that ends all styles. -/
def reset : String := "\x1b[0m"

/-- The characters of a text with `opening` after each reset. -/
def reopened (opening : List Char) : List Char → List Char
  | [] => []
  | '\x1b' :: '[' :: '0' :: 'm' :: rest => reset.toList ++ opening ++ reopened opening rest
  | c :: rest => c :: reopened opening rest

/-- A text in a style, if colours are on. -/
def styled (color : Bool) (style : Style) (text : String) : String :=
  if color then
    style.opening ++ String.ofList (reopened style.opening.toList text.toList) ++ reset
  else text

@[simp] theorem styled_false (style : Style) (text : String) : styled false style text = text := rfl

example : styled true .bold "a\x1b[0mb" = "\x1b[1ma\x1b[0m\x1b[1mb\x1b[0m" := by decide +kernel

example : styled true .red "" = "\x1b[31m\x1b[0m" := by decide +kernel

end LicenseForecast.Report
