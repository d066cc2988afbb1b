import SqlMapper.CommandLine.Request
import SqlMapper.Text

/-!
# Colors

Text in colors, by the escape sequences of terminals, and the decision whether to use them.

## Main definitions

* `Style`: the styles of text.
* `Style.paint`: text in a style.
* `usesColors`: whether colors are used.
-/

namespace SqlMapper.CommandLine

/-- The styles of text. -/
inductive Style where
  | bold
  | dimmed
  | red
  | green
  | yellow
  | cyan
  | boldGreen
  | boldYellow
  deriving Repr, DecidableEq

namespace Style

/-- The codes that switch a style on. -/
def codes : Style → String
  | bold => "1"
  | dimmed => "2"
  | red => "31"
  | green => "32"
  | yellow => "33"
  | cyan => "36"
  | boldGreen => "1;32"
  | boldYellow => "1;33"

/-- The sequence that switches a style on. -/
def opening (s : Style) : String :=
  "\x1b[" ++ s.codes ++ "m"

/-- The sequence that switches every style off. -/
def closing : String := "\x1b[0m"

/-- Text in a style, if colors are used. A sequence in the text that switches styles off is followed
by one that switches this style on again. -/
def paint (s : Style) (colors : Bool) (text : String) : String :=
  if colors then
    s.opening ++ Text.join (closing ++ s.opening) (Text.splitOn closing text) ++ closing
  else text

end Style

/-- What the surroundings of the program say about colors. -/
structure ColorSurroundings where
  /-- The variable that switches colors off by being set. -/
  noColor : Option String := none
  /-- The variable that switches colors off by being zero. -/
  clicolor : Option String := none
  /-- The variable that switches colors on by not being zero. -/
  clicolorForce : Option String := none
  /-- Whether the output goes to a terminal. -/
  terminal : Bool := false
  deriving Repr, DecidableEq

/-- Whether colors are used: the arguments decide first, then the variables, then the output. -/
def usesColors (flags : ColorFlags) (env : ColorSurroundings) : Bool :=
  if flags.on then true
  else if flags.off || env.noColor.isSome then false
  else if env.clicolorForce.any (· ≠ "0") then true
  else env.terminal && env.clicolor ≠ some "0"

end SqlMapper.CommandLine
