/-
  ParseBench.Program.Token

  Programs as lists of tokens, and the tokens that carry meaning for scoring:
  devices (`@@dev`), functions (`@dev.name`), parameters (`param:name`) and the
  keywords that shape a program.
-/

import ParseBench.Text.Split

namespace ParseBench

/-- A program is the list of its tokens. -/
abbrev Program := List String

namespace Program

/-- The tokens of a text: its words. -/
def ofText (s : String) : Program :=
  Text.words s

/-- The tokens with blanks between them. -/
def text (p : Program) : String :=
  Text.join " " p

/-- Does the token name a device? -/
def isDevice (token : String) : Bool :=
  Text.startsWith token "@@"

/-- Does the token name a function? -/
def isFunction (token : String) : Bool :=
  Text.startsWith token "@" && !isDevice token

/-- Does the token name a parameter? -/
def isParameter (token : String) : Bool :=
  Text.startsWith token "param:"

/-- The keywords that shape a program besides its functions. -/
def shapeKeywords : List String := ["now", "monitor", "timer", "attimer", "notify"]

/-- The device tokens of a program, in order. -/
def devices (p : Program) : List String :=
  p.filter isDevice

/-- The function tokens of a program, in order. -/
def functions (p : Program) : List String :=
  p.filter isFunction

/-- The function tokens and shape keywords of a program, in order. -/
def signature (p : Program) : List String :=
  p.filter fun token => isFunction token || token ∈ shapeKeywords

/-- The device token of a function token: what precedes the last dot of its name. -/
def deviceOf? (token : String) : Option String :=
  match token.toList with
  | '@' :: '@' :: _ => none
  | '@' :: name => (Text.beforeLast? '.' name).map fun device => String.ofList ('@' :: '@' :: device)
  | _ => none

/-- The program with the device token in front of every function token that has one. -/
def splitDevices (p : Program) : Program :=
  p.flatMap fun token => (deviceOf? token).toList ++ [token]

end Program

end ParseBench
