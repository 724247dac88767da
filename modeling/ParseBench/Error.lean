/-
  ParseBench.Error

  Why a run fails: a cause, and the contexts it passed through on its way out.
  The wording of the operating system, of the reader of JSON and of the
  compiler of file name patterns is not modelled; a mark stands in its place.
-/

import ParseBench.Grammar.Error

namespace ParseBench

/-! ## Causes -/

/-- The causes of failure. -/
inductive Cause where
  /-- Problem and model are not of one family. -/
  | familyMismatch (problem model : String) (problemIsLui modelIsLui : Bool)
  /-- Not exactly one test shard. -/
  | testShardCount (pattern : String) (found : Nat)
  /-- A program ended with an exit code other than zero. -/
  | externalFailure (program : String) (code : Int)
  /-- A fault of a grammar or of a program. -/
  | grammar (error : GrammarError)
  /-- The operating system refused, or text was not UTF-8. -/
  | system
  /-- Text that is not JSON, or JSON of the wrong shape. -/
  | json
  /-- A file name pattern that cannot be read. -/
  | glob
  /-- There is nothing to score. -/
  | noPredictions
  /-- More predictions than gold examples. -/
  | tooManyPredictions (predictions gold : Nat)
  /-- A dataset line with too few columns. -/
  | tooFewColumns
  /-- A result line with the wrong number of fields. -/
  | fieldCount (found : Nat)
  /-- A result line whose verdict is neither `True` nor `False`. -/
  | badVerdict (found : String)
  /-- A result line with a label that is neither form of the one expected. -/
  | badLabel (name found : String)
  /-- Any other cause, in words. -/
  | plain (message : String)
  deriving DecidableEq, Repr

/-- A truth value in a message. -/
def boolText (b : Bool) : String :=
  if b then "true" else "false"

/-- The wording of each cause. -/
def Cause.message : Cause → String
  | .familyMismatch problem model problemIsLui modelIsLui =>
    "problem '" ++ problem ++ "' (LUI family: " ++ boolText problemIsLui ++ ") and model '" ++
      model ++ "' (LUI family: " ++ boolText modelIsLui ++
      ") must both be LUI or both be stock"
  | .testShardCount pattern found =>
    "expected exactly one test shard matching '" ++ pattern ++ "', found " ++ toString found
  | .externalFailure program code =>
    "'" ++ program ++ "' failed with exit code " ++ toString code
  | .grammar error => error.message
  | .system => "<io>"
  | .json => "<json>"
  | .glob => "<glob>"
  | .noPredictions => "No predictions to score"
  | .tooManyPredictions predictions gold =>
    toString predictions ++ " predictions but only " ++ toString gold ++ " gold examples"
  | .tooFewColumns => "expected at least 3 tab-separated columns"
  | .fieldCount found => "expected 8 tab-separated fields, found " ++ toString found
  | .badVerdict found => "expected True or False, found '" ++ found ++ "'"
  | .badLabel name found =>
    "expected Correct" ++ name ++ " or Incorrect" ++ name ++ ", found '" ++ found ++ "'"
  | .plain message => message

/-! ## Contexts -/

/-- What a run was doing when it failed. -/
inductive Context where
  | readingGrammar (path : String)
  | decodingGrammar (path : String)
  | compilingGrammar (path : String)
  | decodingRules (lhs : String)
  | readingConfiguration (path : String)
  | decodingConfiguration (path : String)
  | shapingConfiguration
  | readingDataset (path : String)
  | datasetLine (path : String) (line : Nat)
  | readingPredictions (path : String)
  | readingPlan (path : String)
  | decodingPlan (path : String)
  | opening (path : String)
  | creating (path : String)
  | creatingResults (path : String)
  | writing (path : String)
  | compilingPattern (pattern : String)
  | listingData (path : String)
  | starting (program : String)
  | averaging (directory : String)
  | perturbLoop (index : Nat)
  | planStep (label : String)
  | resultLine (line : Nat)
  | note (text : String)
  deriving DecidableEq, Repr

/-- A name between single quotes. -/
private def named (name : String) : String :=
  "'" ++ name ++ "'"

/-- The wording of each context. -/
def Context.message : Context → String
  | readingGrammar path => "Cannot read grammar file " ++ named path
  | decodingGrammar path => "Invalid grammar file " ++ named path
  | compilingGrammar path => "Cannot compile grammar " ++ named path
  | decodingRules lhs => "Rules of " ++ lhs ++ " must be a list of symbol lists"
  | readingConfiguration path => "Cannot read configuration " ++ named path
  | decodingConfiguration path => "Invalid JSON in " ++ named path
  | shapingConfiguration => "Configuration has the wrong shape"
  | readingDataset path => "Cannot read dataset " ++ named path
  | datasetLine path line => path ++ ":" ++ toString line
  | readingPredictions path => "Cannot read predictions " ++ named path
  | readingPlan path => "Cannot read functional test config " ++ named path
  | decodingPlan path => "Invalid functional test config " ++ named path
  | opening path => "Cannot open " ++ named path
  | creating path => "Cannot create " ++ named path
  | creatingResults path => "Cannot create results directory " ++ named path
  | writing path => "Cannot write " ++ named path
  | compilingPattern pattern => "Invalid shard pattern " ++ named pattern
  | listingData path => "Cannot read data directory " ++ named path
  | starting program => "Failed to start " ++ named program
  | averaging directory => "Checkpoint averaging of " ++ named directory ++ " failed"
  | perturbLoop index => "Perturb-training loop " ++ toString index
  | planStep label => "Functional test step " ++ named label ++ " failed"
  | resultLine line => "Result line " ++ toString line
  | note text => text

/-! ## Errors -/

/-- A cause with the contexts around it, the outermost first. -/
structure Error where
  contexts : List Context
  cause : Cause
  deriving DecidableEq, Repr

namespace Error

/-- The error in one more context. -/
def within (c : Context) (e : Error) : Error :=
  { e with contexts := c :: e.contexts }

/-- The contexts and the cause in one line. -/
def message (e : Error) : String :=
  Text.join ": " (e.contexts.map Context.message ++ [e.cause.message])

/-- The exit code of the run: that of the program that failed, otherwise 1. -/
def exitCode (e : Error) : Int :=
  match e.cause with
  | .externalFailure _ code => code
  | _ => 1

end Error

instance : Coe Cause Error := ⟨fun cause => ⟨[], cause⟩⟩

instance : Coe GrammarError Error := ⟨fun error => ⟨[], .grammar error⟩⟩

/-- The status a process can end with: codes that do not fit a byte, and zero, which
    would read as success, become 1. -/
def exitStatus (code : Int) : Nat :=
  if 1 ≤ code ∧ code ≤ 255 then code.toNat else 1

/-- A result whose error is put into a context. -/
def inContext {α : Type} (c : Context) (result : Except Error α) : Except Error α :=
  result.mapError (Error.within c)

end ParseBench
