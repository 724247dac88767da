/-
  ParseBench.Model.Load

  Loading a model's configuration from layers of files. The files are laid over
  the defaults in order; one that is not there is passed over.
-/

import ParseBench.Json.Merge
import ParseBench.Json.Tree
import ParseBench.Model.Config
import ParseBench.Program.Grammar

namespace ParseBench.ModelConfig

variable {σ : Type} (json : Json.Reader)

/-- The configuration that layers over the defaults give. -/
def ofLayers? (layers : List Json) : Option ModelConfig :=
  ofJson? (Json.mergeAll (toJson {}) layers)

/-- The layer in a file, if the file is there. -/
def readLayer (path : String) : Run σ (Option Json) := do
  if (← Run.files).isThere path then
    let text ← Run.within (.readingConfiguration path) (Run.readText path)
    match Json.ofText? json text with
    | some layer => return some layer
    | none => Run.within (.decodingConfiguration path) (Run.fail .json)
  else
    Run.report .debug ("Skipping missing configuration '" ++ path ++ "'")
    return none

/-- The layers in files, in order. -/
def readLayers : List String → Run σ (List Json)
  | [] => return []
  | path :: rest => do
    let layer ← readLayer json path
    let later ← readLayers rest
    return layer.toList ++ later

/-- Loads a configuration. -/
def load (paths : List String) : Run σ ModelConfig := do
  let layers ← readLayers json paths
  if layers.isEmpty then Run.report .warn "No configuration file found, using defaults"
  match ofLayers? layers with
  | none => Run.within .shapingConfiguration (Run.fail .json)
  | some c =>
    Run.report .info c.summary
    return c

/-- The configuration files of a model's directory. -/
def directoryLayers (directory : String) : List String :=
  ["default.json", Path.join directory "model.json"]

/-- Loads the configured grammar. -/
def loadGrammar (c : ModelConfig) : Run σ ProgramGrammar := do
  match c.kind with
  | .error e => Run.fail (.grammar e)
  | .ok kind => ProgramGrammar.load json c.output.grammarFile kind

end ParseBench.ModelConfig
