/-
  ParseBench.Proofs.Model.Load

  Loading a configuration from files. What a file holds is seen in the tree (`layerIn?`), and
  files that hold layers are read in order without any other effect than reports
  (`perform_readLayers`). So a load ends as its layers are put together (`load_result`), and
  these decide it field by field (`load_decides`).
-/

import Mathlib
import ParseBench.Json.Reading
import ParseBench.Model.Load
import ParseBench.Proofs.Model.Layers
import ParseBench.Proofs.Session
import ParseBench.Proofs.Text.Lines

namespace ParseBench

variable {σ : Type} {json : Json.Reader} {s : Session σ} {path : String}

namespace ModelConfig

/-! ## Layers in files -/

/-- The value that a file holds. -/
def layerIn? (json : Json.Reader) (t : FileTree) (path : String) : Option Json :=
  match t.read path with
  | .ok bytes => (String.fromUTF8? bytes).bind (Json.ofText? json)
  | .error _ => none

theorem keyed_of_layerIn? {t : FileTree} {layer : Json} (h : layerIn? json t path = some layer) :
    layer.Keyed := by
  unfold layerIn? at h
  split at h
  · obtain ⟨text, -, hlayer⟩ := Option.bind_eq_some_iff.1 h
    exact Json.keyed_of_ofText? hlayer
  · cases h

/-- The values that the files at some paths hold. -/
def layersIn (json : Json.Reader) (t : FileTree) (paths : List String) : List Json :=
  paths.filterMap (layerIn? json t)

theorem layersIn_cons (t : FileTree) (path : String) (rest : List String) :
    layersIn json t (path :: rest) = (layerIn? json t path).toList ++ layersIn json t rest := by
  rw [layersIn, List.filterMap_cons]
  cases layerIn? json t path <;> rfl

/-- Do all the files that are there hold layers? -/
def HoldLayers (json : Json.Reader) (t : FileTree) (paths : List String) : Prop :=
  ∀ path ∈ paths, t.isThere path = true → ∃ layer, layerIn? json t path = some layer ∧ IsLayer layer

theorem layerIn?_of_missing {t : FileTree} (h : t.isThere path = false) :
    layerIn? json t path = none := by
  have hread : ∃ r, t.read path = .error r := by
    unfold FileTree.isThere at h
    cases hfind : t.find path with
    | ok e =>
        rw [hfind] at h
        cases h
    | error r => exact ⟨r, by simp [FileTree.read, hfind, bind, Except.bind]⟩
  obtain ⟨r, hr⟩ := hread
  rw [layerIn?, hr]

theorem perform_readLayer_missing (h : s.files.isThere path = false) :
    ∃ events, (readLayer json path).perform s = (.ok none, { s with events }) := by
  unfold readLayer
  rw [Run.perform_bind_of_ok Run.perform_files, h]
  exact ⟨_, rfl⟩

theorem perform_readLayer {layer : Json} (hthere : s.files.isThere path = true)
    (h : layerIn? json s.files path = some layer) :
    (readLayer json path).perform s = (.ok (some layer), s) := by
  unfold layerIn? at h
  split at h
  · next bytes hread =>
      obtain ⟨text, htext, hlayer⟩ := Option.bind_eq_some_iff.1 h
      have hperform : (Run.within (.readingConfiguration path) (Run.readText path) :
          Run σ String).perform s = (.ok text, s) := by
        rw [Run.perform_within, Run.perform_readText hread htext]
        rfl
      unfold readLayer
      rw [Run.perform_bind_of_ok Run.perform_files, if_pos hthere,
        Run.perform_bind_of_ok hperform, hlayer]
      rfl
  · cases h

/-- Reading layers changes nothing but the reports. -/
theorem perform_readLayers {paths : List String} (h : HoldLayers json s.files paths) :
    ∃ events, (readLayers json paths).perform s =
      (.ok (layersIn json s.files paths), { s with events }) := by
  induction paths generalizing s with
  | nil => exact ⟨s.events, rfl⟩
  | cons path rest ih =>
      obtain ⟨hpath, hrest⟩ := List.forall_mem_cons.1 h
      have hlayer : ∃ events, (readLayer json path).perform s =
          (.ok (layerIn? json s.files path), { s with events }) := by
        cases hthere : s.files.isThere path with
        | false =>
            rw [layerIn?_of_missing hthere]
            exact perform_readLayer_missing hthere
        | true =>
            obtain ⟨layer, hlayer, -⟩ := hpath hthere
            rw [hlayer]
            exact ⟨s.events, perform_readLayer hthere hlayer⟩
      obtain ⟨events, hlayer⟩ := hlayer
      obtain ⟨events', hlater⟩ := ih (s := { s with events }) hrest
      refine ⟨events', ?_⟩
      unfold readLayers
      rw [Run.perform_bind_of_ok hlayer, Run.perform_bind_of_ok hlater, layersIn_cons]
      rfl

/-! ## Loading -/

/-- What a load answers when the layers have been read. -/
def loaded (layers : List Json) : Except Error ModelConfig :=
  match ofLayers? layers with
  | some c => .ok c
  | none => .error ⟨[.shapingConfiguration], .json⟩

theorem load_result {paths : List String} (h : HoldLayers json s.files paths) :
    ((load json paths).perform s).1 = loaded (layersIn json s.files paths) := by
  obtain ⟨events, hread⟩ := perform_readLayers h
  unfold load
  rw [Run.perform_bind_of_ok hread, loaded]
  cases ofLayers? (layersIn json s.files paths) <;>
    cases (layersIn json s.files paths).isEmpty <;> rfl

theorem isLayer_of_mem {t : FileTree} {paths : List String} (h : HoldLayers json t paths) :
    ∀ layer ∈ layersIn json t paths, layer.Keyed ∧ IsLayer layer := by
  intro layer hlayer
  obtain ⟨path, hpath, hin⟩ := List.mem_filterMap.1 hlayer
  have hthere : t.isThere path = true := by
    by_contra hnot
    rw [layerIn?_of_missing (Bool.eq_false_iff.2 hnot)] at hin
    cases hin
  obtain ⟨layer', hlayer', hsections⟩ := h path hpath hthere
  obtain rfl : layer = layer' := Option.some.inj (hin.symm.trans hlayer')
  exact ⟨keyed_of_layerIn? hin, hsections⟩

/-- The answer depends on the values that decide the known fields, and on nothing else. -/
theorem loaded_congr {layers layers' : List Json}
    (h : ∀ layer ∈ layers, layer.Keyed ∧ IsLayer layer)
    (h' : ∀ layer ∈ layers', layer.Keyed ∧ IsLayer layer)
    (hsame : ∀ f ∈ ConfigField.all, f.deciding? layers = f.deciding? layers') :
    loaded layers = loaded layers' := by
  have hlayers : ofLayers? layers = ofLayers? layers' := by
    refine Option.ext fun c => ?_
    rw [ofLayers?_eq_some_iff h, ofLayers?_eq_some_iff h']
    refine forall₂_congr fun f hf => ?_
    rw [ConfigField.decided?, ConfigField.decided?, hsame f hf]
  rw [loaded, loaded, hlayers]

theorem loaded_eq_ok_iff {layers : List Json} {c : ModelConfig} :
    loaded layers = .ok c ↔ ofLayers? layers = some c := by
  unfold loaded
  cases ofLayers? layers <;> simp

/-- The last layer that names a field decides it, and its default if none does. A load succeeds
    just when each of these values is of the type of its field, and then yields them: what a later
    layer overrides does not matter, and neither does anything that is no known field. A path
    where no file is changes nothing. -/
theorem load_decides {paths : List String} (h : HoldLayers json s.files paths) :
    ((∃ c, ((load json paths).perform s).1 = .ok c) ↔
      ∀ f ∈ ConfigField.all, ∀ v, f.deciding? (layersIn json s.files paths) = some v →
        f.type.accepts v = true) ∧
    (∀ c, ((load json paths).perform s).1 = .ok c ↔
      ∀ f ∈ ConfigField.all, f.decided? (layersIn json s.files paths) = some (f.get c)) ∧
    (∀ (s' : Session σ) (paths' : List String), HoldLayers json s'.files paths' →
      (∀ f ∈ ConfigField.all,
        f.deciding? (layersIn json s'.files paths') = f.deciding? (layersIn json s.files paths)) →
      ((load json paths').perform s').1 = ((load json paths).perform s).1) ∧
    ∀ front missing back, paths = front ++ back → s.files.isThere missing = false →
      ((load json (front ++ missing :: back)).perform s).1 = ((load json paths).perform s).1 := by
  have hlayers := isLayer_of_mem h
  rw [load_result h]
  refine ⟨?_, fun c => ?_, fun s' paths' h' hsame => ?_, ?_⟩
  · simp only [loaded_eq_ok_iff]
    exact exists_ofLayers?_iff hlayers
  · rw [loaded_eq_ok_iff]
    exact ofLayers?_eq_some_iff hlayers
  · rw [load_result h']
    exact loaded_congr (isLayer_of_mem h') hlayers hsame
  · rintro front missing back rfl hmissing
    have hmore : HoldLayers json s.files (front ++ missing :: back) := by
      obtain ⟨hfront, hback⟩ := List.forall_mem_append.1 h
      refine List.forall_mem_append.2 ⟨hfront, List.forall_mem_cons.2 ⟨fun hthere => ?_, hback⟩⟩
      rw [hmissing] at hthere
      cases hthere
    rw [load_result hmore, layersIn, List.filterMap_append,
      List.filterMap_cons_none (layerIn?_of_missing hmissing), ← List.filterMap_append, layersIn]

/-- A layer with a wrong type in one field. -/
def lowerText : String :=
  "\x7b\"model\":\x7b\"rnn_layers\":\"two\"\x7d,\"output\":\x7b\"beam_width\":5\x7d\x7d"

/-- A layer that overrides the field, with another field that nobody knows. -/
def upperText : String :=
  "\x7b\"model\":\x7b\"rnn_layers\":3,\"hidden_size\":null\x7d,\"seed\":[]\x7d"

/-- The files of the two layers. -/
def layeredFiles : FileTree :=
  (({} : FileTree).addFile ["default.json"] lowerText.toUTF8 false).addFile ["model.json"]
    upperText.toUTF8 false

def lowerLayer : Json :=
  .object [("model", .object [("rnn_layers", .string "two")]),
    ("output", .object [("beam_width", .number (.natural 5))])]

def upperLayer : Json :=
  .object [("model", .object [("rnn_layers", .number (.natural 3)), ("hidden_size", .null)]),
    ("seed", .array [])]

theorem layerIn?_of_text {t : FileTree} {text : String} {executable : Bool} {number : Nat}
    {layer : Json} (hfind : t.find path = .ok (.file ⟨text.toUTF8, executable, number⟩))
    (h : Json.ofText? json text = some layer) : layerIn? json t path = some layer := by
  have hread : t.read path = .ok text.toUTF8 := by
    rw [FileTree.read, hfind]
    rfl
  rw [layerIn?, hread]
  dsimp only
  rw [Text.fromUTF8?_toUTF8, Option.bind_some, h]

theorem layerIn?_lower :
    layerIn? Json.Tree.ofText? layeredFiles "default.json" = some lowerLayer := by
  have hfind : layeredFiles.find "default.json" = .ok (.file ⟨lowerText.toUTF8, false, 0⟩) := by
    decide +kernel
  exact layerIn?_of_text hfind (by cbv)

theorem layerIn?_upper :
    layerIn? Json.Tree.ofText? layeredFiles "model.json" = some upperLayer := by
  have hfind : layeredFiles.find "model.json" = .ok (.file ⟨upperText.toUTF8, false, 1⟩) := by
    decide +kernel
  exact layerIn?_of_text hfind (by cbv)

theorem holdLayers_layered :
    HoldLayers Json.Tree.ofText? layeredFiles ["default.json", "nowhere.json", "model.json"] := by
  have hnowhere : layeredFiles.isThere "nowhere.json" = false := by decide +kernel
  refine List.forall_mem_cons.2 ⟨fun _ => ⟨_, layerIn?_lower, isLayer_of_all rfl⟩, ?_⟩
  refine List.forall_mem_cons.2 ⟨fun hthere => ?_, ?_⟩
  · rw [hnowhere] at hthere
    cases hthere
  · exact List.forall_mem_singleton.2 fun _ => ⟨_, layerIn?_upper, isLayer_of_all rfl⟩

theorem load_decides_layered :
    HoldLayers Json.Tree.ofText? layeredFiles ["default.json", "nowhere.json", "model.json"] ∧ ∃ c,
      ((load Json.Tree.ofText? ["default.json", "nowhere.json", "model.json"] :
        Run Unit ModelConfig).perform (.start layeredFiles .empty ())).1 = .ok c ∧
      c.model.layers = 3 ∧ c.output.beamWidth = 5 ∧ c.model.modelType = "seq2seq" := by
  let s : Session Unit := .start layeredFiles .empty ()
  have hlayers : layersIn Json.Tree.ofText? layeredFiles
      ["default.json", "nowhere.json", "model.json"] = [lowerLayer, upperLayer] := by
    have hnowhere : layeredFiles.isThere "nowhere.json" = false := by decide +kernel
    simp only [layersIn_cons, layerIn?_lower, layerIn?_of_missing hnowhere, layerIn?_upper]
    rfl
  obtain ⟨hok, hvalues, -⟩ := load_decides (s := s) holdLayers_layered
  have haccepts : (ConfigField.all.all fun f =>
      (f.deciding? [lowerLayer, upperLayer]).all f.type.accepts) = true := by rfl
  obtain ⟨c, hc⟩ := hok.2 (by
    intro f hf v hv
    rw [show s.files = layeredFiles from rfl, hlayers] at hv
    simpa [hv] using List.all_eq_true.1 haccepts f hf)
  have hdecided := (hvalues c).1 hc
  rw [show s.files = layeredFiles from rfl, hlayers, ConfigField.forall_mem_all] at hdecided
  simp only [ModelSection.table, OutputSection.table, List.forall_mem_cons] at hdecided
  obtain ⟨⟨hmodelType, -, -, -, -, -, hlayers, -⟩, -, -, -, -, -, hbeamWidth, -⟩ := hdecided
  exact ⟨holdLayers_layered, c, hc, (Option.some.inj hlayers).symm,
    (Option.some.inj hbeamWidth).symm, (Option.some.inj hmodelType).symm⟩

end ModelConfig

end ParseBench
