/-
  ParseBench.Proofs.Program.Classes

  The terminal that a program token stands for. `GrammarFile.StandsFor` says it in
  terms of the names of the classes; `classify_eq_iff` shows that looking the token up
  answers it. The look-up takes the first class in the order of the list, and a file
  that was read has its classes in the order of their names (`tabular_of_ofText?`).
-/

import ParseBench.Program.Grammar
import ParseBench.Proofs.Json.Fields
import ParseBench.Proofs.Ordered
import ParseBench.Proofs.Text.Split

namespace ParseBench

open Grammar

/-! ## Files that were read -/

namespace GrammarFile

variable {f : GrammarFile}

/-- The tables of a file are tables: each left-hand side stands once, and the names of the
    classes ascend. -/
structure Tabular (f : GrammarFile) : Prop where
  nodup_rules : (f.rules.map Prod.fst).Nodup
  pairwise_tokenClasses : (f.tokenClasses.map Prod.fst).Pairwise (· < ·)
  pairwise_leadClasses : (f.leadClasses.map Prod.fst).Pairwise (· < ·)

theorem pairwise_classes? {α : Type} {read : Json → Option α} {t : Json.Tree}
    {classes : List (String × α)} (h : classes? read t = some classes) :
    (classes.map Prod.fst).Pairwise (· < ·) := by
  cases t with
  | object members =>
      simp only [classes?, Option.bind_eq_bind, Option.bind_eq_some_iff, Option.pure_def,
        Option.some.injEq] at h
      obtain ⟨_, -, values, -, rfl⟩ := h
      exact Ordered.pairwise_keys_table values
  | _ => cases h

theorem nodup_rules? {t : Json.Tree} {rules : List (String × Json)} (h : rules? t = some rules) :
    (rules.map Prod.fst).Nodup := by
  cases t with
  | object members =>
      obtain ⟨bindings, -, rfl⟩ := Option.map_eq_some_iff.1 h
      exact Json.nodup_keys_fieldsOf bindings
  | _ => cases h

theorem tabular_of_ofText? {json : Json.Reader} {s : String} (h : ofText? json s = some f) :
    f.Tabular := by
  simp only [ofText?, Option.bind_eq_bind, Option.bind_eq_some_iff, Option.pure_def] at h
  obtain ⟨_, -, record, -, _, -, _, -, start, -, _, -, rules, hrules, h⟩ := h
  have hrules := nodup_rules? hrules
  -- a table of classes that is not in the file is empty
  split at h
  · simp only [Option.bind_eq_some_iff] at h
    obtain ⟨tokens, htokens, h⟩ := h
    have htokens := pairwise_classes? htokens
    split at h
    · simp only [Option.bind_eq_some_iff, Option.some.injEq] at h
      obtain ⟨leads, hleads, rfl⟩ := h
      exact ⟨hrules, htokens, pairwise_classes? hleads⟩
    · cases h
      exact ⟨hrules, htokens, .nil⟩
  · simp only [Option.bind_some] at h
    split at h
    · simp only [Option.bind_eq_some_iff, Option.some.injEq] at h
      obtain ⟨leads, hleads, rfl⟩ := h
      exact ⟨hrules, .nil, pairwise_classes? hleads⟩
    · cases h
      exact ⟨hrules, .nil, .nil⟩

/-! ## What a token stands for -/

/-- Some class lists the token. -/
def Lists (f : GrammarFile) (token : String) : Prop :=
  ∃ c ∈ f.tokenClasses, token ∈ c.2

/-- The tokens of some class begin like the token. -/
def Leads (f : GrammarFile) (token : String) : Prop :=
  ∃ c ∈ f.leadClasses, c.2.toList <+: token.toList

/-- The terminal that a token stands for: of the classes that list it the one with the least
    name; if there is none, of the classes whose tokens begin like it the one with the least
    name; else the token itself. -/
inductive StandsFor (f : GrammarFile) (token : String) : Symbol → Prop
  | listed {name : Symbol} {tokens : List String} (h : (name, tokens) ∈ f.tokenClasses)
      (hmem : token ∈ tokens) (hleast : ∀ c ∈ f.tokenClasses, c.1 < name → token ∉ c.2) :
      StandsFor f token name
  | led {name : Symbol} {lead : String} (hnot : ¬ f.Lists token)
      (h : (name, lead) ∈ f.leadClasses) (hlead : lead.toList <+: token.toList)
      (hleast : ∀ c ∈ f.leadClasses, c.1 < name → ¬ c.2.toList <+: token.toList) :
      StandsFor f token name
  | itself (hnot : ¬ f.Lists token) (hnot' : ¬ f.Leads token) : StandsFor f token token

end GrammarFile

namespace ProgramGrammar

variable {f : GrammarFile} {kind : Kind} {g : ProgramGrammar}

/-- How the grammar of a file came about: its rules were read and compiled, and the classes are
    those of the file. -/
theorem ofFile_ok_iff :
    (ofFile f kind).1 = .ok g ↔ ∃ rules c, f.ruleSet = .ok rules ∧
      (compile rules f.start).1 = .ok c ∧ g = ⟨c.parser, kind, f.tokenClasses, f.leadClasses⟩ := by
  unfold ofFile
  split
  · next e hrules => simp [hrules]
  · next rules hrules =>
      split
      · next e notices hc => simp [hrules, hc]
      · next c notices hc => simp [hrules, hc, eq_comm]

section Lookup

variable {token : String} {s : Symbol}

theorem find?_tokenClasses_eq_none (hclasses : g.tokenClasses = f.tokenClasses) :
    (g.tokenClasses.find? fun c => token ∈ c.2) = none ↔ ¬ f.Lists token := by
  rw [hclasses, List.find?_eq_none]
  simp [GrammarFile.Lists]

theorem find?_leadClasses_eq_none (hclasses : g.leadClasses = f.leadClasses) :
    (g.leadClasses.find? fun c => Text.startsWith token c.2) = none ↔ ¬ f.Leads token := by
  rw [hclasses, List.find?_eq_none]
  simp [GrammarFile.Leads, Text.startsWith_iff]

theorem find?_tokenClasses_eq_some (hf : f.Tabular) (hclasses : g.tokenClasses = f.tokenClasses)
    {b : Symbol × List String} :
    (g.tokenClasses.find? fun c => token ∈ c.2) = some b ↔
      b ∈ f.tokenClasses ∧ token ∈ b.2 ∧ ∀ c ∈ f.tokenClasses, c.1 < b.1 → token ∉ c.2 := by
  rw [hclasses, Ordered.find?_eq_some_iff_least hf.pairwise_tokenClasses]
  simp only [decide_eq_true_eq, decide_eq_false_iff_not]

theorem find?_leadClasses_eq_some (hf : f.Tabular) (hclasses : g.leadClasses = f.leadClasses)
    {b : Symbol × String} :
    (g.leadClasses.find? fun c => Text.startsWith token c.2) = some b ↔
      b ∈ f.leadClasses ∧ b.2.toList <+: token.toList ∧
        ∀ c ∈ f.leadClasses, c.1 < b.1 → ¬ c.2.toList <+: token.toList := by
  rw [hclasses, Ordered.find?_eq_some_iff_least hf.pairwise_leadClasses]
  simp only [← Text.startsWith_iff, Bool.not_eq_true]

/-- Looking a token up answers what it stands for. -/
theorem classify_eq_iff (hf : f.Tabular) (hg : (ofFile f kind).1 = .ok g) :
    g.classify token = s ↔ f.StandsFor token s := by
  obtain ⟨_, c, -, -, hg⟩ := ofFile_ok_iff.1 hg
  have htokens : g.tokenClasses = f.tokenClasses := by rw [hg]
  have hleads : g.leadClasses = f.leadClasses := by rw [hg]
  unfold classify
  constructor
  · split
    · next b hfind =>
        obtain ⟨hb, hmem, hleast⟩ := (find?_tokenClasses_eq_some hf htokens).1 hfind
        rintro rfl
        exact .listed hb hmem hleast
    · next hnone =>
        have hnot := (find?_tokenClasses_eq_none htokens).1 hnone
        split
        · next b hfind =>
            obtain ⟨hb, hlead, hleast⟩ := (find?_leadClasses_eq_some hf hleads).1 hfind
            rintro rfl
            exact .led hnot hb hlead hleast
        · next hnone' =>
            rintro rfl
            exact .itself hnot ((find?_leadClasses_eq_none hleads).1 hnone')
  · intro h
    cases h with
    | listed hb hmem hleast =>
        rw [(find?_tokenClasses_eq_some hf htokens).2 ⟨hb, hmem, hleast⟩]
    | led hnot hb hlead hleast =>
        rw [(find?_tokenClasses_eq_none htokens).2 hnot,
          (find?_leadClasses_eq_some hf hleads).2 ⟨hb, hlead, hleast⟩]
    | itself hnot hnot' =>
        rw [(find?_tokenClasses_eq_none htokens).2 hnot,
          (find?_leadClasses_eq_none hleads).2 hnot']

end Lookup

end ProgramGrammar

end ParseBench
