/-
  ParseBench.Proofs.Program.Directions

  The two directions of an encoding. A grammar file compiles to the same tables for both
  (`ofFile_of_compile`), and a program that is not encoded in one direction is not encoded
  in the other either, with the same error. Otherwise both list one parse tree
  (`encode_turn`), so the two encodings have the same rules, each as often
  (`listing_perm`). What only counts rules is therefore the same for both: the table of
  statistics (`tabulate_congr`), which shows how many there are, and, unless an encoding
  is cut, the uses of each rule (`tally_turn`).
-/

import ParseBench.Proofs.Program.Acceptance
import ParseBench.Score.RuleCount
import ParseBench.Stats.Tabulate

namespace ParseBench

open Grammar

/-! ## One parse tree -/

namespace ProgramGrammar

variable {f : GrammarFile} {rules : RuleSet} {g : ProgramGrammar} {p : Program}

/-- The grammar with its encodings in a direction. -/
def turn (g : ProgramGrammar) (direction : Direction) : ProgramGrammar :=
  { g with kind := { g.kind with direction } }

/-- A file that compiles does so for every kind, and to the same tables. -/
theorem ofFile_of_compile {c : Compiled} (hrules : f.ruleSet = .ok rules)
    (hc : (compile rules f.start).1 = .ok c) (kind : Kind) :
    (ofFile f kind).1 = .ok ⟨c.parser, kind, f.tokenClasses, f.leadClasses⟩ :=
  ofFile_ok_iff.2 ⟨rules, c, hrules, hc, rfl⟩

/-- The direction has no part in reading the tokens. -/
theorem tokenize_turn (g : ProgramGrammar) (direction : Direction) (p : Program) :
    (g.turn direction).tokenize p = g.tokenize p := rfl

/-- Both directions refuse a program with the same error, or they list one parse tree of it. -/
theorem encode_turn (hparser : g.parser.Lawful) (hstart : isNonterminal g.parser.start = true)
    (p : Program) :
    (∃ e, ∀ direction, (g.turn direction).encode p = .error e) ∨
      ∃ tokens t, g.tokenize p = .ok tokens ∧ g.parser.parse tokens = .ok t.postorder ∧
        ∀ direction, (g.turn direction).encode p = .ok (direction.listing t) := by
  cases htokens : g.tokenize p with
  | error e => exact .inl ⟨e, fun _ => encode_of_tokenize_error htokens⟩
  | ok tokens =>
      cases hparse : g.parser.parse tokens with
      | error e =>
          exact .inl ⟨e, fun direction =>
            encode_of_parse_error (g := g.turn direction) htokens hparse⟩
      | ok steps =>
          obtain ⟨t, ht, -, rfl⟩ := Parser.exists_tree_untilEnd hparser hparse
          refine .inr ⟨tokens, t, rfl, hparse, fun direction => ?_⟩
          unfold encode
          rw [tokenize_turn, htokens]
          cases direction with
          | bottomUp => simp [turn, bind, Except.bind, hparse, Except.map, Direction.listing]
          | topDown => exact Parser.parseDown_of_parse hstart (ht.fits hparser) hparse

/-- The rules of a tree are the same in both directions, each as often. -/
theorem listing_perm (direction direction' : Direction) (t : ParseTree) :
    (direction.listing t).Perm (direction'.listing t) := by
  have hreductions : ∀ direction : Direction, (direction.listing t).Perm (reductions t.postorder)
    | .bottomUp => .refl _
    | .topDown => t.preorder_perm
  exact (hreductions direction).trans (hreductions direction').symm

theorem vectorize_of_encode_error {e : GrammarError} (h : g.encode p = .error e) (maxLength : Nat) :
    g.vectorize p maxLength = .error e :=
  vectorize_eq_error_iff.2 h

theorem vectorize_of_encode {all : List Nat} (h : g.encode p = .ok all) (maxLength : Nat) :
    g.vectorize p maxLength = .ok (all.take maxLength) :=
  vectorize_eq_ok_iff.2 ⟨all, h, rfl⟩

/-- The bound on the length has no part in an error, and cuts the list of one parse tree. -/
theorem vectorize_turn (hparser : g.parser.Lawful) (hstart : isNonterminal g.parser.start = true)
    (p : Program) :
    (∃ e, ∀ direction maxLength, (g.turn direction).vectorize p maxLength = .error e) ∨
      ∃ tokens t, g.tokenize p = .ok tokens ∧ g.parser.parse tokens = .ok t.postorder ∧
        ∀ direction maxLength,
          (g.turn direction).vectorize p maxLength =
            .ok ((direction.listing t).take maxLength) := by
  rcases encode_turn hparser hstart p with ⟨e, he⟩ | ⟨tokens, t, htokens, hparse, hencode⟩
  · exact .inl ⟨e, fun direction => vectorize_of_encode_error (he direction)⟩
  · exact .inr ⟨tokens, t, htokens, hparse,
      fun direction => vectorize_of_encode (hencode direction)⟩

/-! ## Counts of rules -/

theorem length_vectorize_turn (hparser : g.parser.Lawful)
    (hstart : isNonterminal g.parser.start = true) (direction direction' : Direction) (p : Program)
    (maxLength : Nat) :
    ((g.turn direction).vectorize p maxLength).map List.length =
      ((g.turn direction').vectorize p maxLength).map List.length := by
  rcases vectorize_turn hparser hstart p with ⟨e, he⟩ | ⟨_, t, -, -, hvectorize⟩
  · rw [he, he]
  · rw [hvectorize, hvectorize, Except.map, Except.map, List.length_take, List.length_take,
      (listing_perm direction direction' t).length_eq]

end ProgramGrammar

namespace Stats

theorem cases_of_map_eq {ε α β : Type} {f : α → β} {x y : Except ε α} (h : x.map f = y.map f) :
    (∃ e, x = .error e ∧ y = .error e) ∨ ∃ a b, x = .ok a ∧ y = .ok b ∧ f a = f b := by
  cases x with
  | error e =>
      cases y with
      | error e' =>
          cases h
          exact .inl ⟨e, rfl, rfl⟩
      | ok b => cases h
  | ok a =>
      cases y with
      | error e' => cases h
      | ok b => exact .inr ⟨a, b, rfl, rfl, Except.ok.inj h⟩

/-- A row depends on the grammar only through the number of productions. -/
theorem row_congr {s s' : Setting} (hdevice : s.device = s'.device)
    (hlength : ∀ p, (s.grammar.vectorize p maxProductions).map List.length =
      (s'.grammar.vectorize p maxProductions).map List.length) (line : String) :
    s.row line = s'.row line := by
  unfold Setting.row Setting.lead
  cases ResultLine.read line with
  | error e => rfl
  | ok result =>
      simp only [bind, Except.bind, hdevice]
      rcases cases_of_map_eq (hlength (Text.splitOn ' ' result.gold)) with
        ⟨e, hs, hs'⟩ | ⟨ids, ids', hs, hs', hcount⟩
      · rw [hs, hs']
      · rw [hs, hs']
        simp only [hcount]

theorem tabulateFrom_congr {s s' : Setting} (hrow : ∀ line, s.row line = s'.row line)
    (number rows : Nat) (written : String) (lines : List (Option String)) :
    s.tabulateFrom number rows written lines = s'.tabulateFrom number rows written lines := by
  induction lines generalizing number rows written with
  | nil => rfl
  | cons line lines ih =>
      cases line with
      | none => rfl
      | some line =>
          rw [Setting.tabulateFrom, Setting.tabulateFrom, hrow]
          simp only [ih]

theorem tabulate_congr {s s' : Setting} (hrow : ∀ line, s.row line = s'.row line)
    (lines : List (Option String)) : s.tabulate lines = s'.tabulate lines :=
  tabulateFrom_congr hrow 1 0 StatsRow.header lines

end Stats

namespace RuleCount

variable {g : ProgramGrammar}

/-- Where no encoding is cut, each rule is used as often in both directions. -/
theorem uses_turn (hparser : g.parser.Lawful) (hstart : isNonterminal g.parser.start = true)
    (direction direction' : Direction) {examples : List Example} {maxLength : Nat}
    (hlong : ∀ e ∈ examples, ∀ all, (g.turn direction).encode e.program = .ok all →
      all.length ≤ maxLength) :
    (uses (g.turn direction) examples maxLength).Perm
      (uses (g.turn direction') examples maxLength) := by
  refine List.Perm.flatMap_left _ fun e he => ?_
  rcases ProgramGrammar.encode_turn hparser hstart e.program with
    ⟨error, herror⟩ | ⟨_, t, -, -, hencode⟩
  · simp only [ProgramGrammar.vectorize, herror, Except.map]
    exact .refl _
  · have hperm := ProgramGrammar.listing_perm direction direction' t
    have hle := hlong e he _ (hencode direction)
    simp only [ProgramGrammar.vectorize, hencode, Except.map]
    rw [List.take_of_length_le hle, List.take_of_length_le (hperm.length_eq ▸ hle)]
    exact hperm

theorem tally_turn (hparser : g.parser.Lawful) (hstart : isNonterminal g.parser.start = true)
    (direction direction' : Direction) {examples : List Example} {maxLength : Nat}
    (hlong : ∀ e ∈ examples, ∀ all, (g.turn direction).encode e.program = .ok all →
      all.length ≤ maxLength) :
    tally (g.turn direction) examples maxLength = tally (g.turn direction') examples maxLength := by
  have hperm := uses_turn hparser hstart direction direction' hlong
  refine List.map_congr_left fun rule _ => ?_
  rw [hperm.count_eq]
  rfl

end RuleCount

namespace ProgramGrammar

variable {f : GrammarFile} {rules : RuleSet}

/-- A file that compiles has an encoding in each direction. Programs are refused by both with the
    same error, whatever the bound on the length; otherwise both list all reductions of the
    parser, and a bound cuts the lists without changing them. So the table of statistics is the
    same for both, and so are the uses of the rules when no list is cut. -/
theorem directions_agree {json : Json.Reader} {text : String}
    (htext : GrammarFile.ofText? json text = some f) (hrules : f.ruleSet = .ok rules)
    (hf : f.WellFormed rules) {c : Compiled} (hc : (compile rules f.start).1 = .ok c)
    (splitDevice : Bool) :
    ∃ up down, (ofFile f ⟨.bottomUp, splitDevice⟩).1 = .ok up ∧
      (ofFile f ⟨.topDown, splitDevice⟩).1 = .ok down ∧
      (∀ p, (∃ e, ∀ maxLength, up.vectorize p maxLength = .error e ∧
          down.vectorize p maxLength = .error e) ∨
        ∃ tokens steps listing, up.tokenize p = .ok tokens ∧ up.parser.parse tokens = .ok steps ∧
          listing.Perm (reductions steps) ∧ listing.length = (reductions steps).length ∧
          ∀ maxLength, up.vectorize p maxLength = .ok ((reductions steps).take maxLength) ∧
            down.vectorize p maxLength = .ok (listing.take maxLength) ∧
            ((reductions steps).length ≤ maxLength →
              up.vectorize p maxLength = .ok (reductions steps) ∧
                down.vectorize p maxLength = .ok listing)) ∧
      (∀ device line, (⟨up, device⟩ : Stats.Setting).row line =
        (⟨down, device⟩ : Stats.Setting).row line) ∧
      (∀ device lines, (⟨up, device⟩ : Stats.Setting).tabulate lines =
        (⟨down, device⟩ : Stats.Setting).tabulate lines) ∧
      ∀ examples maxLength,
        (∀ e ∈ examples, ∀ all, up.encode e.program = .ok all → all.length ≤ maxLength) →
        RuleCount.tally up examples maxLength = RuleCount.tally down examples maxLength := by
  have hup := ofFile_of_compile hrules hc ⟨.bottomUp, splitDevice⟩
  have hdown := ofFile_of_compile hrules hc ⟨.topDown, splitDevice⟩
  obtain ⟨hparser, hstart, -⟩ :=
    parser_of_ofFile (GrammarFile.tabular_of_ofText? htext) hrules hf hup
  have hnt := hf.start_nonterminal
  rw [← hstart] at hnt
  refine ⟨_, _, hup, hdown, ?vectors, ?row, ?table, ?counts⟩
  case vectors =>
    intro p
    rcases vectorize_turn hparser hnt p with ⟨e, he⟩ | ⟨tokens, t, htokens, hparse, hvectorize⟩
    · exact .inl ⟨e, fun maxLength => ⟨he .bottomUp maxLength, he .topDown maxLength⟩⟩
    · have hlength := t.preorder_perm.length_eq
      refine .inr ⟨tokens, t.postorder, t.preorder, htokens, hparse, t.preorder_perm, hlength,
        fun maxLength => ⟨hvectorize .bottomUp maxLength, hvectorize .topDown maxLength,
          fun hle => ⟨?_, ?_⟩⟩⟩
      · rw [← List.take_of_length_le hle]
        exact hvectorize .bottomUp maxLength
      · rw [← List.take_of_length_le (hlength.trans_le hle)]
        exact hvectorize .topDown maxLength
  case row =>
    intro device
    exact Stats.row_congr rfl fun p => length_vectorize_turn hparser hnt .bottomUp .topDown p _
  case table =>
    intro device
    exact Stats.tabulate_congr <|
      Stats.row_congr rfl fun p => length_vectorize_turn hparser hnt .bottomUp .topDown p _
  case counts =>
    intro examples maxLength hlong
    exact RuleCount.tally_turn hparser hnt .bottomUp .topDown hlong

/-- A grammar file whose trees are listed differently in the two directions. -/
def nestedText : String :=
  "\x7b\"start\":\"$Call\",\"rules\":\x7b\"$Call\":[[\"$Dev\",\"$Fn\"]],\"$Dev\":[[\"DEV\"]]," ++
    "\"$Fn\":[[\"FN\"]]\x7d,\"prefix_classes\":\x7b\"DEV\":\"@@\",\"FN\":\"@\"\x7d\x7d"

def nestedFile : GrammarFile where
  start := "$Call"
  rules :=
    [("$Call", .array [.array [.string "$Dev", .string "$Fn"]]),
      ("$Dev", .array [.array [.string "DEV"]]), ("$Fn", .array [.array [.string "FN"]])]
  tokenClasses := []
  leadClasses := [("DEV", "@@"), ("FN", "@")]

theorem ofText?_nested : GrammarFile.ofText? Json.Tree.ofText? nestedText = some nestedFile := by
  cbv

def nestedRules : RuleSet :=
  [⟨"$Call", [["$Dev", "$Fn"]]⟩, ⟨"$Dev", [["DEV"]]⟩, ⟨"$Fn", [["FN"]]⟩]

theorem ruleSet_nested : nestedFile.ruleSet = .ok nestedRules := by rfl

theorem nested_wellFormed : nestedFile.WellFormed nestedRules := by decide

def nestedCompiled : Compiled :=
  (compile nestedRules "$Call").1.toOption.get (by decide +kernel)

theorem compile_nested : (compile nestedRules nestedFile.start).1 = .ok nestedCompiled :=
  eq_ok_of_toOption (Option.some_get _).symm

/-- The grammar of the nested calls, with devices split off. -/
def nested (direction : Direction) : ProgramGrammar :=
  ⟨nestedCompiled.parser, ⟨direction, true⟩, [], [("DEV", "@@"), ("FN", "@")]⟩

theorem ofFile_nested (direction : Direction) :
    (ofFile nestedFile ⟨direction, true⟩).1 = .ok (nested direction) :=
  ofFile_of_compile ruleSet_nested compile_nested _

theorem directions_agree_nested :
    (nested .bottomUp).vectorize ["@light.on"] 60 = .ok [1, 2, 0] ∧
      (nested .bottomUp).vectorize ["@light.on"] 2 = .ok [1, 2] ∧
      (nested .topDown).vectorize ["@light.on"] 2 = .ok [0, 1] ∧
      (∃ listing, listing.Perm [1, 2, 0] ∧
        (nested .topDown).vectorize ["@light.on"] 60 = .ok listing) ∧
      RuleCount.tally (nested .bottomUp) [⟨"1", ["light", "up"], ["@light.on"]⟩] 60 =
        RuleCount.tally (nested .topDown) [⟨"1", ["light", "up"], ["@light.on"]⟩] 60 := by
  obtain ⟨up, down, hup, hdown, hvectors, -, -, hcounts⟩ :=
    directions_agree ofText?_nested ruleSet_nested nested_wellFormed compile_nested true
  obtain rfl : nested .bottomUp = up := Except.ok.inj ((ofFile_nested _).symm.trans hup)
  obtain rfl : nested .topDown = down := Except.ok.inj ((ofFile_nested _).symm.trans hdown)
  have hids : (nested .bottomUp).vectorize ["@light.on"] 60 = .ok [1, 2, 0] :=
    eq_ok_of_toOption (by decide +kernel)
  have hall : (nested .bottomUp).encode ["@light.on"] = .ok [1, 2, 0] :=
    eq_ok_of_toOption (by decide +kernel)
  refine ⟨hids, eq_ok_of_toOption (by decide +kernel), eq_ok_of_toOption (by decide +kernel),
    ?listing, hcounts _ _ ?short⟩
  case listing =>
    rcases hvectors ["@light.on"] with ⟨e, he⟩ | ⟨_, steps, listing, -, -, hperm, -, hvector⟩
    · cases hids.symm.trans (he 60).1
    · have hcut : (reductions steps).take 60 = [1, 2, 0] :=
        Except.ok.inj ((hvector 60).1.symm.trans hids)
      have hlong : (reductions steps).length ≤ 60 := by
        have hthree := congrArg List.length hcut
        simp only [List.length_take, List.length_cons, List.length_nil] at hthree
        omega
      rw [List.take_of_length_le hlong] at hcut
      exact ⟨listing, hcut ▸ hperm, ((hvector 60).2.2 hlong).2⟩
  case short =>
    intro e he all hencode
    obtain rfl := List.mem_singleton.1 he
    obtain rfl := Except.ok.inj (hall.symm.trans hencode)
    decide

end ProgramGrammar

end ParseBench
