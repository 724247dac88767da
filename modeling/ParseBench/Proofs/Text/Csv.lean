/-
  ParseBench.Proofs.Text.Csv

  Tables with commas between the fields of a record. A field is written as it is, or between
  quotes with the quotes in it doubled; commas, quotes and line ends are in no field that stands
  without quotes (`Field`). Each record has a line end after it, which the last one may lack
  (`Written`).

  The reader goes through a text character by character. What it has read so far is always a
  beginning of the format that its state describes (`State.Of`), which one character keeps
  (`State.Of.step`) and so any text (`State.Of.run`). In the other direction it gets through
  every piece of the format (`run_field`, `run_fields`, `run_lines`). So it reads exactly the
  tables, and a text is the table of one list of records at most (`read_eq_some_iff`).
-/

import Mathlib.Data.List.Basic

namespace ParseBench.Csv

/-! ## The format -/

/-- The characters that a field without quotes cannot have in it. -/
def isSpecial (c : Char) : Bool :=
  c == ',' || c == '"' || c == '\n' || c == '\r'

/-- What stands between the quotes of a field, and the characters it is written for: a quote is
    doubled, and everything else is itself. -/
inductive Inside : List Char → List Char → Prop
  | nil : Inside [] []
  | quote {text chars : List Char} (h : Inside text chars) :
      Inside (text ++ ['"', '"']) (chars ++ ['"'])
  | char {text chars : List Char} {c : Char} (h : Inside text chars) (hc : c ≠ '"') :
      Inside (text ++ [c]) (chars ++ [c])

/-- The two written forms of a field. -/
inductive Field : List Char → String → Prop
  | plain {chars : List Char} (h : ∀ c ∈ chars, isSpecial c = false) :
      Field chars (String.ofList chars)
  | quoted {text chars : List Char} (h : Inside text chars) :
      Field ('"' :: (text ++ ['"'])) (String.ofList chars)

/-- Fields, each with a comma after it. -/
inductive Fields : List Char → List String → Prop
  | nil : Fields [] []
  | comma {text piece : List Char} {fields : List String} {field : String}
      (h : Fields text fields) (hfield : Field piece field) :
      Fields (text ++ (piece ++ [','])) (fields ++ [field])

/-- A record: fields with commas between them. There is at least one. -/
inductive Record : List Char → List String → Prop
  | mk {text piece : List Char} {fields : List String} {field : String}
      (h : Fields text fields) (hfield : Field piece field) :
      Record (text ++ piece) (fields ++ [field])

/-- Records, each with a line end after it: a line feed, or a carriage return and a line feed. -/
inductive Lines : List Char → List (List String) → Prop
  | nil : Lines [] []
  | feed {text line : List Char} {records : List (List String)} {record : List String}
      (h : Lines text records) (hrecord : Record line record) :
      Lines (text ++ (line ++ ['\n'])) (records ++ [record])
  | returnFeed {text line : List Char} {records : List (List String)} {record : List String}
      (h : Lines text records) (hrecord : Record line record) :
      Lines (text ++ (line ++ ['\r', '\n'])) (records ++ [record])

/-- The text of a table. The last record need not have a line end, unless it is empty text. -/
inductive Written : List Char → List (List String) → Prop
  | complete {text : List Char} {records : List (List String)} (h : Lines text records) :
      Written text records
  | broken {text line : List Char} {records : List (List String)} {record : List String}
      (h : Lines text records) (hrecord : Record line record) (hne : line ≠ []) :
      Written (text ++ line) (records ++ [record])

/-- One more field behind a record makes the record longer. -/
theorem Record.snoc {line piece : List Char} {record : List String} {field : String}
    (h : Record line record) (hfield : Field piece field) :
    Record (line ++ ',' :: piece) (record ++ [field]) := by
  cases h with
  | @mk text last fields lastField hfields hlast =>
      have hmore : Record (text ++ (last ++ [',']) ++ piece) (fields ++ [lastField] ++ [field]) :=
        .mk (.comma hfields hlast) hfield
      simpa using hmore

/-! ## Reading -/

/-- How far a field has been read, with its characters so far. -/
inductive Part where
  /-- Without quotes. -/
  | plain (chars : List Char)
  /-- Behind the quote that opens the field. -/
  | quoted (chars : List Char)
  /-- Behind a quote after that: the field is over, or the quote is the first one of two. -/
  | closed (chars : List Char)
  /-- Behind the carriage return that ends the record; a line feed has to follow. -/
  | returned (chars : List Char)
  deriving DecidableEq

/-- What has been read: records, fields of the next one, and a part of the next field. -/
structure State where
  records : List (List String)
  fields : List String
  part : Part
  deriving DecidableEq

namespace State

/-- Nothing has been read. -/
def start : State := ⟨[], [], .plain []⟩

/-- The field is over, and another one follows. -/
def endField (s : State) (chars : List Char) : State :=
  ⟨s.records, s.fields ++ [String.ofList chars], .plain []⟩

/-- The field is over, and the record with it. -/
def endRecord (s : State) (chars : List Char) : State :=
  ⟨s.records ++ [s.fields ++ [String.ofList chars]], [], .plain []⟩

/-- What a character after a whole field leads to. -/
def afterField (s : State) (chars : List Char) (c : Char) : Option State :=
  if c = ',' then some (s.endField chars)
  else if c = '\n' then some (s.endRecord chars)
  else if c = '\r' then some { s with part := .returned chars }
  else none

/-- Reads one character. A quote opens a field only at its beginning. -/
def step (s : State) (c : Char) : Option State :=
  match s.part with
  | .plain chars =>
    if isSpecial c = false then some { s with part := .plain (chars ++ [c]) }
    else if c = '"' then if chars = [] then some { s with part := .quoted [] } else none
    else s.afterField chars c
  | .quoted chars =>
    if c = '"' then some { s with part := .closed chars }
    else some { s with part := .quoted (chars ++ [c]) }
  | .closed chars =>
    if c = '"' then some { s with part := .quoted (chars ++ ['"']) } else s.afterField chars c
  | .returned chars => if c = '\n' then some (s.endRecord chars) else none

/-- Reads a text from a state on. -/
def run (s : State) (text : List Char) : Option State :=
  text.foldlM step s

/-- The records at the end of a text. Behind the last line end there is no further record. -/
def finish? (s : State) : Option (List (List String)) :=
  match s.part with
  | .plain chars =>
    if chars = [] ∧ s.fields = [] then some s.records else some (s.endRecord chars).records
  | .closed chars => some (s.endRecord chars).records
  | .quoted _ => none
  | .returned _ => none

end State

/-- The records of a table. -/
def read (text : String) : Option (List (List String)) :=
  (State.start.run text.toList).bind State.finish?

/-! ## What has been read -/

variable {s s' : State} {text piece line : List Char} {chars : List Char} {c : Char}
variable {field : String} {fields record : List String} {records : List (List String)}

/-- The part of a field that a text holds. -/
inductive Part.Of : Part → List Char → Prop
  | plain {chars : List Char} (h : ∀ c ∈ chars, isSpecial c = false) : Part.Of (.plain chars) chars
  | quoted {text chars : List Char} (h : Inside text chars) : Part.Of (.quoted chars) ('"' :: text)
  | closed {text chars : List Char} (h : Inside text chars) :
      Part.Of (.closed chars) ('"' :: (text ++ ['"']))
  | returned {text chars : List Char} (h : Field text (String.ofList chars)) :
      Part.Of (.returned chars) (text ++ ['\r'])

/-- The state after a text: it holds the records, the fields and the part of a field that the
    text is made of. -/
inductive State.Of : State → List Char → Prop
  | mk {text line back : List Char} {records : List (List String)} {fields : List String}
      {part : Part} (hlines : Lines text records) (hfields : Fields line fields)
      (hpart : part.Of back) : State.Of ⟨records, fields, part⟩ (text ++ (line ++ back))

theorem State.start_of : State.start.Of [] :=
  .mk .nil .nil (.plain nofun)

/-- A comma or a line end after a whole field. -/
theorem State.of_afterField (hlines : Lines text records) (hfields : Fields line fields)
    (hfield : Field piece (String.ofList chars)) {part : Part}
    (h : (State.mk records fields part).afterField chars c = some s') :
    s'.Of (text ++ (line ++ (piece ++ [c]))) := by
  have hnone : Part.Of (.plain []) [] := .plain nofun
  unfold afterField at h
  split at h
  · next hcomma =>
      cases h
      have hmore : State.Of _ (text ++ (line ++ (piece ++ [',']) ++ [])) :=
        .mk hlines (.comma hfields hfield) hnone
      rw [hcomma]
      simpa [endField] using hmore
  · split at h
    · next hfeed =>
        cases h
        have hmore : State.Of _ (text ++ (line ++ piece ++ ['\n']) ++ ([] ++ [])) :=
          .mk (.feed hlines (.mk hfields hfield)) .nil hnone
        rw [hfeed]
        simpa [endRecord] using hmore
    · split at h
      · next hreturn =>
          cases h
          rw [hreturn]
          exact .mk hlines hfields (.returned hfield)
      · cases h

/-- One character more is one more of what the state describes. -/
theorem State.Of.step (hs : s.Of text) (h : s.step c = some s') : s'.Of (text ++ [c]) := by
  cases hs with
  | @mk front line back records fields part hlines hfields hpart =>
      have hassoc : front ++ (line ++ back) ++ [c] = front ++ (line ++ (back ++ [c])) := by simp
      rw [hassoc]
      cases hpart with
      | plain hplain =>
          simp only [State.step] at h
          split at h
          · next hc =>
              cases h
              refine .mk hlines hfields (.plain fun d hd => ?_)
              rcases List.mem_append.1 hd with hmem | hlast
              · exact hplain d hmem
              · rw [List.mem_singleton.1 hlast]
                exact hc
          · split at h
            · next hquote =>
                split at h
                · next hempty =>
                    cases h
                    rw [hquote, hempty]
                    exact .mk hlines hfields (.quoted .nil)
                · cases h
            · exact of_afterField hlines hfields (.plain hplain) h
      | quoted hinside =>
          simp only [State.step] at h
          split at h
          · next hquote =>
              cases h
              rw [hquote]
              exact .mk hlines hfields (.closed hinside)
          · next hquote =>
              cases h
              exact .mk hlines hfields (.quoted (.char hinside hquote))
      | @closed inner _ hinside =>
          simp only [State.step] at h
          split at h
          · next hquote =>
              -- the quote before was the first one of two
              cases h
              have hdoubled : '"' :: (inner ++ ['"']) ++ [c] = '"' :: (inner ++ ['"', '"']) := by
                simp [hquote]
              rw [hdoubled]
              exact .mk hlines hfields (.quoted (.quote hinside))
          · exact of_afterField hlines hfields (.quoted hinside) h
      | @returned piece chars hfield =>
          simp only [State.step] at h
          split at h
          · next hfeed =>
              cases h
              have hmore : State.Of _ (front ++ (line ++ piece ++ ['\r', '\n']) ++ ([] ++ [])) :=
                .mk (.returnFeed hlines (.mk hfields hfield)) .nil (.plain nofun)
              rw [hfeed]
              simpa [endRecord] using hmore
          · cases h

theorem State.Of.run (hs : s.Of text) {rest : List Char} (h : s.run rest = some s') :
    s'.Of (text ++ rest) := by
  induction rest generalizing s text with
  | nil =>
      cases h
      simpa using hs
  | cons c rest ih =>
      rw [State.run, List.foldlM_cons] at h
      obtain ⟨next, hnext, hrest⟩ := Option.bind_eq_some_iff.1 h
      have hwhole := ih (hs.step hnext) hrest
      simpa using hwhole

theorem Fields.eq_nil_of_nil (h : Fields text []) : text = [] := by
  generalize hnil : ([] : List String) = fields at h
  cases h with
  | nil => rfl
  | comma => simp at hnil

/-- At the end of a text the state holds its records. -/
theorem State.Of.written (hs : s.Of text) (h : s.finish? = some records) :
    Written text records := by
  cases hs with
  | @mk front line back records fields part hlines hfields hpart =>
      cases hpart with
      | plain hplain =>
          simp only [finish?] at h
          split at h
          · next hnone =>
              -- nothing stands behind the last line end
              cases h
              obtain ⟨hback, hfieldsNil⟩ := hnone
              subst hfieldsNil
              rw [hback, hfields.eq_nil_of_nil]
              simpa using Written.complete hlines
          · next hsome =>
              cases h
              refine .broken hlines (.mk hfields (.plain hplain)) ?_
              intro hnil
              obtain ⟨hline, hback⟩ := List.append_eq_nil_iff.1 hnil
              refine hsome ⟨hback, ?_⟩
              cases hfields with
              | nil => rfl
              | comma => simp at hline
      | quoted hinside => cases h
      | closed hinside =>
          cases h
          exact .broken hlines (.mk hfields (.quoted hinside)) (by simp)
      | returned hfield => cases h

/-! ## Every table is read -/

theorem State.run_append (s : State) (text rest : List Char) :
    s.run (text ++ rest) = (s.run text).bind (·.run rest) :=
  List.foldlM_append

theorem State.run_singleton (s : State) (c : Char) : s.run [c] = s.step c := by
  rw [run, List.foldlM_cons]
  cases s.step c <;> rfl

theorem State.run_append_of (h : s.run text = some s') (rest : List Char) :
    s.run (text ++ rest) = s'.run rest := by
  rw [run_append, h, Option.bind_some]

/-- The part of a field that is a whole field. -/
def Part.Whole (part : Part) (field : String) : Prop :=
  ∃ chars, field = String.ofList chars ∧ (part = .plain chars ∨ part = .closed chars)

theorem step_of_whole (records : List (List String)) (fields : List String) {part : Part}
    (hwhole : part.Whole field) (hc : isSpecial c = true)
    (hquote : c ≠ '"') :
    ∃ chars, field = String.ofList chars ∧
      (State.mk records fields part).step c =
        (State.mk records fields part).afterField chars c := by
  obtain ⟨chars, rfl, rfl | rfl⟩ := hwhole
  · refine ⟨chars, rfl, ?_⟩
    simp [State.step, hc, hquote]
  · refine ⟨chars, rfl, ?_⟩
    simp [State.step, hquote]

theorem run_plain (h : ∀ c ∈ text, isSpecial c = false) (chars : List Char) :
    (State.mk records fields (.plain chars)).run text =
      some ⟨records, fields, .plain (chars ++ text)⟩ := by
  induction text generalizing chars with
  | nil => simp [State.run]
  | cons c text ih =>
      obtain ⟨hc, htext⟩ := List.forall_mem_cons.1 h
      have hstep : (State.mk records fields (.plain chars)).step c =
          some ⟨records, fields, .plain (chars ++ [c])⟩ := by
        simp [State.step, hc]
      rw [State.run, List.foldlM_cons, hstep]
      have hrest := ih htext (chars ++ [c])
      simpa [State.run] using hrest

/-- What stands between quotes is read as the characters it is written for. -/
theorem run_inside (h : Inside text chars) :
    (State.mk records fields (.quoted [])).run text = some ⟨records, fields, .quoted chars⟩ := by
  induction h with
  | nil => rfl
  | quote _ ih =>
      rw [State.run_append_of ih]
      simp [State.run, State.step]
  | char _ hc ih =>
      rw [State.run_append_of ih, State.run_singleton]
      simp [State.step, hc]

/-- A field is read as a whole. If nothing comes of it, it was empty text. -/
theorem run_field (records : List (List String)) (fields : List String) (h : Field piece field) :
    ∃ part, Part.Whole part field ∧ (part = .plain [] → piece = []) ∧
      (State.mk records fields (.plain [])).run piece = some ⟨records, fields, part⟩ := by
  cases h with
  | plain hplain =>
      have hsame : Part.plain piece = .plain [] → piece = [] := by
        intro hpart
        cases hpart
        rfl
      exact ⟨.plain piece, ⟨piece, rfl, .inl rfl⟩, hsame, run_plain hplain []⟩
  | @quoted inner chars hinside =>
      refine ⟨.closed chars, ⟨chars, rfl, .inr rfl⟩, nofun, ?_⟩
      have hopen : (State.mk records fields (.plain [])).run ['"'] =
          some ⟨records, fields, .quoted []⟩ := rfl
      have hclose : (State.mk records fields (.quoted chars)).run ['"'] =
          some ⟨records, fields, .closed chars⟩ := rfl
      rw [← List.singleton_append, State.run_append_of hopen,
        State.run_append_of (run_inside hinside), hclose]

theorem run_fields (h : Fields text fields) :
    (State.mk records [] (.plain [])).run text = some ⟨records, fields, .plain []⟩ := by
  induction h with
  | nil => rfl
  | @comma text piece fields field _ hfield ih =>
      obtain ⟨part, hwhole, -, hpiece⟩ := run_field records fields hfield
      obtain ⟨chars, rfl, hstep⟩ := step_of_whole records fields (c := ',') hwhole rfl (by decide)
      rw [State.run_append_of ih, State.run_append_of hpiece, State.run_singleton, hstep]
      rfl

/-- A record is read up to its last field, which is read as a whole. If nothing comes of it, it
    was empty text. -/
theorem run_record (records : List (List String)) (h : Record line record) :
    ∃ fields field part, record = fields ++ [field] ∧ Part.Whole part field ∧
      (fields = [] → part = .plain [] → line = []) ∧
      (State.mk records [] (.plain [])).run line = some ⟨records, fields, part⟩ := by
  cases h with
  | @mk text piece fields field hfields hfield =>
      obtain ⟨part, hwhole, hempty, hpiece⟩ :=
        run_field records fields hfield
      refine ⟨fields, field, part, rfl, hwhole, ?_, ?_⟩
      · rintro rfl hpart
        rw [hfields.eq_nil_of_nil, hempty hpart, List.append_nil]
      · rw [State.run_append_of (run_fields hfields), hpiece]

theorem run_lines (h : Lines text records) :
    State.start.run text = some ⟨records, [], .plain []⟩ := by
  induction h with
  | nil => rfl
  | @feed text line records record _ hrecord ih =>
      obtain ⟨fields, field, part, rfl, hwhole, -, hline⟩ :=
        run_record records hrecord
      obtain ⟨chars, rfl, hstep⟩ := step_of_whole records fields (c := '\n') hwhole rfl (by decide)
      rw [State.run_append_of ih, State.run_append_of hline, State.run_singleton, hstep]
      rfl
  | @returnFeed text line records record _ hrecord ih =>
      obtain ⟨fields, field, part, rfl, hwhole, -, hline⟩ :=
        run_record records hrecord
      obtain ⟨chars, rfl, hstep⟩ := step_of_whole records fields (c := '\r') hwhole rfl (by decide)
      have hends : ['\r', '\n'] = ['\r'] ++ ['\n'] := rfl
      have hreturn : (State.mk records fields part).run ['\r'] =
          some ⟨records, fields, .returned chars⟩ := by
        rw [State.run_singleton, hstep]
        rfl
      rw [State.run_append_of ih, State.run_append_of hline, hends, State.run_append_of hreturn]
      rfl

theorem read_of_written {s : String} (h : Written s.toList records) : read s = some records := by
  unfold read
  generalize s.toList = text at h
  cases h with
  | complete hlines =>
      rw [run_lines hlines]
      rfl
  | @broken text line records record hlines hrecord hne =>
      obtain ⟨fields, field, part, rfl, hwhole, hempty, hline⟩ :=
        run_record records hrecord
      rw [State.run_append_of (run_lines hlines), hline, Option.bind_some]
      obtain ⟨chars, rfl, rfl | rfl⟩ := hwhole
      · have hsome : ¬ (chars = [] ∧ fields = []) := by
          rintro ⟨rfl, rfl⟩
          exact hne (hempty rfl rfl)
        simp only [State.finish?, if_neg hsome]
        rfl
      · rfl

/-- The reader reads the tables, each as the records it is written for, and nothing else. -/
theorem read_eq_some_iff {s : String} : read s = some records ↔ Written s.toList records := by
  constructor
  · intro h
    obtain ⟨final, hrun, hfinish⟩ := Option.bind_eq_some_iff.1 h
    have hof := State.start_of.run hrun
    rw [List.nil_append] at hof
    exact hof.written hfinish
  · exact read_of_written

end ParseBench.Csv
