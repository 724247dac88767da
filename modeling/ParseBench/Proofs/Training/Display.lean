/-
  ParseBench.Proofs.Training.Display

  A call on one line can be read back. The reader goes through the arguments character by
  character (`readFrom`). An argument that begins with a quote ends at a quote that no backslash
  follows, and any other one at the next space. So behind an argument, as it is written, the
  reader knows just this argument (`readFrom_writeArgument`), and a space or the end of the line
  is where it is over. By induction it reads all of them (`readFrom_behind`), and lines that are
  the same are read as the same calls. The name of the program is not put between quotes: it can
  be told from the arguments if it has no blanks in it, or is known.
-/

import ParseBench.Proofs.Text.Split
import ParseBench.Training.Runner

namespace ParseBench.Invocation

/-! ## Reading -/

/-- How far an argument has been read, with its characters so far. -/
inductive Part where
  /-- Behind the space before it. -/
  | fresh
  /-- In an argument without quotes. -/
  | plain (chars : List Char)
  /-- Between the quotes. -/
  | quoted (chars : List Char)
  /-- Behind the second quote: the argument is over, or it has a quote of its own next. -/
  | closed (chars : List Char)
  /-- Behind the backslash before a quote of its own. -/
  | escaping (chars : List Char)
  /-- Behind its own quote, before the one that opens the quotes again. -/
  | reopening (chars : List Char)

/-- The argument, if it can be over. -/
def Part.argument? : Part → Option String
  | .plain chars => some (String.ofList chars)
  | .closed chars => some (String.ofList chars)
  | _ => none

/-- Reads one character more of an argument. -/
def Part.step (c : Char) : Part → Option Part
  | .fresh => if c = ' ' then none else some (if c = '\'' then .quoted [] else .plain [c])
  | .plain chars => some (.plain (chars ++ [c]))
  | .quoted chars => some (if c = '\'' then .closed chars else .quoted (chars ++ [c]))
  | .closed chars => if c = '\\' then some (.escaping chars) else none
  | .escaping chars => if c = '\'' then some (.reopening (chars ++ [c])) else none
  | .reopening chars => if c = '\'' then some (.quoted chars) else none

/-- The arguments from a part of one on. A space ends an argument that can be over. -/
def readFrom : Part → List Char → Option (List String)
  | part, [] => part.argument?.map ([·])
  | part, c :: rest =>
    match if c = ' ' then part.argument? else none with
    | some argument => (readFrom .fresh rest).map (argument :: ·)
    | none => (part.step c).bind fun next => readFrom next rest

/-- The arguments behind a program, each with a space before it. -/
def readArguments : List Char → Option (List String)
  | [] => some []
  | c :: rest => if c = ' ' then readFrom .fresh rest else none

/-- The arguments on a line that begins with a known program. -/
def readBehind (program line : String) : Option (List String) :=
  (Text.dropLead? program line).bind fun rest => readArguments rest.toList

/-- The call on a line, whose program ends at the first space. -/
def read? (line : String) : Option Invocation :=
  (readArguments (line.toList.dropWhile (· ≠ ' '))).map fun arguments =>
    ⟨String.ofList (line.toList.takeWhile (· ≠ ' ')), arguments⟩

/-! ## What is written is read -/

variable {part next : Part} {c : Char} {argument : String}

/-- A character that does not end the argument is one more of it. -/
theorem readFrom_cons (hstep : part.step c = some next) (hmore : c = ' ' → part.argument? = none)
    (rest : List Char) : readFrom part (c :: rest) = readFrom next rest := by
  have hnone : (if c = ' ' then part.argument? else none) = none := by
    split
    · next hspace => exact hmore hspace
    · rfl
  rw [readFrom, hnone, hstep, Option.bind_some]

theorem readFrom_space (h : part.argument? = some argument) (rest : List Char) :
    readFrom part (' ' :: rest) = (readFrom .fresh rest).map (argument :: ·) := by
  rw [readFrom, if_pos rfl, h]

theorem readFrom_plain {chars : List Char} (h : ' ' ∉ chars) (front rest : List Char) :
    readFrom (.plain front) (chars ++ rest) = readFrom (.plain (front ++ chars)) rest := by
  induction chars generalizing front with
  | nil => rw [List.append_nil, List.nil_append]
  | cons c chars ih =>
      rw [List.mem_cons, not_or] at h
      have hc : c ≠ ' ' := fun hspace => h.1 hspace.symm
      rw [List.cons_append, readFrom_cons rfl (absurd · hc), ih h.2, List.append_assoc,
        List.singleton_append]

/-- What is written between the quotes for a character of an argument. -/
def escape (c : Char) : List Char :=
  if c = '\'' then "'\\''".toList else [c]

/-- Behind what is written for a character the reader is between the quotes again. -/
theorem readFrom_escape (c : Char) (front rest : List Char) :
    readFrom (.quoted front) (escape c ++ rest) = readFrom (.quoted (front ++ [c])) rest := by
  unfold escape
  split
  · next hquote =>
      subst hquote
      have hchars : "'\\''".toList ++ rest = '\'' :: '\\' :: '\'' :: '\'' :: rest := rfl
      have hclosed : (Part.quoted front).step '\'' = some (.closed front) := rfl
      have hescaping : (Part.closed front).step '\\' = some (.escaping front) := rfl
      have hreopening : (Part.escaping front).step '\'' = some (.reopening (front ++ ['\''])) := rfl
      have hquoted : (Part.reopening (front ++ ['\''])).step '\'' =
          some (.quoted (front ++ ['\''])) := rfl
      rw [hchars, readFrom_cons hclosed (absurd · (by decide)),
        readFrom_cons hescaping (absurd · (by decide)),
        readFrom_cons hreopening (absurd · (by decide)),
        readFrom_cons hquoted (absurd · (by decide))]
  · next hother =>
      have hstep : (Part.quoted front).step c = some (.quoted (front ++ [c])) := by
        rw [Part.step, if_neg hother]
      rw [List.singleton_append, readFrom_cons hstep (fun _ => rfl)]

theorem readFrom_quoted (chars front rest : List Char) :
    readFrom (.quoted front) (chars.flatMap escape ++ rest) =
      readFrom (.quoted (front ++ chars)) rest := by
  induction chars generalizing front with
  | nil => rw [List.append_nil, List.flatMap_nil, List.nil_append]
  | cons c chars ih =>
      rw [List.flatMap_cons, List.append_assoc, readFrom_escape, ih, List.append_assoc,
        List.singleton_append]

theorem toList_writeArgument (argument : String) :
    (writeArgument argument).toList =
      if needsQuotes argument.toList then
        '\'' :: (argument.toList.flatMap escape ++ ['\''])
      else argument.toList := by
  unfold writeArgument
  split
  · rw [String.toList_ofList]
    rfl
  · rfl

/-- Behind an argument the reader knows the argument, and that it can be over. -/
theorem readFrom_writeArgument (argument : String) :
    ∃ part : Part, part.argument? = some argument ∧ ∀ rest,
      readFrom .fresh ((writeArgument argument).toList ++ rest) = readFrom part rest := by
  rw [toList_writeArgument]
  split
  · refine ⟨.closed argument.toList, by rw [Part.argument?, String.ofList_toList], fun rest => ?_⟩
    have hopen : Part.fresh.step '\'' = some (.quoted []) := rfl
    have hclosed : (Part.quoted argument.toList).step '\'' = some (.closed argument.toList) := rfl
    rw [List.cons_append, List.append_assoc, readFrom_cons hopen (fun _ => rfl), readFrom_quoted,
      List.nil_append, List.singleton_append, readFrom_cons hclosed (absurd · (by decide))]
  · next hraw =>
      refine ⟨.plain argument.toList, by rw [Part.argument?, String.ofList_toList], fun rest => ?_⟩
      rw [needsQuotes, Bool.or_eq_true, not_or, List.isEmpty_iff, List.any_eq_true] at hraw
      obtain ⟨hne, hchars⟩ := hraw
      have hspace : ' ' ∉ argument.toList := fun hmem => hchars ⟨' ', hmem, by decide⟩
      have hquote : '\'' ∉ argument.toList := fun hmem => hchars ⟨'\'', hmem, by decide⟩
      obtain ⟨first, more, hlist⟩ := List.exists_cons_of_ne_nil hne
      rw [hlist, List.mem_cons, not_or] at hspace hquote
      -- the first character tells that there are no quotes
      have hstep : Part.fresh.step first = some (.plain [first]) := by
        rw [Part.step, if_neg (Ne.symm hspace.1), if_neg (Ne.symm hquote.1)]
      rw [hlist, List.cons_append, readFrom_cons hstep (fun _ => rfl), readFrom_plain hspace.2,
        List.singleton_append]

/-- What stands on a line behind the program. -/
def behind (arguments : List String) : List Char :=
  arguments.flatMap fun argument => ' ' :: (writeArgument argument).toList

theorem readFrom_behind (h : part.argument? = some argument) (arguments : List String) :
    readFrom part (behind arguments) = some (argument :: arguments) := by
  induction arguments generalizing part argument with
  | nil =>
      have hnil : behind [] = [] := rfl
      rw [hnil, readFrom, h, Option.map_some]
  | cons following arguments ih =>
      have hcons : behind (following :: arguments) =
          ' ' :: ((writeArgument following).toList ++ behind arguments) := List.flatMap_cons
      obtain ⟨last, hlast, hread⟩ := readFrom_writeArgument following
      rw [hcons, readFrom_space h, hread, ih hlast, Option.map_some]

theorem readArguments_behind (arguments : List String) :
    readArguments (behind arguments) = some arguments := by
  cases arguments with
  | nil => rfl
  | cons first arguments =>
      obtain ⟨part, hpart, hread⟩ := readFrom_writeArgument first
      have hcons : behind (first :: arguments) =
          ' ' :: ((writeArgument first).toList ++ behind arguments) := List.flatMap_cons
      rw [hcons, readArguments, if_pos rfl, hread, readFrom_behind hpart]

/-! ## Lines -/

theorem toList_display (i : Invocation) :
    i.display.toList = i.program.toList ++ behind i.arguments := by
  rw [display, Text.toList_join_cons, List.flatMap_map]
  rfl

theorem readBehind_display (i : Invocation) :
    readBehind i.program i.display = some i.arguments := by
  rw [readBehind, Text.dropLead?, toList_display, Text.after?_append, Option.map_some,
    Option.bind_some, String.toList_ofList, readArguments_behind]

/-- A program without blanks ends where the first argument begins. -/
theorem read?_display {i : Invocation} (h : ∀ c ∈ i.program.toList, Text.isBlank c = false) :
    read? i.display = some i := by
  have hspace : ∀ c ∈ i.program.toList, decide (c ≠ ' ') = true := by
    intro c hc
    rw [decide_eq_true_eq]
    rintro rfl
    exact absurd (h ' ' hc) (by decide)
  have hbehind : ∀ arguments : List String,
      (behind arguments).takeWhile (· ≠ ' ') = [] ∧
        (behind arguments).dropWhile (· ≠ ' ') = behind arguments := by
    intro arguments
    cases arguments with
    | nil => exact ⟨rfl, rfl⟩
    | cons first arguments => simp [behind]
  obtain ⟨htake, hdrop⟩ := hbehind i.arguments
  rw [read?, toList_display, List.takeWhile_append_of_pos hspace,
    List.dropWhile_append_of_pos hspace, htake, hdrop, readArguments_behind, List.append_nil,
    String.ofList_toList, Option.map_some]

/-- A call on one line can be read back. Behind a known program the line tells the arguments, and
    if the program has no blanks in its name it tells the program as well. So two calls of one
    program that look the same have the same arguments, and calls of programs without blanks
    that look the same are the same. -/
theorem display_unambiguous :
    (∀ i : Invocation, readBehind i.program i.display = some i.arguments) ∧
    (∀ i : Invocation, (∀ c ∈ i.program.toList, Text.isBlank c = false) →
      read? i.display = some i) ∧
    (∀ (program : String) (arguments arguments' : List String),
      display ⟨program, arguments⟩ = display ⟨program, arguments'⟩ → arguments = arguments') ∧
    ∀ i j : Invocation, (∀ c ∈ i.program.toList, Text.isBlank c = false) →
      (∀ c ∈ j.program.toList, Text.isBlank c = false) → i.display = j.display → i = j := by
  refine ⟨readBehind_display, fun i => read?_display, fun program arguments arguments' h => ?_,
    fun i j hi hj h => ?_⟩
  · have hread := readBehind_display ⟨program, arguments⟩
    rw [h, readBehind_display ⟨program, arguments'⟩] at hread
    exact (Option.some.inj hread).symm
  · have hread := read?_display hi
    rw [h, read?_display hj] at hread
    exact (Option.some.inj hread).symm

/-- A call with a quote and spaces in an argument, an empty one, and a backslash at the end of a
    third one. -/
def quotedCall : Invocation := ⟨"python3", ["it's a b", "", "c\\", "'"]⟩

/-- The same characters in more arguments. -/
def plainCall : Invocation := ⟨"python3", ["it's", "a", "b", "", "c\\", "'"]⟩

theorem display_unambiguous_quotedCall :
    quotedCall.display = "python3 'it'\\''s a b' '' c\\ ''\\'''" ∧
      (∀ c ∈ quotedCall.program.toList, Text.isBlank c = false) ∧
      readBehind "python3" quotedCall.display = some quotedCall.arguments ∧
      read? quotedCall.display = some quotedCall ∧
      display ⟨"my tool", ["a b"]⟩ ≠ display ⟨"my tool", ["a", "b"]⟩ ∧
      quotedCall.display ≠ plainCall.display := by
  have hprogram : ∀ c ∈ "python3".toList, Text.isBlank c = false := by simp [Text.isBlank]
  obtain ⟨hbehind, hread, hsame, hall⟩ := display_unambiguous
  refine ⟨by decide, hprogram, hbehind quotedCall, hread quotedCall hprogram, fun h => ?_,
    fun h => ?_⟩
  · exact absurd (hsame "my tool" ["a b"] ["a", "b"] h) (by decide)
  · exact absurd (hall quotedCall plainCall hprogram hprogram h) (by decide)

/-- A blank in the name of a program is not told from one before an argument. -/
example : display ⟨"my tool", []⟩ = display ⟨"my", ["tool"]⟩ := by decide

end ParseBench.Invocation
