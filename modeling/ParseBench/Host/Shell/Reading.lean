/-
  ParseBench.Host.Shell.Reading

  Reading commands from the text of a script. Every function takes a bound on its
  depth first; `commandLine?` computes one from the length of the text.
-/

import ParseBench.Host.Shell.Command
import ParseBench.Text.Split

namespace ParseBench.Shell

/-- A text that is being read. -/
structure Reader where
  rest : List Char
  /-- The number of the line on which the text ends. -/
  lastLine : Nat
  /-- The texts that redirections take stand between the line and the next one: the length of
      what follows the line, and what follows those texts. -/
  resume : Option (Nat × List Char) := none
  deriving Inhabited

namespace Reader

/-- A text before it is read. -/
def ofText (s : String) : Reader :=
  { rest := s.toList, lastLine := 1 + s.toList.count '\n' }

/-- The number of the line that is being read. -/
def line (r : Reader) : Nat :=
  r.lastLine - r.rest.count '\n'

/-- The reader without its first `n` characters. -/
def drop (r : Reader) (n : Nat) : Reader :=
  { r with rest := r.rest.drop n }

end Reader

/-- A step of reading, which fails where the text is no command. -/
abbrev Read := StateT Reader Option

namespace Read

/-- What has not been read. -/
def rest : Read (List Char) := return (← get).rest

/-- Goes on with a later part of the text. -/
def moveTo (s : List Char) : Read Unit := modify fun r => { r with rest := s }

/-- Goes on after some characters. -/
def skip (n : Nat) : Read Unit := modify fun r => r.drop n

/-- Reads another text to its end. -/
def within {α : Type} (s : List Char) (read : Read α) : Read α := do
  let r ← get
  match read.run { rest := s, lastLine := r.line + s.count '\n' } with
  | some (a, after) => if after.rest.isEmpty then return a else failure
  | none => failure

end Read

/-! ## Characters and words -/

/-- Does the character end a word? -/
def endsWord (c : Char) : Bool :=
  c == ' ' || c == '\t' || c == '\n' || c == '&' || c == '|' || c == ';' || c == '<' || c == '>' ||
    c == '(' || c == ')'

/-- Does the character quote, or begin a part of a word that has a value? -/
def isSpecial (c : Char) : Bool :=
  c == '\\' || c == '\'' || c == '"' || c == '$' || c == '\x60'

/-- Is the parameter named by a sign? -/
def isSign (c : Char) : Bool :=
  c == '@' || c == '*' || c == '#' || c == '?' || c == '-' || c == '$' || c == '!'

/-- The text without the blanks, the joints of lines and the comment at its beginning. -/
def afterBlanks : List Char → List Char
  | ' ' :: s => afterBlanks s
  | '\t' :: s => afterBlanks s
  | '\\' :: '\n' :: s => afterBlanks s
  | '#' :: s => s.dropWhile (· ≠ '\n')
  | s => s

/-- The word at the beginning, if no part of it is quoted or has a value. -/
def plainWord (s : List Char) : String :=
  let word := s.takeWhile fun c => !endsWord c && !isSpecial c
  match s.drop word.length with
  | c :: _ => if isSpecial c then "" else String.ofList word
  | [] => String.ofList word

/-- The words that end a list of commands. -/
def closers : List String :=
  ["then", "else", "elif", "fi", "do", "done", "esac", "\x7d"]

/-- Does a list of commands end here? -/
def atListEnd (s : List Char) : Bool :=
  match s with
  | [] => true
  | ')' :: _ => true
  | ';' :: ';' :: _ => true
  | s => closers.contains (plainWord s)

/-- Pieces with a text after them. They are back to front. -/
def pushText (s : String) (quoted : Bool) : List Piece → List Piece
  | .text t q :: rest => if q = quoted then .text (t ++ s) q :: rest else .text s quoted :: .text t q :: rest
  | pieces => .text s quoted :: pieces

/-- The same for one character. -/
def pushChar (c : Char) (quoted : Bool) (pieces : List Piece) : List Piece :=
  pushText (String.singleton c) quoted pieces

/-- The name of a parameter at the beginning of a text, and what follows it. -/
def parameterName? (s : List Char) : Option (String × List Char) :=
  match s with
  | [] => none
  | c :: rest =>
    if isNameStart c then some (String.ofList (s.takeWhile isNameChar), s.dropWhile isNameChar)
    else if c.isDigit then some (String.ofList (s.takeWhile Char.isDigit), s.dropWhile Char.isDigit)
    else if isSign c then some (String.singleton c, rest)
    else none

/-- What a sign after the name of a parameter asks for. -/
def fallback? : Char → Option Fallback
  | '-' => some .replaces
  | '=' => some .assigns
  | '?' => some .fails
  | '+' => some .replacesOther
  | _ => none

/-- The text up to the next back quote, and what follows that. -/
def backQuoted? (quoted : Bool) : List Char → Option (List Char × List Char)
  | [] => none
  | '\x60' :: s => some ([], s)
  | '\\' :: c :: s =>
    (backQuoted? quoted s).map fun r =>
      (if c = '\\' || c = '\x60' || c = '$' || (quoted && c = '"') then c :: r.1
        else '\\' :: c :: r.1, r.2)
  | c :: s => (backQuoted? quoted s).map fun r => (c :: r.1, r.2)

/-! ## Texts for redirections -/

/-- What follows the line. A quote may be open, in which the end of the line is nothing
    special. -/
def afterLine (quote : Option Char) : List Char → List Char
  | [] => []
  | '\\' :: c :: s => if quote = some '\'' then afterLine quote (c :: s) else afterLine quote s
  | c :: s =>
    match quote with
    | some q => afterLine (if c = q then none else quote) s
    | none =>
      if c = '\n' then s
      else afterLine (if c = '\'' || c = '"' then some c else none) s

/-- The lines of a text up to the one that marks its end, and what follows that line. Tabs at
    the beginning of lines can be left out. -/
def document (mark : String) (withoutTabs : Bool) (s : List Char) : List Char × List Char :=
  let clean (l : List Char) := if withoutTabs then l.dropWhile (· == '\t') else l
  let lines := (Text.splitWhere (· == '\n') s).map clean
  let body := lines.takeWhile (· ≠ mark.toList)
  let after := (Text.splitWhere (· == '\n') s).drop (body.length + 1)
  -- without a mark the text goes on to the end, which may be an end of a line
  let body := if body.length = lines.length && body.getLast? = some [] then body.dropLast else body
  (body.flatMap (· ++ ['\n']), List.intercalate ['\n'] after)

/-- The text of a word that has no parts with values, and whether some of it is quoted. -/
def markOf? : Word → Option (String × Bool)
  | [] => some ("", false)
  | .text s quoted :: rest => (markOf? rest).map fun r => (s ++ r.1, quoted || r.2)
  | _ => none

/-! ## Redirections -/

/-- The mode of the redirection at the beginning of a text, with the stream that it means
    and the length of its sign. `none` in place of the mode says that lines follow, and
    whether without tabs. -/
def redirectSign? : List Char → Option (Nat × Option RedirectMode × Bool × Nat)
  | '<' :: '<' :: '-' :: _ => some (0, none, true, 3)
  | '<' :: '<' :: _ => some (0, none, false, 2)
  | '<' :: '&' :: _ => some (0, some .join, false, 2)
  | '<' :: '>' :: _ => some (0, some .update, false, 2)
  | '<' :: _ => some (0, some .read, false, 1)
  | '>' :: '>' :: _ => some (1, some .append, false, 2)
  | '>' :: '&' :: _ => some (1, some .join, false, 2)
  | '>' :: '|' :: _ => some (1, some .force, false, 2)
  | '>' :: _ => some (1, some .replace, false, 1)
  | _ => none

/-- The same with the number of a stream before it. -/
def numberedSign? : List Char → Option (Nat × Option RedirectMode × Bool × Nat)
  | c :: rest =>
    if c.isDigit then
      (redirectSign? rest).map fun (_, mode, tabs, n) => (c.toNat - '0'.toNat, mode, tabs, n + 1)
    else redirectSign? (c :: rest)
  | [] => none

namespace Read

/-- Leaves out blanks and comments. -/
def blanks : Read Unit := modify fun r => { r with rest := afterBlanks r.rest }

/-- Reads the end of a line. -/
def newline : Read Unit := do
  let r ← get
  match r.rest with
  | '\n' :: s =>
    match r.resume with
    | some (length, after) =>
      if s.length = length then set { r with rest := after, resume := none } else moveTo s
    | none => moveTo s
  | _ => failure

/-- Leaves out blanks and ends of lines. -/
def newlines : (bound : Nat) → Read Unit
  | 0 => failure
  | bound + 1 => do
    blanks
    match ← rest with
    | '\n' :: _ =>
      newline
      newlines bound
    | _ => return ()

/-- Reads a word that has to be there. -/
def expect (word : String) : Read Unit := do
  blanks
  if plainWord (← rest) = word then skip word.length else failure

/-- Reads a character that has to be there. -/
def expectChar (c : Char) : Read Unit := do
  match ← rest with
  | d :: s => if c = d then moveTo s else failure
  | [] => failure

/-- One command after another that may be there. -/
def joined (before : Option Command) (c : Command) : Command :=
  match before with
  | some b => .inOrder b c
  | none => c

mutual

/-- Reads the pieces of a word. The pieces so far are back to front. -/
def word : (bound : Nat) → List Piece → Read Word
  | 0, _ => failure
  | bound + 1, pieces => do
    match ← rest with
    | [] => return pieces.reverse
    | '\\' :: '\n' :: s =>
      moveTo s
      word bound pieces
    | ['\\'] =>
      moveTo []
      word bound (pushChar '\\' true pieces)
    | '\\' :: c :: s =>
      moveTo s
      word bound (pushChar c true pieces)
    | '\'' :: s =>
      match s.dropWhile (· ≠ '\'') with
      | [] => failure
      | _ :: later =>
        moveTo later
        word bound (pushText (String.ofList (s.takeWhile (· ≠ '\''))) true pieces)
    | '"' :: s =>
      moveTo s
      let inner ← quotedText bound true []
      word bound (if inner.isEmpty then pushText "" true pieces else inner.reverse ++ pieces)
    | '$' :: s =>
      moveTo s
      let p ← afterDollar bound false
      word bound (p :: pieces)
    | '\x60' :: s =>
      moveTo s
      let p ← backQuotedOutput bound false
      word bound (p :: pieces)
    | c :: s =>
      if endsWord c then return pieces.reverse
      else
        moveTo s
        word bound (pushChar c false pieces)

/-- Reads quoted text up to a double quote, or to the end if there is none. -/
def quotedText : (bound : Nat) → (closes : Bool) → List Piece → Read Word
  | 0, _, _ => failure
  | bound + 1, closes, pieces => do
    match ← rest with
    | [] => if closes then failure else return pieces.reverse
    | '\\' :: '\n' :: s =>
      moveTo s
      quotedText bound closes pieces
    | '\\' :: c :: s =>
      moveTo s
      if c = '$' || c = '\x60' || c = '\\' || (closes && c = '"') then
        quotedText bound closes (pushChar c true pieces)
      else quotedText bound closes (pushText (String.ofList ['\\', c]) true pieces)
    | '$' :: s =>
      moveTo s
      let p ← afterDollar bound true
      quotedText bound closes (p :: pieces)
    | '\x60' :: s =>
      moveTo s
      let p ← backQuotedOutput bound true
      quotedText bound closes (p :: pieces)
    | c :: s =>
      moveTo s
      if closes && c = '"' then return pieces.reverse
      else quotedText bound closes (pushChar c true pieces)

/-- Reads what follows a dollar sign. -/
def afterDollar : (bound : Nat) → (quoted : Bool) → Read Piece
  | 0, _ => failure
  | bound + 1, quoted => do
    let s ← rest
    match s with
    | '(' :: '(' :: later =>
      moveTo later
      return .value (← expression bound 0 []) quoted
    | '(' :: later =>
      moveTo later
      let body ← commands bound none
      blanks
      expectChar ')'
      return .output body quoted
    | '\x7b' :: later =>
      moveTo later
      braced bound quoted
    | _ =>
      match parameterName? s with
      | none => return .text "$" quoted
      | some (name, later) =>
        -- outside of braces a number has one digit
        if name.all Char.isDigit then
          moveTo (s.drop 1)
          return .parameter (String.ofList (s.take 1)) .none quoted
        else
          moveTo later
          return .parameter name .none quoted

/-- Reads what follows a dollar sign with a brace. -/
def braced : (bound : Nat) → (quoted : Bool) → Read Piece
  | 0, _ => failure
  | bound + 1, quoted => do
    let s ← rest
    let ofLength : Option (String × List Char) :=
      match s with
      | '#' :: '\x7d' :: _ => none
      | '#' :: s =>
        match parameterName? s with
        | some (name, '\x7d' :: later) => some (name, later)
        | _ => none
      | _ => none
    match ofLength, parameterName? s with
    | some (name, later), _ =>
      moveTo later
      return .parameter name .length quoted
    | none, none =>
      let _ ← bracedWord bound quoted []
      return .parameter "" .invalid quoted
    | none, some (name, s) =>
      let (orEmpty, t) : Bool × List Char :=
        match s with
        | ':' :: t => (true, t)
        | t => (false, t)
      match t with
      | [] => failure
      | '\x7d' :: later =>
        moveTo later
        return .parameter name .none quoted
      | c :: later =>
        match fallback? c with
        | some f =>
          moveTo later
          return .parameter name (.fallback f orEmpty (← bracedWord bound quoted [])) quoted
        | none =>
          if !orEmpty && (c = '%' || c = '#') then
            let longest := later.head? = some c
            moveTo (if longest then later.drop 1 else later)
            -- a pattern has quotes of its own
            let pattern ← bracedWord bound false []
            return .parameter name (.trim (c = '%') longest pattern) quoted
          else
            let _ ← bracedWord bound quoted []
            return .parameter name .invalid quoted

/-- Reads a word up to a brace. -/
def bracedWord : (bound : Nat) → (quoted : Bool) → List Piece → Read Word
  | 0, _, _ => failure
  | bound + 1, quoted, pieces => do
    match ← rest with
    | [] => failure
    | '\x7d' :: s =>
      moveTo s
      return pieces.reverse
    | '\\' :: '\n' :: s =>
      moveTo s
      bracedWord bound quoted pieces
    | '\\' :: c :: s =>
      moveTo s
      if !quoted || c = '$' || c = '\x60' || c = '"' || c = '\\' || c = '\x7d' then
        bracedWord bound quoted (pushChar c true pieces)
      else bracedWord bound quoted (pushText (String.ofList ['\\', c]) true pieces)
    | '"' :: s =>
      moveTo s
      let inner ← quotedText bound true []
      bracedWord bound quoted
        (if inner.isEmpty then pushText "" true pieces else inner.reverse ++ pieces)
    | '$' :: s =>
      moveTo s
      let p ← afterDollar bound quoted
      bracedWord bound quoted (p :: pieces)
    | '\x60' :: s =>
      moveTo s
      let p ← backQuotedOutput bound quoted
      bracedWord bound quoted (p :: pieces)
    | c :: s =>
      if c = '\'' && !quoted then
        match s.dropWhile (· ≠ '\'') with
        | [] => failure
        | _ :: later =>
          moveTo later
          bracedWord bound quoted (pushText (String.ofList (s.takeWhile (· ≠ '\''))) true pieces)
      else
        moveTo s
        bracedWord bound quoted (pushChar c quoted pieces)

/-- Reads an expression up to two closing brackets. `depth` of its own are open. -/
def expression : (bound : Nat) → (depth : Nat) → List Piece → Read Word
  | 0, _, _ => failure
  | bound + 1, depth, pieces => do
    match ← rest with
    | [] => failure
    | '\\' :: '\n' :: s =>
      moveTo s
      expression bound depth pieces
    | '"' :: s =>
      moveTo s
      expression bound depth pieces
    | '(' :: s =>
      moveTo s
      expression bound (depth + 1) (pushChar '(' true pieces)
    | ')' :: s =>
      match depth, s with
      | depth + 1, s =>
        moveTo s
        expression bound depth (pushChar ')' true pieces)
      | 0, ')' :: s =>
        moveTo s
        return pieces.reverse
      | 0, s =>
        moveTo s
        expression bound 0 (pushChar ')' true pieces)
    | '$' :: s =>
      moveTo s
      let p ← afterDollar bound true
      expression bound depth (p :: pieces)
    | '\x60' :: s =>
      moveTo s
      let p ← backQuotedOutput bound true
      expression bound depth (p :: pieces)
    | c :: s =>
      moveTo s
      expression bound depth (pushChar c true pieces)

/-- Reads commands between back quotes. -/
def backQuotedOutput : (bound : Nat) → (quoted : Bool) → Read Piece
  | 0, _ => failure
  | bound + 1, quoted => do
    match backQuoted? quoted (← rest) with
    | none => failure
    | some (text, later) =>
      moveTo later
      return .output (← within text (commands bound none)) quoted

/-- Reads commands up to the end of their list. -/
def commands : (bound : Nat) → Option Command → Read (Option Command)
  | 0, _ => failure
  | bound + 1, before => do
    newlines bound
    if atListEnd (← rest) then return before
    let c ← alternatives bound
    blanks
    match ← rest with
    | ';' :: ';' :: _ => return some (joined before c)
    | ';' :: s =>
      moveTo s
      commands bound (some (joined before c))
    | '&' :: s =>
      moveTo s
      commands bound (some (joined before (.background c)))
    | '\n' :: _ => commands bound (some (joined before c))
    | _ => return some (joined before c)

/-- Reads commands of which there has to be one. -/
def body : (bound : Nat) → Read Command
  | 0 => failure
  | bound + 1 => do
    match ← commands bound none with
    | some c => return c
    | none => failure

/-- Reads the commands of a line. -/
def line : (bound : Nat) → Option Command → Read (Option Command)
  | 0, _ => failure
  | bound + 1, before => do
    blanks
    match ← rest with
    | [] => return before
    | '\n' :: _ =>
      newline
      return before
    | _ =>
      let c ← alternatives bound
      blanks
      match ← rest with
      | [] => return some (joined before c)
      | ';' :: s =>
        moveTo s
        line bound (some (joined before c))
      | '&' :: s =>
        moveTo s
        line bound (some (joined before (.background c)))
      | '\n' :: _ =>
        newline
        return some (joined before c)
      | _ => failure

/-- Reads pipelines of which the later ones depend on the status before them. -/
def alternatives : (bound : Nat) → Read Command
  | 0 => failure
  | bound + 1 => do
    let c ← pipeline bound
    moreAlternatives bound c

/-- Reads what may follow a pipeline. -/
def moreAlternatives : (bound : Nat) → Command → Read Command
  | 0, _ => failure
  | bound + 1, c => do
    blanks
    match ← rest with
    | '&' :: '&' :: s =>
      moveTo s
      newlines bound
      let d ← pipeline bound
      moreAlternatives bound (.both c d)
    | '|' :: '|' :: s =>
      moveTo s
      newlines bound
      let d ← pipeline bound
      moreAlternatives bound (.either c d)
    | _ => return c

/-- Reads commands with bars between them, which may be negated together. -/
def pipeline : (bound : Nat) → Read Command
  | 0 => failure
  | bound + 1 => do
    blanks
    let isNegated := plainWord (← rest) = "!"
    if isNegated then skip 1
    let parts ← pipelineParts bound
    let c : Command :=
      match parts with
      | [c] => c
      | parts => .pipeline parts
    return if isNegated then .negated c else c

/-- Reads the parts of a pipeline. -/
def pipelineParts : (bound : Nat) → Read (List Command)
  | 0 => failure
  | bound + 1 => do
    let c ← command bound
    blanks
    match ← rest with
    | '|' :: '|' :: _ => return [c]
    | '|' :: s =>
      moveTo s
      newlines bound
      return c :: (← pipelineParts bound)
    | _ => return [c]

/-- Reads a command. -/
def command : (bound : Nat) → Read Command
  | 0 => failure
  | bound + 1 => do
    blanks
    let s ← rest
    match plainWord s with
    | "if" =>
      skip 2
      let (condition, thenDo, otherwise) ← conditional bound
      return .branch condition thenDo otherwise (← redirects bound)
    | "while" =>
      skip 5
      let condition ← body bound
      let inner ← doGroup bound
      return .loop false condition inner (← redirects bound)
    | "until" =>
      skip 5
      let condition ← body bound
      let inner ← doGroup bound
      return .loop true condition inner (← redirects bound)
    | "for" =>
      skip 3
      let (name, words) ← loopHead bound
      let inner ← doGroup bound
      return .forEach name words inner (← redirects bound)
    | "case" =>
      skip 4
      blanks
      let subject ← word bound []
      newlines bound
      if subject.isEmpty then failure
      expect "in"
      let branches ← caseBranches bound
      return .choose subject branches (← redirects bound)
    | "\x7b" =>
      skip 1
      let inner ← body bound
      expect "\x7d"
      let outer ← redirects bound
      match inner with
      -- redirections behind the braces stand in place of those of a lone subshell within
      | .subshell only own => return .subshell only (if outer.isEmpty then own else outer)
      | inner => return .group inner outer
    | "!" => failure
    | _ =>
      match s with
      | '(' :: later =>
        moveTo later
        let inner ← body bound
        blanks
        expectChar ')'
        return .subshell inner (← redirects bound)
      | _ => call bound ((← get).line) [] [] []

/-- Reads the redirections that may follow a command. -/
def redirects : (bound : Nat) → Read (List Redirect)
  | 0 => failure
  | bound + 1 => do
    blanks
    match numberedSign? (← rest) with
    | none => return []
    | some _ =>
      let r ← redirect bound
      return r :: (← redirects bound)

/-- Reads a redirection. -/
def redirect : (bound : Nat) → Read Redirect
  | 0 => failure
  | bound + 1 => do
    match numberedSign? (← rest) with
    | none => failure
    | some (stream, mode, withoutTabs, length) =>
      skip length
      blanks
      let target ← word bound []
      if target.isEmpty then failure
      match mode with
      | some mode => return (stream, mode, target)
      | none =>
        match markOf? target with
        | none => failure
        | some (mark, isQuoted) =>
          let r ← get
          let (length, start) :=
            match r.resume with
            | some (length, after) => (length, after)
            | none => ((afterLine none r.rest).length, afterLine none r.rest)
          let (lines, after) := document mark withoutTabs start
          set { r with resume := some (length, after) }
          if isQuoted then return (stream, .text, [.text (String.ofList lines) true])
          else return (stream, .text, ← within lines (quotedText bound false []))

/-- Reads a call: variables that are set, words and redirections, which are back to front so
    far. A name with brackets after it is defined by the next command. -/
def call : (bound : Nat) → (line : Nat) → List (String × Word) → List Word → List Redirect →
    Read Command
  | 0, _, _, _, _ => failure
  | bound + 1, line, assignments, words, reds => do
    blanks
    let s ← rest
    let done : Read Command :=
      if assignments.isEmpty && words.isEmpty && reds.isEmpty then failure
      else return .call line assignments.reverse words.reverse reds.reverse
    match numberedSign? s, s with
    | some _, _ =>
      let r ← redirect bound
      call bound line assignments words (r :: reds)
    | none, [] => done
    | none, c :: later =>
      if c = '(' then
        match assignments, words, reds with
        | [], [[.text name false]], [] =>
          if isName name then
            moveTo later
            blanks
            expectChar ')'
            newlines bound
            return .define name (← command bound)
          else failure
        | _, _, _ => failure
      else if endsWord c then done
      else
        -- the words that end a list of commands are no commands
        if assignments.isEmpty && words.isEmpty && reds.isEmpty && closers.contains (plainWord s) then
          failure
        let w ← word bound []
        match if words.isEmpty then assignment? w else none with
        | some a => call bound line (a :: assignments) words reds
        | none => call bound line assignments (w :: words) reds

/-- Reads a condition, what depends on it, and the end of it. -/
def conditional : (bound : Nat) → Read (Command × Command × Option Command)
  | 0 => failure
  | bound + 1 => do
    let condition ← body bound
    expect "then"
    let thenDo ← body bound
    blanks
    match plainWord (← rest) with
    | "elif" =>
      skip 4
      let (c, d, e) ← conditional bound
      return (condition, thenDo, some (.branch c d e []))
    | "else" =>
      skip 4
      let otherwise ← body bound
      expect "fi"
      return (condition, thenDo, some otherwise)
    | "fi" =>
      skip 2
      return (condition, thenDo, none)
    | _ => failure

/-- Reads the body of a loop. -/
def doGroup : (bound : Nat) → Read Command
  | 0 => failure
  | bound + 1 => do
    newlines bound
    expect "do"
    let inner ← body bound
    expect "done"
    return inner

/-- Reads the name and the words of a loop. -/
def loopHead : (bound : Nat) → Read (String × Option (List Word))
  | 0 => failure
  | bound + 1 => do
    blanks
    let name := plainWord (← rest)
    if !isName name then failure
    skip name.length
    newlines bound
    let s ← rest
    if plainWord s = "in" then
      skip 2
      let words ← loopWords bound
      blanks
      match ← rest with
      | ';' :: s => moveTo s
      | '\n' :: _ => newline
      | _ => failure
      return (name, some words)
    else
      match s with
      | ';' :: s => moveTo s
      | _ => pure ()
      return (name, none)

/-- Reads words as far as they go. -/
def loopWords : (bound : Nat) → Read (List Word)
  | 0 => failure
  | bound + 1 => do
    blanks
    match ← rest with
    | [] => return []
    | c :: _ =>
      if endsWord c then return []
      else
        let w ← word bound []
        return w :: (← loopWords bound)

/-- Reads the branches of a choice and the word that ends it. -/
def caseBranches : (bound : Nat) → Read (List (List Word × Option Command))
  | 0 => failure
  | bound + 1 => do
    newlines bound
    let s ← rest
    if plainWord s = "esac" then
      skip 4
      return []
    if s.head? = some '(' then moveTo (s.drop 1)
    let patterns ← casePatterns bound
    let inner ← commands bound none
    blanks
    match ← rest with
    | ';' :: ';' :: s =>
      moveTo s
      return (patterns, inner) :: (← caseBranches bound)
    | _ =>
      expect "esac"
      return [(patterns, inner)]

/-- Reads the patterns of a branch and the bracket after them. -/
def casePatterns : (bound : Nat) → Read (List Word)
  | 0 => failure
  | bound + 1 => do
    blanks
    let w ← word bound []
    if w.isEmpty then failure
    blanks
    match ← rest with
    | '|' :: s =>
      moveTo s
      return w :: (← casePatterns bound)
    | ')' :: s =>
      moveTo s
      return [w]
    | _ => failure

end

end Read

/-- Reads one line of commands, or fails if it is none. A line may be without commands. -/
def commandLine? (r : Reader) : Option (Option Command × Reader) :=
  (Read.line (16 * r.rest.length + 64) none).run r

end ParseBench.Shell
