/-
  ParseBench.Host.Utility.Calendar

  Dates: the day that a count of days leads to, moments as texts say them, and
  moments in a format. All moments are counted in seconds from the beginning of
  1970, and there is one time zone.
-/

import ParseBench.Host.Utility.Printing

namespace ParseBench.Utility

/-! ## Days -/

/-- A day of the calendar. -/
structure Day where
  year : Int
  month : Nat
  day : Nat
  deriving DecidableEq, Repr, Inhabited

namespace Day

/-- Does a year have one day more? -/
def isLong (year : Int) : Bool :=
  (year % 4 = 0 && year % 100 ≠ 0) || year % 400 = 0

/-- The number of days of a month. -/
def monthLength (year : Int) (month : Nat) : Nat :=
  match month with
  | 2 => if isLong year then 29 else 28
  | 4 | 6 | 9 | 11 => 30
  | _ => 31

/-- The number of days before a month in its year. -/
def before (year : Int) (month : Nat) : Nat :=
  ((List.range (month - 1)).map fun m => monthLength year (m + 1)).foldr (· + ·) 0

/-- The number of days before a year, counted from the year one. -/
def beforeYear (year : Int) : Int :=
  let y := year - 1
  y * 365 + y / 4 - y / 100 + y / 400

/-- The number of the first day of 1970, counted in this way. -/
def epoch : Int := beforeYear 1970

/-- The number of a day, counted from the first day of 1970. -/
def number (d : Day) : Int :=
  beforeYear d.year + before d.year d.month + d.day - 1 - epoch

/-- The year that a day is in. -/
def yearOf (n : Int) : Int :=
  -- the mean length of a year leads to the year or to the one beside it
  let guess := (n + epoch) * 400 / 146097 + 1
  if beforeYear guess - epoch > n then guess - 1
  else if beforeYear (guess + 1) - epoch ≤ n then guess + 1
  else guess

/-- The day of a number. -/
def ofNumber (n : Int) : Day :=
  let year := yearOf n
  let inYear := (n + epoch - beforeYear year).toNat
  let months := (List.range 12).filter fun m => before year (m + 1) ≤ inYear
  let month := months.length
  ⟨year, month, inYear - before year month + 1⟩

/-- The place of a day in its year, from one on. -/
def inYear (d : Day) : Nat :=
  before d.year d.month + d.day

/-- The day of the week of a number. Sunday is zero. -/
def weekday (n : Int) : Nat :=
  ((n + 4) % 7).toNat

/-- The number of the week of a year, where weeks begin on some day of the week. -/
def week (n : Int) (first : Nat) : Nat :=
  let d := ofNumber n
  (d.inYear + 6 - (weekday n + 7 - first) % 7) / 7

/-- The year and the number of the week, where the week of a Thursday belongs to its year. -/
def weekOfYear (n : Int) : Int × Nat :=
  let thursday := n + 3 - ((weekday n + 6) % 7 : Nat)
  let d := ofNumber thursday
  (d.year, (d.inYear + 6) / 7)

end Day

/-- The names of the days of the week. -/
def dayNames : List String :=
  ["Sunday", "Monday", "Tuesday", "Wednesday", "Thursday", "Friday", "Saturday"]

/-- The names of the months. -/
def monthNames : List String :=
  ["January", "February", "March", "April", "May", "June", "July", "August", "September", "October",
    "November", "December"]

/-! ## Formats -/

/-- A moment in seconds and parts of one. -/
structure Moment where
  seconds : Int
  nanoseconds : Nat := 0
  deriving DecidableEq, Repr, Inhabited

namespace Moment

/-- The number of the day. -/
def days (m : Moment) : Int := m.seconds / 86400

/-- The day of the moment. -/
def day (m : Moment) : Day := Day.ofNumber m.days

/-- The seconds since the day began. -/
def inDay (m : Moment) : Nat := (m.seconds % 86400).toNat

/-- A number with signs before it up to a width. -/
def padded (fill : Option Char) (width : Nat) (n : Int) : String :=
  let digits := toString n.natAbs
  (if n < 0 then "-" else "") ++ String.ofList (List.replicate (width - digits.length) (fill.getD ' ') |>.filter
    fun _ => fill.isSome) ++ digits

/-- What a letter of a format stands for: a number with its usual filling and width, a text, or a
    format of its own. -/
inductive Part where
  | number (fill : Char) (width : Nat) (n : Int)
  | text (s : String)
  | format (s : String)
  deriving Repr, Inhabited

/-- The part that a letter stands for. -/
def part? (m : Moment) (c : Char) : Option Part :=
  let d := m.day
  let hour := m.inDay / 3600
  let hour12 := if hour % 12 = 0 then 12 else hour % 12
  let weekday := Day.weekday m.days
  match c with
  | 'Y' => some (.number '0' 4 d.year)
  | 'C' => some (.number '0' 2 (d.year / 100))
  | 'y' => some (.number '0' 2 (d.year % 100))
  | 'm' => some (.number '0' 2 d.month)
  | 'd' => some (.number '0' 2 d.day)
  | 'e' => some (.number ' ' 2 d.day)
  | 'H' => some (.number '0' 2 hour)
  | 'k' => some (.number ' ' 2 hour)
  | 'I' => some (.number '0' 2 hour12)
  | 'l' => some (.number ' ' 2 hour12)
  | 'M' => some (.number '0' 2 (m.inDay / 60 % 60 : Nat))
  | 'S' => some (.number '0' 2 (m.inDay % 60 : Nat))
  | 'N' => some (.number '0' 9 m.nanoseconds)
  | 's' => some (.number '0' 1 m.seconds)
  | 'j' => some (.number '0' 3 d.inYear)
  | 'q' => some (.number '0' 1 ((d.month - 1) / 3 + 1 : Nat))
  | 'u' => some (.number '0' 1 (if weekday = 0 then 7 else weekday : Nat))
  | 'w' => some (.number '0' 1 weekday)
  | 'U' => some (.number '0' 2 (Day.week m.days 0))
  | 'W' => some (.number '0' 2 (Day.week m.days 1))
  | 'V' => some (.number '0' 2 (Day.weekOfYear m.days).2)
  | 'G' => some (.number '0' 4 (Day.weekOfYear m.days).1)
  | 'g' => some (.number '0' 2 ((Day.weekOfYear m.days).1 % 100))
  | 'a' => some (.text (String.ofList ((dayNames.getD weekday "").toList.take 3)))
  | 'A' => some (.text (dayNames.getD weekday ""))
  | 'b' | 'h' => some (.text (String.ofList ((monthNames.getD (d.month - 1) "").toList.take 3)))
  | 'B' => some (.text (monthNames.getD (d.month - 1) ""))
  | 'p' => some (.text (if hour < 12 then "AM" else "PM"))
  | 'P' => some (.text (if hour < 12 then "am" else "pm"))
  | 'Z' => some (.text "UTC")
  | 'z' => some (.text "+0000")
  | 'n' => some (.text "\n")
  | 't' => some (.text "\t")
  | '%' => some (.text "%")
  | 'F' => some (.format "%Y-%m-%d")
  | 'T' | 'X' => some (.format "%H:%M:%S")
  | 'D' | 'x' => some (.format "%m/%d/%y")
  | 'R' => some (.format "%H:%M")
  | 'r' => some (.format "%I:%M:%S %p")
  | 'c' => some (.format "%a %b %e %H:%M:%S %Y")
  | _ => none

/-- The moment in a format, at most `bound` parts of it and formats within it. -/
def inFormat (m : Moment) : (bound : Nat) → List Char → String
  | 0, _ => ""
  | _ + 1, [] => ""
  | bound + 1, '%' :: rest =>
    let signs := rest.takeWhile fun c => "-_0^#+".toList.contains c
    let later := rest.drop signs.length
    let width := later.takeWhile Char.isDigit
    let later := later.drop width.length
    -- letters that ask for another writing have nothing to say here
    let later := if later.head? = some 'E' || later.head? = some 'O' then later.drop 1 else later
    let colons := later.takeWhile (· == ':')
    match later.drop colons.length with
    | [] => "%" ++ String.ofList rest
    | c :: after =>
      let upper (s : String) : String := if signs.contains '^' then s.map Char.toUpper else s
      let asked := Numeral.value 10 width
      let widened (fill : Char) (s : String) : String :=
        String.ofList (List.replicate (asked - s.length) fill) ++ s
      let shown : Option String :=
        if !colons.isEmpty && c = 'z' then
          some (if colons.length = 1 then "+00:00" else if colons.length = 2 then "+00:00:00" else "+00")
        else
          match m.part? c with
          | some (.number fill least n) =>
            let fill : Option Char :=
              match signs.getLast? with
              | some '-' => none
              | some '_' => some ' '
              | some '0' => some '0'
              | _ => some fill
            -- parts of a second are cut off and not filled up
            if c = 'N' && !width.isEmpty then
              some (String.ofList ((padded (some '0') 9 n).toList.take asked))
            else some (padded fill (max least asked) n)
          | some (.text s) => some (widened (if signs.contains '0' then '0' else ' ') (upper s))
          | some (.format s) =>
            some (widened (if signs.contains '0' then '0' else ' ') (upper (inFormat m bound s.toList)))
          | none => none
      match shown with
      | some s => s ++ inFormat m bound after
      | none => "%" ++ String.ofList (rest.take (rest.length - after.length)) ++ inFormat m bound after
  | bound + 1, c :: rest => String.singleton c ++ inFormat m bound rest

/-- The moment in the format of a text. -/
def written (m : Moment) (format : String) : String :=
  m.inFormat (format.length + 100) format.toList

/-! ## Reading -/

/-- The moment with some number of months more. -/
def afterMonths (m : Moment) (n : Int) : Moment :=
  let d := m.day
  let months := d.year * 12 + (d.month - 1 : Nat) + n
  let there : Day := ⟨months / 12, (months % 12).toNat + 1, d.day⟩
  { m with seconds := there.number * 86400 + m.inDay }

/-- The moment with some number of units more. -/
def after? (m : Moment) (n : Int) (unit : String) : Option Moment :=
  let unit := unit.map Char.toLower
  let unit := if unit.endsWith "s" && unit.length > 3 then String.ofList unit.toList.dropLast else unit
  let seconds (k : Int) : Option Moment := some { m with seconds := m.seconds + n * k }
  match unit with
  | "sec" | "second" => seconds 1
  | "min" | "minute" => seconds 60
  | "hour" => seconds 3600
  | "day" => seconds 86400
  | "week" => seconds (7 * 86400)
  | "fortnight" => seconds (14 * 86400)
  | "month" => some (m.afterMonths n)
  | "year" => some (m.afterMonths (12 * n))
  | _ => none

/-- The numbers of a text between signs. -/
def numbersOf? (divider : Char) (s : String) : Option (List Nat) :=
  (Text.splitOn divider s).mapM Numeral.plain?

/-- The moment with the day that a text says. -/
def withDay? (m : Moment) (s : String) : Option Moment :=
  let on (year month day : Nat) : Option Moment :=
    if 1 ≤ month && month ≤ 12 && 1 ≤ day && day ≤ Day.monthLength year month then
      some { m with seconds := (⟨year, month, day⟩ : Day).number * 86400 + m.inDay }
    else none
  match numbersOf? '-' s, numbersOf? '/' s with
  | some [year, month, day], _ => on year month day
  | _, some [month, day, year] => on year month day
  | _, _ => if s.length = 8 then (Numeral.plain? s).bind fun n => on (n / 10000) (n / 100 % 100) (n % 100) else none

/-- The moment with the time of day that a text says. -/
def withTime? (m : Moment) (s : String) : Option Moment :=
  let s := (Text.splitOn '.' s).headD ""
  let timed (hour minute second : Nat) : Option Moment :=
    if hour < 24 && minute < 60 && second ≤ 60 then
      some { m with seconds := m.days * 86400 + hour * 3600 + minute * 60 + second }
    else none
  match numbersOf? ':' s with
  | some [hour, minute] => timed hour minute 0
  | some [hour, minute, second] => timed hour minute second
  | _ => none

/-- The moment after the words of a text, at most `bound` of them. -/
def afterWords? (m : Moment) (isDated : Bool) : (bound : Nat) → List String → Option Moment
  | 0, _ => none
  | _ + 1, [] => some m
  | bound + 1, word :: rest =>
    let midnight : Moment := if isDated then m else { m with seconds := m.days * 86400 }
    let low := word.map Char.toLower
    let signed : Option Int :=
      match word.toList with
      | '+' :: digits => (Numeral.plain? (String.ofList digits)).map fun n => (n : Int)
      | '-' :: digits => (Numeral.plain? (String.ofList digits)).map fun n => -(n : Int)
      | digits => (Numeral.plain? (String.ofList digits)).map fun n => (n : Int)
    match low with
    | "now" | "today" => afterWords? m isDated bound rest
    | "utc" | "gmt" | "z" => afterWords? m isDated bound rest
    | "tomorrow" => (m.after? 1 "day").bind fun m => afterWords? m isDated bound rest
    | "yesterday" => (m.after? (-1) "day").bind fun m => afterWords? m isDated bound rest
    | "+" | "-" =>
      match rest with
      | number :: rest => afterWords? m isDated bound ((word ++ number) :: rest)
      | [] => none
    | "next" | "last" =>
      match rest with
      | unit :: rest =>
        (m.after? (if low = "next" then 1 else -1) unit).bind fun m => afterWords? m isDated bound rest
      | [] => none
    | _ =>
      let count? (n : Int) : Option (Moment × List String) :=
        match rest with
        | unit :: "ago" :: rest => (m.after? (-n) unit).map (·, rest)
        | unit :: rest => (m.after? n unit).map (·, rest)
        | [] => none
      match signed.bind count? with
      | some (m, rest) => afterWords? m isDated bound rest
      | none =>
        match midnight.withDay? word, midnight.withTime? word with
        | some m, _ => afterWords? m true bound rest
        | none, some m =>
          -- a number with a sign after a time says how far the clock is ahead there
          match rest with
          | zone :: later =>
            match zone.toList with
            | sign :: digits =>
              if sign = '+' || sign = '-' then
                match ahead? digits with
                | some seconds =>
                  let shift := if sign = '+' then -(seconds : Int) else seconds
                  afterWords? { m with seconds := m.seconds + shift } true bound later
                | none => none
              else afterWords? m true bound rest
            | [] => none
          | [] => some m
        | none, none => none
where
  /-- The seconds that hours, or hours and minutes, make. -/
  ahead? (digits : List Char) : Option Nat :=
    let bare := digits.filter (· ≠ ':')
    (Numeral.plain? (String.ofList bare)).bind fun n =>
      let (hours, minutes) : Nat × Nat := if bare.length ≤ 2 then (n, 0) else (n / 100, n % 100)
      if hours ≤ 24 && minutes < 60 then some (hours * 3600 + minutes * 60) else none

/-- The moment that a text says, seen from another one. -/
def ofText? (now : Moment) (s : String) : Option Moment :=
  match (Text.splitWhere Numeral.isBlank s.toList).filter (!·.isEmpty) with
  | ['@' :: digits] =>
    match Numeral.signed? (Numeral.inBase? 10) digits with
    | some (n, []) => some ⟨n, 0⟩
    | some (n, '.' :: part) =>
      if part.all Char.isDigit then
        some ⟨n, Numeral.value 10 ((part ++ List.replicate 9 '0').take 9)⟩
      else none
    | _ => none
  | [] => some ⟨now.days * 86400, 0⟩
  | words =>
    -- a day and a time may be joined by a letter, and the time may end in one
    let parts := words.flatMap fun w =>
      match Text.splitWhere (· == 'T') w with
      | [day, time] =>
        if (day.head?.map Char.isDigit).getD false && (time.head?.map Char.isDigit).getD false then [day, time] else [w]
      | _ => [w]
    let parts := parts.map fun w =>
      let bare := if w.getLast? = some 'Z' && (w.head?.map Char.isDigit).getD false then w.dropLast else w
      String.ofList bare
    (now.afterWords? false (parts.length + 1) parts).map fun m => m

end Moment

/-- The moment at which machines begin to count their time. -/
def clockStart : Int := 1750000000

/-- The format that an option asks for. -/
def dateFormat (o : Options) : Except String String :=
  match o.operands.find? (Text.startsWith · "+"), o.value? 'I' with
  | some format, _ => .ok ((Text.dropLead? "+" format).getD "")
  | none, some "" | none, some "date" => .ok "%Y-%m-%d"
  | none, some "hours" => .ok "%Y-%m-%dT%H%:z"
  | none, some "minutes" => .ok "%Y-%m-%dT%H:%M%:z"
  | none, some "seconds" => .ok "%Y-%m-%dT%H:%M:%S%:z"
  | none, some "ns" => .ok "%Y-%m-%dT%H:%M:%S,%N%:z"
  | none, some other => .error ("invalid argument '" ++ other ++ "' for '--iso-8601'")
  | none, none =>
    if o.has 'R' then .ok "%a, %d %b %Y %H:%M:%S %z" else .ok "%a %b %e %H:%M:%S %Z %Y"

/-- Prints a moment: the present one, or one that is said. -/
def date : Utility := fun args => do
  -- the value of one option is said with it or not at all
  let args := args.map fun a => if a = "-I" || a = "--iso-8601" then "-Idate" else a
  withOptions "date" ⟨"uRjn", "drIfs", [("date", 'd'), ("utc", 'u'), ("universal", 'u'), ("reference", 'r'),
    ("iso-8601", 'I'), ("rfc-email", 'R'), ("set", 's'), ("file", 'f')], true⟩ 1 (fun o => do
    let now : Moment := ⟨clockStart + (← get).machine.clock / 1000000, (← get).machine.clock % 1000000 * 1000⟩
    let refuse (message : String) : Act Nat := do
      Act.complain ("date: " ++ message)
      return 1
    match dateFormat o, o.operands.filter (!Text.startsWith · "+") with
    | .error message, _ => refuse message
    | .ok _, extra :: _ => refuse ("invalid date '" ++ extra ++ "'")
    | .ok format, [] =>
      if let some path := o.value? 'r' then
        if ((← get).node? path).isNone then
          return ← refuse (path ++ ": No such file or directory")
      let moment? :=
        match o.value? 'd' with
        | some s => Moment.ofText? now s
        | none => some now
      match moment? with
      | none => refuse ("invalid date '" ++ (o.value? 'd').getD "" ++ "'")
      | some m =>
        Act.print (m.written format ++ "\n")
        return 0) args

end ParseBench.Utility
