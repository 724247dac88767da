/-
  ParseBench.Host.Utility.Numbers

  Utilities that take numbers apart, and that choose among lines and numbers.
-/

import ParseBench.Host.Utility.Basic

namespace ParseBench.Utility

/-! ## Factors -/

/-- The prime factors of a number that are not less than `d`, in ascending order. A factor that
    is found is the least one left, so it is prime. -/
def factorsFrom : (bound : Nat) → (d n : Nat) → List Nat
  | 0, _, n => if n ≤ 1 then [] else [n]
  | bound + 1, d, n =>
    if n ≤ 1 then []
    else if n < d * d then [n]
    else if n % d = 0 then d :: factorsFrom bound d (n / d)
    else factorsFrom bound (d + 1) n

/-- The prime factors of a number. -/
def factorsOf (n : Nat) : List Nat :=
  factorsFrom (Nat.sqrt n + 100) 2 n

/-- Prints the prime factors of numbers. -/
def factor : Utility :=
  withOptions "factor" ⟨"h", "", [("exponents", 'h')], true⟩ 1 fun o => do
    let words ←
      if o.operands.isEmpty then
        pure (((Text.splitWhere Numeral.isBlank (← Act.readInput).toList).filter (!·.isEmpty)).map String.ofList)
      else pure o.operands
    forEach words fun word => do
      let digits := if Text.startsWith word "+" then String.ofList (word.toList.drop 1) else word
      match Numeral.plain? digits with
      | none =>
        Act.complain ("factor: '" ++ word ++ "' is not a valid positive integer")
        return 1
      | some n =>
        let factors := factorsOf n
        let shown : List String :=
          if o.has 'h' then
            factors.eraseDups.map fun f =>
              let count := factors.count f
              if count = 1 then toString f else toString f ++ "^" ++ toString count
          else factors.map toString
        Act.print (toString n ++ ":" ++ String.join (shown.map (" " ++ ·)) ++ "\n")
        return 0

/-! ## Choices -/

/-- The numbers of a range that a text says. -/
def rangeOf? (s : String) : Option (List Nat) :=
  match (Text.splitOn '-' s).map Numeral.plain? with
  | [some first, some last] =>
    if first ≤ last + 1 then some ((List.range (last + 1 - first)).map (first + ·)) else none
  | _ => none

/-- Writes lines in some order. Every order is as good as another, so they stay as they are. -/
def shuf : Utility :=
  withOptions "shuf" ⟨"erz", "nioR", [("echo", 'e'), ("input-range", 'i'), ("head-count", 'n'), ("output", 'o'),
    ("repeat", 'r'), ("zero-terminated", 'z'), ("random-source", 'R')], true⟩ 1 fun o => do
    let refuse (message : String) : Act Nat := do
      Act.complain ("shuf: " ++ message)
      return 1
    let mark := if o.has 'z' then '\x00' else '\n'
    let items : Except (Act Nat) (Act (Option (List String))) :=
      match o.value? 'i', o.operands with
      | some s, [] =>
        match rangeOf? s with
        | some numbers => .ok (pure (some (numbers.map toString)))
        | none => .error (refuse ("invalid input range: '" ++ s ++ "'"))
      | some _, extra :: _ => .error (do
          misuse "shuf" ("extra operand '" ++ extra ++ "'")
          return 1)
      | none, operands =>
        if o.has 'e' then .ok (pure (some operands))
        else
          match operands with
          | _ :: extra :: _ => .error (do
              misuse "shuf" ("extra operand '" ++ extra ++ "'")
              return 1)
          | files => .ok do
            let text ← contentOf? "shuf" (files.headD "-")
            return text.map fun text => (pieces mark text).map String.ofList
    let limits := ((o.flags.filter (·.1 == 'n')).map (·.2)).map fun s => (s, Numeral.plain? s)
    match items, limits.find? (·.2.isNone) with
    | .error act, _ => act
    | .ok _, some (s, _) => refuse ("invalid line count: '" ++ s ++ "'")
    | .ok items, none =>
      match ← items with
      | none => return 1
      | some items =>
        let limit := (limits.filterMap (·.2)).min?
        let chosen : List String :=
          if o.has 'r' then
            match items with
            | [] => []
            | first :: _ => List.replicate (limit.getD 0) first
          else items.take (limit.getD items.length)
        if o.has 'r' && items.isEmpty && limit ≠ some 0 then return ← refuse "no lines to repeat"
        let text := String.join (chosen.map (· ++ String.singleton mark))
        match o.value? 'o' with
        | none =>
          Act.print text
          return 0
        | some path =>
          match ← Act.openPath path .replace with
          | .error r => refuse (path ++ ": " ++ r.reason)
          | .ok id =>
            let _ ← Act.writeStream id Act.patience (Raw.toBytes text)
            return 0

end ParseBench.Utility
