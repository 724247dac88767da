/-
  ParseBench.Host.Utility.Digest

  Short numbers that stand for long contents: utilities that write them, and that
  compare them with what was written before.
-/

import ParseBench.Host.Utility.Basic

namespace ParseBench.Utility

namespace Digest

/-! ## Blocks -/

/-- The words of bytes, each of four. -/
def words (bigEndian : Bool) : List UInt8 → List UInt32
  | a :: b :: c :: d :: rest =>
    let joined (a b c d : UInt8) : UInt32 :=
      a.toUInt32 <<< 24 ||| b.toUInt32 <<< 16 ||| c.toUInt32 <<< 8 ||| d.toUInt32
    (if bigEndian then joined a b c d else joined d c b a) :: words bigEndian rest
  | _ => []

/-- The bytes of a number, the highest first. -/
def bytesOf (count n : Nat) : List UInt8 :=
  (List.range count).map fun i => UInt8.ofNat (n >>> (8 * (count - 1 - i)))

/-- A content with a mark at its end and its size in bits after that, as blocks of sixteen
    words. -/
def blocks (bigEndian : Bool) (content : ByteArray) : List (Array UInt32) :=
  let size := bytesOf 8 (content.size * 8)
  let zeros := (119 - content.size % 64) % 64
  let padded := content.toList ++ [0x80] ++ List.replicate zeros 0 ++
    (if bigEndian then size else size.reverse)
  let all := (words bigEndian padded).toArray
  (List.range (all.size / 16)).map fun i => all.extract (16 * i) (16 * i + 16)

/-- A word with its bits moved around. -/
def turned (x : UInt32) (count : UInt32) : UInt32 :=
  x <<< count ||| x >>> (32 - count)

/-! ## The first algorithm -/

/-- The first 32 bits of the sines of the whole numbers from one on. -/
def sines : List UInt32 := [
  0xd76aa478, 0xe8c7b756, 0x242070db, 0xc1bdceee, 0xf57c0faf, 0x4787c62a, 0xa8304613, 0xfd469501,
  0x698098d8, 0x8b44f7af, 0xffff5bb1, 0x895cd7be, 0x6b901122, 0xfd987193, 0xa679438e, 0x49b40821,
  0xf61e2562, 0xc040b340, 0x265e5a51, 0xe9b6c7aa, 0xd62f105d, 0x02441453, 0xd8a1e681, 0xe7d3fbc8,
  0x21e1cde6, 0xc33707d6, 0xf4d50d87, 0x455a14ed, 0xa9e3e905, 0xfcefa3f8, 0x676f02d9, 0x8d2a4c8a,
  0xfffa3942, 0x8771f681, 0x6d9d6122, 0xfde5380c, 0xa4beea44, 0x4bdecfa9, 0xf6bb4b60, 0xbebfbc70,
  0x289b7ec6, 0xeaa127fa, 0xd4ef3085, 0x04881d05, 0xd9d4d039, 0xe6db99e5, 0x1fa27cf8, 0xc4ac5665,
  0xf4292244, 0x432aff97, 0xab9423a7, 0xfc93a039, 0x655b59c3, 0x8f0ccc92, 0xffeff47d, 0x85845dd1,
  0x6fa87e4f, 0xfe2ce6e0, 0xa3014314, 0x4e0811a1, 0xf7537e82, 0xbd3af235, 0x2ad7d2bb, 0xeb86d391]

/-- The state of an algorithm. -/
abbrev State := List UInt32

/-- How far words are turned in the four rounds. -/
def turns : List (List UInt32) := [[7, 12, 17, 22], [5, 9, 14, 20], [4, 11, 16, 23], [6, 10, 15, 21]]

/-- One step of the first algorithm. -/
def mixFirst (block : Array UInt32) (s : State) (i : Nat) : State :=
  match s with
  | [a, b, c, d] =>
    let (f, g) : UInt32 × Nat :=
      match i / 16 with
      | 0 => ((b &&& c) ||| (~~~b &&& d), i)
      | 1 => ((d &&& b) ||| (~~~d &&& c), (5 * i + 1) % 16)
      | 2 => (b ^^^ c ^^^ d, (3 * i + 5) % 16)
      | _ => (c ^^^ (b ||| ~~~d), 7 * i % 16)
    let turn := ((turns.getD (i / 16) []).getD (i % 4) 0)
    let sum := a + f + sines.getD i 0 + block.getD g 0
    [d, b + turned sum turn, b, c]
  | s => s

/-- The state after a block has been gone through in steps. -/
def advance (steps : Nat) (mix : State → Nat → State) (s : State) : State :=
  List.zipWith (· + ·) s ((List.range steps).foldl mix s)

/-- Words in hexadecimal digits. -/
def hex (bytes : List UInt8) : String :=
  String.ofList (bytes.flatMap fun b =>
    [Nat.digitChar (b.toNat / 16), Nat.digitChar (b.toNat % 16)])

/-- The digest of 128 bits. -/
def md5 (content : ByteArray) : String :=
  let start : State := [0x67452301, 0xefcdab89, 0x98badcfe, 0x10325476]
  let last := (blocks false content).foldl (fun s block => advance 64 (mixFirst block) s) start
  hex (last.flatMap fun w => (bytesOf 4 w.toNat).reverse)

/-! ## The later algorithms -/

/-- Adds words to a block by a rule, up to some number. -/
def extended (rule : Array UInt32 → Nat → UInt32) (count : Nat) (block : Array UInt32) : Array UInt32 :=
  (List.range (count - block.size)).foldl (fun ws _ => ws.push (rule ws ws.size)) block

/-- One step of the algorithm of 160 bits. -/
def mixSecond (ws : Array UInt32) (s : State) (i : Nat) : State :=
  match s with
  | [a, b, c, d, e] =>
    let (f, k) : UInt32 × UInt32 :=
      match i / 20 with
      | 0 => ((b &&& c) ||| (~~~b &&& d), 0x5a827999)
      | 1 => (b ^^^ c ^^^ d, 0x6ed9eba1)
      | 2 => ((b &&& c) ||| (b &&& d) ||| (c &&& d), 0x8f1bbcdc)
      | _ => (b ^^^ c ^^^ d, 0xca62c1d6)
    [turned a 5 + f + e + k + ws.getD i 0, a, turned b 30, c, d]
  | s => s

/-- The digest of 160 bits. -/
def sha1 (content : ByteArray) : String :=
  let rule (ws : Array UInt32) (i : Nat) : UInt32 :=
    let w (k : Nat) : UInt32 := ws.getD (i - k) 0
    turned (w 3 ^^^ w 8 ^^^ w 14 ^^^ w 16) 1
  let start : State := [0x67452301, 0xefcdab89, 0x98badcfe, 0x10325476, 0xc3d2e1f0]
  let last := (blocks true content).foldl
    (fun s block => advance 80 (mixSecond (extended rule 80 block)) s) start
  hex (last.flatMap fun w => bytesOf 4 w.toNat)

/-- The first prime numbers. -/
def primes (count : Nat) : List Nat :=
  ((List.range 420).filter fun n => 2 ≤ n && (List.range n).all fun d => d < 2 || n % d ≠ 0).take count

/-- The greatest number below a power of two whose power is at most `n`. -/
def root (power n : Nat) : (bits : Nat) → (found : Nat) → Nat
  | 0, found => found
  | bits + 1, found =>
    let tried := found + 2 ^ bits
    root power n bits (if tried ^ power ≤ n then tried else found)

/-- The first 32 bits after the point of the roots of prime numbers. -/
def rootBits (power count : Nat) : List UInt32 :=
  (primes count).map fun p => UInt32.ofNat (root power (p * Nat.pow 2 (32 * power)) 40 0)

/-- One step of the algorithm of 256 bits. -/
def mixThird (constants : Array UInt32) (ws : Array UInt32) (s : State) (i : Nat) : State :=
  match s with
  | [a, b, c, d, e, f, g, h] =>
    let right (x count : UInt32) : UInt32 := turned x (32 - count)
    let s1 := right e 6 ^^^ right e 11 ^^^ right e 25
    let choice := (e &&& f) ^^^ (~~~e &&& g)
    let t1 := h + s1 + choice + constants.getD i 0 + ws.getD i 0
    let s0 := right a 2 ^^^ right a 13 ^^^ right a 22
    let majority := (a &&& b) ^^^ (a &&& c) ^^^ (b &&& c)
    [t1 + s0 + majority, a, b, c, d + t1, e, f, g]
  | s => s

/-- The words after all blocks, from words at the start. -/
def thirdWords (start : State) (content : ByteArray) : State :=
  let rule (ws : Array UInt32) (i : Nat) : UInt32 :=
    let w (k : Nat) : UInt32 := ws.getD (i - k) 0
    let right (x count : UInt32) : UInt32 := turned x (32 - count)
    let s0 := right (w 15) 7 ^^^ right (w 15) 18 ^^^ w 15 >>> 3
    let s1 := right (w 2) 17 ^^^ right (w 2) 19 ^^^ w 2 >>> 10
    w 16 + s0 + w 7 + s1
  let constants := (rootBits 3 64).toArray
  (blocks true content).foldl
    (fun s block => advance 64 (mixThird constants (extended rule 64 block)) s) start

/-- The digest of 256 bits. -/
def sha256 (content : ByteArray) : String :=
  hex ((thirdWords (rootBits 2 8) content).flatMap fun w => bytesOf 4 w.toNat)

/-! ## The algorithm of long words -/

/-- The first 64 bits after the point of the roots of prime numbers. -/
def longRootBits (power count : Nat) : List UInt64 :=
  (primes count).map fun p => UInt64.ofNat (root power (p * Nat.pow 2 (64 * power)) 72 0)

/-- The digest of 224 bits, which starts with the lower halves of later roots. -/
def sha224 (content : ByteArray) : String :=
  let start := ((longRootBits 2 16).drop 8).map UInt64.toUInt32
  hex (((thirdWords start content).take 7).flatMap fun w => bytesOf 4 w.toNat)

/-- The long words of bytes. -/
def longWords (ws : List UInt32) : List UInt64 :=
  match ws with
  | high :: low :: rest => (high.toUInt64 <<< 32 ||| low.toUInt64) :: longWords rest
  | _ => []

/-- A content with a mark at its end and its size in bits after that, as blocks of sixteen long
    words. -/
def longBlocks (content : ByteArray) : List (Array UInt64) :=
  let zeros := (239 - content.size % 128) % 128
  let padded := content.toList ++ [0x80] ++ List.replicate zeros 0 ++ bytesOf 16 (content.size * 8)
  let all := (longWords (words true padded)).toArray
  (List.range (all.size / 16)).map fun i => all.extract (16 * i) (16 * i + 16)

/-- A long word with its bits moved around, to the right. -/
def turnedRight (x count : UInt64) : UInt64 :=
  x >>> count ||| x <<< (64 - count)

/-- One step of the algorithm of long words. -/
def mixLong (constants ws : Array UInt64) (s : List UInt64) (i : Nat) : List UInt64 :=
  match s with
  | [a, b, c, d, e, f, g, h] =>
    let s1 := turnedRight e 14 ^^^ turnedRight e 18 ^^^ turnedRight e 41
    let choice := (e &&& f) ^^^ (~~~e &&& g)
    let t1 := h + s1 + choice + constants.getD i 0 + ws.getD i 0
    let s0 := turnedRight a 28 ^^^ turnedRight a 34 ^^^ turnedRight a 39
    let majority := (a &&& b) ^^^ (a &&& c) ^^^ (b &&& c)
    [t1 + s0 + majority, a, b, c, d + t1, e, f, g]
  | s => s

/-- A digest of long words, some bytes of it, from words at the start. -/
def shaLong (start : List UInt64) (size : Nat) (content : ByteArray) : String :=
  let extend (block : Array UInt64) : Array UInt64 :=
    (List.range 64).foldl (fun ws _ =>
      let w (k : Nat) : UInt64 := ws.getD (ws.size - k) 0
      let s0 := turnedRight (w 15) 1 ^^^ turnedRight (w 15) 8 ^^^ w 15 >>> 7
      let s1 := turnedRight (w 2) 19 ^^^ turnedRight (w 2) 61 ^^^ w 2 >>> 6
      ws.push (w 16 + s0 + w 7 + s1)) block
  let constants := (longRootBits 3 80).toArray
  let last := (longBlocks content).foldl (fun s block =>
    List.zipWith (· + ·) s ((List.range 80).foldl (mixLong constants (extend block)) s)) start
  hex ((last.flatMap fun w => bytesOf 8 w.toNat).take size)

/-- The digest of 512 bits. -/
def sha512 (content : ByteArray) : String :=
  shaLong (longRootBits 2 8) 64 content

/-- The digest of 384 bits. -/
def sha384 (content : ByteArray) : String :=
  shaLong ((longRootBits 2 16).drop 8) 48 content

/-! ## Sums -/

/-- A remainder with one more byte. -/
def remainder (crc : UInt32) (byte : UInt8) : UInt32 :=
  (List.range 8).foldl (fun (crc : UInt32) _ =>
    if crc &&& 0x80000000 = 0 then crc <<< 1 else crc <<< 1 ^^^ 0x04c11db7)
    (crc ^^^ byte.toUInt32 <<< 24)

/-- The bytes of a size, the lowest first and as many as are needed. -/
def sizeBytes : (bound : Nat) → Nat → List UInt8
  | 0, _ => []
  | bound + 1, n => if n = 0 then [] else UInt8.ofNat n :: sizeBytes bound (n / 256)

/-- The remainder of a content and its size. -/
def crc (content : ByteArray) : UInt32 :=
  ~~~((content.toList ++ sizeBytes 8 content.size).foldl remainder 0)

/-- The sum of the bytes of a content, turned in between. -/
def turnedSum (content : ByteArray) : Nat :=
  content.toList.foldl (fun sum b => (sum / 2 + sum % 2 * 0x8000 + b.toNat) % 0x10000) 0

/-! ## Utilities -/

/-- A file name on a line of its own. -/
def escaped (name : String) : String :=
  let chars := name.toList
  if chars.any fun c => c == '\\' || c == '\n' || c == '\r' then
    String.ofList (chars.flatMap fun c =>
      match c with
      | '\\' => ['\\', '\\']
      | '\n' => ['\\', 'n']
      | '\r' => ['\\', 'r']
      | c => [c])
  else name

/-- What an escaped file name stands for. -/
def unescaped : List Char → List Char
  | '\\' :: 'n' :: rest => '\n' :: unescaped rest
  | '\\' :: 'r' :: rest => '\r' :: unescaped rest
  | '\\' :: c :: rest => c :: unescaped rest
  | c :: rest => c :: unescaped rest
  | [] => []

/-- A kind of digest. -/
structure Kind where
  /-- The utility that writes it. -/
  name : String
  /-- What it is called on tagged lines. -/
  tag : String
  of : ByteArray → String

/-- The name and the digest on a line. Both ways of writing them can be read. -/
def Kind.line? (k : Kind) (l : List Char) : Option (String × String) :=
  let (isEscaped, l) : Bool × List Char :=
    match l with
    | '\\' :: rest => (true, rest)
    | l => (false, l)
  let nameOf (s : List Char) : String := String.ofList (if isEscaped then unescaped s else s)
  let length := (k.of .empty).length
  let isDigest (s : List Char) : Bool :=
    s.length = length && s.all fun c => c.isDigit || ('a' ≤ c.toLower && c.toLower ≤ 'f')
  match Text.dropLead? (k.tag ++ " (") (String.ofList l) with
  | some rest =>
    let rest := rest.toList
    let digest := (rest.reverse.takeWhile (· ≠ ' ')).reverse
    let name := rest.take (rest.length - digest.length - 4)
    if isDigest digest && rest.drop name.length == ") = ".toList ++ digest then
      some (nameOf name, String.ofList digest)
    else none
  | none =>
    let digest := l.takeWhile (· ≠ ' ')
    match l.drop digest.length with
    | ' ' :: ' ' :: name | ' ' :: '*' :: name =>
      if isDigest digest then some (nameOf name, String.ofList digest) else none
    | _ => none

/-- A count of things, in words. -/
def counted (n : Nat) (one many : String) : String :=
  toString n ++ " " ++ if n = 1 then one else many

/-- What came out of comparing. -/
structure Tally where
  verified : Nat := 0
  failed : Nat := 0
  unread : Nat := 0
  deriving Repr, Inhabited

/-- Compares files with the digests that were written before. -/
def check (k : Kind) (o : Options) (list : String) : Act Nat := do
  let name := k.name
  match ← contentOf? name list with
  | none => return 1
  | some text =>
    let shown := if list = "-" then "'standard input'" else list
    -- a line that begins with a number sign is a remark
    let ls := (lines text).zipIdx.filter fun e => e.1.head? ≠ some '#'
    let malformed := ls.filter fun e => (k.line? e.1).isNone
    let entries := ls.filterMap fun e => k.line? e.1
    if entries.isEmpty then
      Act.complain (name ++ ": " ++ shown ++ ": no properly formatted checksum lines found")
      return 1
    let quiet := o.has 's'
    if o.has 'w' then
      for (_, i) in malformed do
        Act.complain (name ++ ": " ++ shown ++ ": " ++ toString (i + 1) ++ ": improperly formatted " ++
          k.tag ++ " checksum line")
    let tally ← entries.foldlM (fun (t : Tally) (file, wanted) => do
      if o.has 'I' && ((← get).node? file).isNone then return t
      match ← contentOf? name file with
      | none =>
        if !quiet then Act.print (escaped file ++ ": FAILED open or read\n")
        return { t with unread := t.unread + 1 }
      | some content =>
        let isSame := k.of (Raw.toBytes content) == wanted.map Char.toLower
        if !quiet && !(isSame && o.has 'q') then
          Act.print (escaped file ++ (if isSame then ": OK\n" else ": FAILED\n"))
        return if isSame then { t with verified := t.verified + 1 } else { t with failed := t.failed + 1 }) {}
    let failed := tally.failed
    let unread := tally.unread
    if !quiet then
      if !malformed.isEmpty then
        Act.complain (name ++ ": WARNING: " ++ counted malformed.length "line is" "lines are" ++
          " improperly formatted")
      if unread ≠ 0 then
        Act.complain (name ++ ": WARNING: " ++ counted unread "listed file" "listed files" ++
          " could not be read")
      if failed ≠ 0 then
        Act.complain (name ++ ": WARNING: " ++ counted failed "computed checksum" "computed checksums" ++
          " did NOT match")
      if o.has 'I' && tally.verified = 0 then
        Act.complain (name ++ ": " ++ shown ++ ": no file was verified")
    let isFine := failed + unread = 0 && !(o.has 'S' && !malformed.isEmpty) &&
      !(o.has 'I' && tally.verified = 0)
    return if isFine then 0 else 1

/-- The utility that writes digests. -/
def utility (k : Kind) : Utility :=
  withOptions k.name ⟨"bctwz", "", [("check", 'c'), ("status", 's'), ("quiet", 'q'), ("binary", 'b'),
    ("text", 't'), ("zero", 'z'), ("tag", 'T'), ("warn", 'w'), ("strict", 'S'),
    ("ignore-missing", 'I')], true⟩ 1 fun o => do
    if o.has 'c' then
      forEach (if o.operands.isEmpty then ["-"] else o.operands) (check k o)
    else
      forContents k.name o.operands fun file content =>
        let digest := k.of (Raw.toBytes content)
        let shown := if o.has 'z' then file else escaped file
        Act.print ((if shown = file then "" else "\\") ++
          (if o.has 'T' then k.tag ++ " (" ++ shown ++ ") = " ++ digest
          else digest ++ (if o.has 'b' then " *" else "  ") ++ shown) ++
          if o.has 'z' then "\x00" else "\n")

/-- The kinds of digests. -/
def kinds : List Kind := [
  ⟨"md5sum", "MD5", md5⟩, ⟨"sha1sum", "SHA1", sha1⟩, ⟨"sha224sum", "SHA224", sha224⟩,
  ⟨"sha256sum", "SHA256", sha256⟩, ⟨"sha384sum", "SHA384", sha384⟩, ⟨"sha512sum", "SHA512", sha512⟩]

end Digest

/-- Writes remainders and sizes. -/
def cksum : Utility :=
  withOptions "cksum" {plain := ""} 1 fun o =>
    forContents "cksum" o.operands fun file content => do
      let bytes := Raw.toBytes content
      Act.print (toString (Digest.crc bytes).toNat ++ " " ++ toString bytes.size ++
        (if o.operands.isEmpty then "" else " " ++ file) ++ "\n")

/-- Writes sums and sizes. -/
def sum : Utility :=
  withOptions "sum" {plain := "rs", long := [("sysv", 's')]} 1 fun o =>
    forContents "sum" o.operands fun file content => do
      let bytes := Raw.toBytes content
      let name := if o.operands.isEmpty then "" else " " ++ file
      if o.has 's' then
        let total := bytes.toList.foldl (fun (n : Nat) b => n + b.toNat) 0 % 0x100000000
        let folded := total % 65536 + total / 65536
        Act.print (toString (folded % 65536 + folded / 65536) ++ " " ++
          toString ((bytes.size + 511) / 512) ++ name ++ "\n")
        return
      let padded (fill : Char) (n : Nat) : String :=
        let s := toString n
        String.ofList (List.replicate (5 - s.length) fill) ++ s
      Act.print (padded '0' (Digest.turnedSum bytes) ++ " " ++ padded ' ' ((bytes.size + 1023) / 1024) ++
        name ++ "\n")

/-! ## Six bits to a letter -/

/-- The letters for six bits. -/
def sixBitLetters : Array Char :=
  "ABCDEFGHIJKLMNOPQRSTUVWXYZabcdefghijklmnopqrstuvwxyz0123456789+/".toList.toArray

/-- The letters of bytes, four for three, the last ones filled up. -/
def sixBitText : List UInt8 → List Char
  | a :: b :: c :: rest =>
    let n := a.toNat * 65536 + b.toNat * 256 + c.toNat
    let letter (k : Nat) : Char := sixBitLetters.getD (n / 64 ^ k % 64) '='
    letter 3 :: letter 2 :: letter 1 :: letter 0 :: sixBitText rest
  | [a, b] =>
    let n := a.toNat * 65536 + b.toNat * 256
    let letter (k : Nat) : Char := sixBitLetters.getD (n / 64 ^ k % 64) '='
    [letter 3, letter 2, letter 1, '=']
  | [a] =>
    let n := a.toNat * 65536
    let letter (k : Nat) : Char := sixBitLetters.getD (n / 64 ^ k % 64) '='
    [letter 3, letter 2, '=', '=']
  | [] => []

/-- The bytes of letters, and whether they could all be read. -/
def sixBitBytes : (bound : Nat) → List Char → List UInt8 × Bool
  | 0, _ => ([], true)
  | _ + 1, [] => ([], true)
  | bound + 1, s =>
    let group := s.take 4
    let kept := group.takeWhile fun c => (sixBitLetters.idxOf? c).isSome
    let values := kept.filterMap sixBitLetters.idxOf?
    let n := values.foldl (fun n v => n * 64 + v) 0 * 64 ^ (4 - values.length)
    let bytes := (Digest.bytesOf 3 n).take (values.length * 6 / 8)
    let isWhole := values.length = kept.length && group.length = 4 && kept.length ≥ 2 &&
      (group.drop kept.length).all (· == '=')
    if !isWhole then (bytes, false)
    else
      let (rest, ok) := sixBitBytes bound (s.drop 4)
      (bytes ++ rest, ok)

/-- A text in lines of some width. -/
def wrapped (width : Nat) : (bound : Nat) → List Char → List Char
  | 0, _ => []
  | bound + 1, s =>
    if s.isEmpty then [] else s.take width ++ '\n' :: wrapped width bound (s.drop width)

/-- Writes contents in letters, or letters as what they stand for. -/
def base64 : Utility :=
  withOptions "base64" ⟨"di", "w", [("decode", 'd'), ("wrap", 'w'), ("ignore-garbage", 'i')], true⟩ 1
    fun o => do
      let asked := (o.value? 'w').getD "76"
      if (Numeral.plain? asked).isNone then
        Act.complain ("base64: invalid wrap size: '" ++ asked ++ "'")
        return 1
      let width := (Numeral.plain? asked).getD 76
      match o.operands with
      | _ :: extra :: _ =>
        misuse "base64" ("extra operand '" ++ extra ++ "'")
        return 1
      | operands =>
        match ← contentOf? "base64" (operands.headD "-") with
        | none => return 1
        | some text =>
          if o.has 'd' then
            let letters := text.toList.filter fun c =>
              c ≠ '\n' && (!o.has 'i' || c == '=' || (sixBitLetters.idxOf? c).isSome)
            let (bytes, ok) := sixBitBytes (letters.length + 1) letters
            Act.printBytes ⟨bytes.toArray⟩
            if ok then return 0
            Act.complain "base64: invalid input"
            return 1
          else
            let letters := sixBitText (Raw.toBytes text).toList
            Act.print (String.ofList
              (if width = 0 then letters else wrapped width (letters.length + 1) letters))
            return 0

end ParseBench.Utility
