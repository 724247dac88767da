/-
  ParseBench.Text.Edits

  The least changes that lead from one sequence to another: which items go and
  which ones come. The middle of a shortest way is looked for from both ends at
  once, and the ways to it and from it are found in the same manner. In the end
  changes are moved to where they stand together.
-/

namespace ParseBench.Edits

/-- What changes: for each item of the two sequences whether it goes or comes. -/
structure Marks where
  gone : Array Bool
  come : Array Bool
  deriving Repr, Inhabited

variable {α : Type} [BEq α] [Inhabited α]

/-! ## Looking for the middle -/

/-- How far one has come on the diagonals around one, from one of the ends. -/
structure Front where
  /-- The diagonals that have been reached. -/
  least : Int
  most : Int
  reached : Int → Int

/-- The front with one diagonal changed. -/
def Front.set (f : Front) (d x : Int) : Front :=
  { f with reached := fun e => if e = d then x else f.reached e }

/-- A part of two sequences: what lies between two places of each. -/
structure Part where
  xStart : Nat
  xStop : Nat
  yStart : Nat
  yStop : Nat
  deriving Repr, Inhabited

/-- Goes forward along a diagonal as long as items are the same. -/
def slideForward (xs ys : Array α) (p : Part) (d : Int) : (bound : Nat) → Int → Int
  | 0, x => x
  | bound + 1, x =>
    let y := x - d
    if x < p.xStop && y < p.yStop && 0 ≤ y && xs[x.toNat]! == ys[y.toNat]! then
      slideForward xs ys p d bound (x + 1)
    else x

/-- Goes backward along a diagonal as long as items are the same. -/
def slideBackward (xs ys : Array α) (p : Part) (d : Int) : (bound : Nat) → Int → Int
  | 0, x => x
  | bound + 1, x =>
    let y := x - d
    if p.xStart < x && p.yStart < y && xs[(x - 1).toNat]! == ys[(y - 1).toNat]! then
      slideBackward xs ys p d bound (x - 1)
    else x

/-- What is far beyond every place. -/
def beyond : Int := 1000000000

/-- The front with one more diagonal on each side, or one less where a corner is reached. -/
def Front.widened (f : Front) (p : Part) (outside : Int) : Front :=
  let lowest : Int := p.xStart - p.yStop
  let highest : Int := p.xStop - p.yStart
  let f : Front :=
    if lowest < f.least then { f.set (f.least - 2) outside with least := f.least - 1 }
    else { f with least := f.least + 1 }
  if f.most < highest then { f.set (f.most + 2) outside with most := f.most + 1 }
  else { f with most := f.most - 1 }

/-- Takes one step forward on the diagonals from `d` down. Yields the place where the other front
    is met, if it is. -/
def stepForward (xs ys : Array α) (p : Part) (odd : Bool) (other : Front) :
    (bound : Nat) → Front → Int → Front × Option (Int × Int)
  | 0, f, _ => (f, none)
  | bound + 1, f, d =>
    if d < f.least then (f, none)
    else
      let low := f.reached (d - 1)
      let high := f.reached (d + 1)
      let x := slideForward xs ys p d p.xStop (if low < high then high else low + 1)
      let f := f.set d x
      if odd && other.least ≤ d && d ≤ other.most && other.reached d ≤ x then (f, some (x, x - d))
      else stepForward xs ys p odd other bound f (d - 2)

/-- Takes one step backward on the diagonals from `d` down. -/
def stepBackward (xs ys : Array α) (p : Part) (odd : Bool) (other : Front) :
    (bound : Nat) → Front → Int → Front × Option (Int × Int)
  | 0, f, _ => (f, none)
  | bound + 1, f, d =>
    if d < f.least then (f, none)
    else
      let low := f.reached (d - 1)
      let high := f.reached (d + 1)
      let x := slideBackward xs ys p d p.xStop (if low < high then low else high - 1)
      let f := f.set d x
      if !odd && other.least ≤ d && d ≤ other.most && x ≤ other.reached d then (f, some (x, x - d))
      else stepBackward xs ys p odd other bound f (d - 2)

/-- The place on a shortest way where the fronts from both ends meet. -/
def middle (xs ys : Array α) (p : Part) (odd : Bool) : (bound : Nat) → Front → Front → Int × Int
  | 0, _, _ => (p.xStop, p.yStop)
  | bound + 1, forward, backward =>
    let width := p.xStop + p.yStop + 2
    let forward := forward.widened p (-1)
    match stepForward xs ys p odd backward width forward forward.most with
    | (_, some place) => place
    | (forward, none) =>
      let backward := backward.widened p beyond
      match stepBackward xs ys p odd forward width backward backward.most with
      | (_, some place) => place
      | (backward, none) => middle xs ys p odd bound forward backward

/-! ## The changes -/

/-- A part without what is the same at its beginning. -/
def Part.trimmedStart (xs ys : Array α) : (bound : Nat) → Part → Part
  | 0, p => p
  | bound + 1, p =>
    if p.xStart < p.xStop && p.yStart < p.yStop && xs[p.xStart]! == ys[p.yStart]! then
      trimmedStart xs ys bound { p with xStart := p.xStart + 1, yStart := p.yStart + 1 }
    else p

/-- A part without what is the same at its end. -/
def Part.trimmedStop (xs ys : Array α) : (bound : Nat) → Part → Part
  | 0, p => p
  | bound + 1, p =>
    if p.xStart < p.xStop && p.yStart < p.yStop && xs[p.xStop - 1]! == ys[p.yStop - 1]! then
      trimmedStop xs ys bound { p with xStop := p.xStop - 1, yStop := p.yStop - 1 }
    else p

/-- The places of the two sequences that change, in a part of them. -/
def changes (xs ys : Array α) : (bound : Nat) → Part → List Nat × List Nat
  | 0, _ => ([], [])
  | bound + 1, p =>
    let p := p.trimmedStart xs ys p.xStop
    let p := p.trimmedStop xs ys p.xStop
    if p.xStart = p.xStop then
      ([], (List.range (p.yStop - p.yStart)).map (p.yStart + ·))
    else if p.yStart = p.yStop then
      ((List.range (p.xStop - p.xStart)).map (p.xStart + ·), [])
    else
      let first : Int := p.xStart - p.yStart
      let last : Int := p.xStop - p.yStop
      let forward : Front := ⟨first, first, fun d => if d = first then p.xStart else -1⟩
      let backward : Front := ⟨last, last, fun d => if d = last then p.xStop else beyond⟩
      let (x, y) := middle xs ys p ((first - last) % 2 ≠ 0) (p.xStop + p.yStop + 1) forward backward
      let (gone, come) := changes xs ys bound { p with xStop := x.toNat, yStop := y.toNat }
      let (gone', come') := changes xs ys bound { p with xStart := x.toNat, yStart := y.toNat }
      (gone ++ gone', come ++ come')

/-- The changes of two sequences. An item that the other one does not have at all changes in any
    case. -/
def compared (xs ys : Array α) : Marks :=
  let keptX := (List.range xs.size).filter fun i => ys.contains xs[i]!
  let keptY := (List.range ys.size).filter fun j => xs.contains ys[j]!
  let (gone, come) := changes (keptX.map (xs[·]!)).toArray (keptY.map (ys[·]!)).toArray
    (xs.size + ys.size + 1) ⟨0, keptX.length, 0, keptY.length⟩
  let gone := gone.map fun k => keptX.getD k 0
  let come := come.map fun k => keptY.getD k 0
  let mark (size : Nat) (kept changed : List Nat) : Array Bool :=
    ((List.range size).map fun i => !kept.contains i || changed.contains i).toArray
  ⟨mark xs.size keptX gone, mark ys.size keptY come⟩

/-! ## Moving changes -/

/-- A run of changes in one sequence, and the place in the other one. -/
structure Run where
  marks : Array Bool
  start : Int
  stop : Int
  place : Int
  /-- The last end at which something changes in the other sequence, too. -/
  fitting : Int
  deriving Inhabited

/-- Is there a mark? -/
def isMarked (marks : Array Bool) (i : Int) : Bool :=
  0 ≤ i && marks.getD i.toNat false

/-- Goes forward over marks. -/
def overMarks (marks : Array Bool) : (bound : Nat) → Int → Int
  | 0, i => i
  | bound + 1, i => if isMarked marks i then overMarks marks bound (i + 1) else i

/-- Goes backward over marks. -/
def backOverMarks (marks : Array Bool) : (bound : Nat) → Int → Int
  | 0, i => i
  | bound + 1, i => if isMarked marks i then backOverMarks marks bound (i - 1) else i

/-- Moves a run backward by one item. -/
def Run.movedBack (r : Run) (other : Array Bool) : Run :=
  let marks := (r.marks.setIfInBounds (r.start - 1).toNat true).setIfInBounds (r.stop - 1).toNat false
  let start := backOverMarks marks marks.size (r.start - 2) + 1
  { r with marks, start, stop := r.stop - 1, place := backOverMarks other other.size (r.place - 1) }

/-- Moves a run backward as long as the item before it is its last one. -/
def Run.backward (items : Array α) (other : Array Bool) : (bound : Nat) → Run → Run
  | 0, r => r
  | bound + 1, r =>
    if 0 < r.start && items[(r.start - 1).toNat]! == items[(r.stop - 1).toNat]! then
      backward items other bound (r.movedBack other)
    else r

/-- Moves a run forward as long as the item after it is its first one. -/
def Run.forward (items : Array α) (other : Array Bool) : (bound : Nat) → Run → Run
  | 0, r => r
  | bound + 1, r =>
    if r.stop < items.size && items[r.start.toNat]! == items[r.stop.toNat]! then
      let marks := (r.marks.setIfInBounds r.start.toNat false).setIfInBounds r.stop.toNat true
      let stop := overMarks marks marks.size (r.stop + 1)
      let place := overMarks other other.size (r.place + 1)
      let fitting := if place = r.place + 1 then r.fitting else stop
      forward items other bound { marks, start := r.start + 1, stop, place, fitting }
    else r

/-- Moves a run until it does not grow any more, and then back to where the other sequence
    changes, too. -/
def Run.settled (items : Array α) (other : Array Bool) : (bound : Nat) → Run → Run
  | 0, r => r
  | bound + 1, r =>
    let moved := r.backward items other items.size
    let fitting := if isMarked other (moved.place - 1) then moved.stop else items.size
    let moved := { moved with fitting }.forward items other items.size
    if moved.stop - moved.start ≠ r.stop - r.start then settled items other bound moved
    else (List.range (moved.stop - moved.fitting).toNat).foldl (fun r _ => r.movedBack other) moved

/-- Moves the runs of changes from a place on. -/
def moved (items : Array α) (other : Array Bool) : (bound : Nat) → Array Bool → (i place : Int) → Array Bool
  | 0, marks, _, _ => marks
  | bound + 1, marks, i, place =>
    if items.size ≤ i then marks
    else if !isMarked marks i then
      moved items other bound marks (i + 1) (overMarks other other.size place + 1)
    else
      let stop := overMarks marks marks.size i
      let place := overMarks other other.size place
      let r := Run.settled items other (items.size + 1) ⟨marks, i, stop, place, 0⟩
      moved items other bound r.marks r.stop r.place

/-- The least changes from one sequence to another. What is the same at both ends does not
    change. -/
def ofSequences (xs ys : Array α) : Marks :=
  let whole : Part := ⟨0, xs.size, 0, ys.size⟩
  let p := (whole.trimmedStart xs ys xs.size).trimmedStop xs ys xs.size
  let a := xs.extract p.xStart p.xStop
  let b := ys.extract p.yStart p.yStop
  let m := compared a b
  let gone := moved a m.come (a.size + 1) m.gone 0 0
  let come := moved b gone (b.size + 1) m.come 0 0
  let around (start size : Nat) (marks : Array Bool) : Array Bool :=
    Array.replicate start false ++ marks ++ Array.replicate (size - start - marks.size) false
  ⟨around p.xStart xs.size gone, around p.yStart ys.size come⟩

/-! ## Groups of changes -/

/-- Changes that stand together: items of the first sequence that go and items of the second one
    that come, each from a place up to another. -/
structure Change where
  xStart : Nat
  xStop : Nat
  yStart : Nat
  yStop : Nat
  deriving DecidableEq, Repr, Inhabited

/-- The changes from two places on. -/
def Marks.changesFrom (m : Marks) : (bound : Nat) → (x y : Nat) → List Change
  | 0, _, _ => []
  | bound + 1, x, y =>
    if m.gone.size ≤ x && m.come.size ≤ y then []
    else if m.gone.getD x false || m.come.getD y false then
      let xStop := (overMarks m.gone m.gone.size x).toNat
      let yStop := (overMarks m.come m.come.size y).toNat
      ⟨x, xStop, y, yStop⟩ :: m.changesFrom bound xStop yStop
    else m.changesFrom bound (x + 1) (y + 1)

/-- The changes in order. -/
def Marks.changes (m : Marks) : List Change :=
  m.changesFrom (m.gone.size + m.come.size + 1) 0 0

end ParseBench.Edits
