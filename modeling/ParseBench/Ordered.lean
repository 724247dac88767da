/-
  ParseBench.Ordered

  Sets and tables as strictly ascending lists. Names are ordered by their
  characters' code points, which is also the order of their UTF-8 bytes.
-/

namespace ParseBench.Ordered

variable {α β : Type} [LT α] [DecidableLT α] [DecidableEq α]

/-! ## Sets -/

/-- The ascending list with `a` added at its place, unless it is there already. -/
def insert (a : α) : List α → List α
  | [] => [a]
  | b :: rest =>
    if a = b then b :: rest
    else if a < b then a :: b :: rest
    else b :: insert a rest

/-- The elements of a list in ascending order, each once. -/
def ofList (l : List α) : List α :=
  l.foldl (fun set a => insert a set) []

@[simp] theorem mem_insert {a b : α} {l : List α} : b ∈ insert a l ↔ b = a ∨ b ∈ l := by
  induction l with
  | nil => simp [insert]
  | cons c l ih =>
    unfold insert
    split
    · next h => subst h; simp
    · split
      · simp
      · simp only [List.mem_cons, ih]
        constructor
        · rintro (h | h | h)
          · exact .inr (.inl h)
          · exact .inl h
          · exact .inr (.inr h)
        · rintro (h | h | h)
          · exact .inr (.inl h)
          · exact .inl h
          · exact .inr (.inr h)

theorem mem_foldl_insert {b : α} {l set : List α} :
    b ∈ l.foldl (fun s a => insert a s) set ↔ b ∈ set ∨ b ∈ l := by
  induction l generalizing set with
  | nil => simp
  | cons a l ih =>
    rw [List.foldl_cons, ih, mem_insert, List.mem_cons]
    constructor
    · rintro ((h | h) | h)
      · exact .inr (.inl h)
      · exact .inl h
      · exact .inr (.inr h)
    · rintro (h | h | h)
      · exact .inl (.inr h)
      · exact .inl (.inl h)
      · exact .inr h

@[simp] theorem mem_ofList {b : α} {l : List α} : b ∈ ofList l ↔ b ∈ l := by
  simp [ofList, mem_foldl_insert]

/-! ## Tables -/

/-- The table with `key` bound to `value`, at its place in the order. -/
def put (key : α) (value : β) : List (α × β) → List (α × β)
  | [] => [(key, value)]
  | (k, v) :: rest =>
    if key = k then (key, value) :: rest
    else if key < k then (key, value) :: (k, v) :: rest
    else (k, v) :: put key value rest

/-- The bindings in ascending order of their keys. The last binding of a key wins. -/
def table (bindings : List (α × β)) : List (α × β) :=
  bindings.foldl (fun t b => put b.1 b.2 t) []

/-! ## Looking up -/

omit [LT α] [DecidableLT α] in
theorem lookup_cons [BEq α] [LawfulBEq α] (key k : α) (v : β) (rest : List (α × β)) :
    ((k, v) :: rest).lookup key = if key = k then some v else rest.lookup key := by
  by_cases h : key = k
  · subst h; simp
  · have : (key == k) = false := by simpa using h
    simp [List.lookup_cons, this, h]

omit [LT α] [DecidableLT α] in
/-- In a table with one binding for each key, a key has the value of its binding. -/
theorem lookup_eq_of_mem [BEq α] [LawfulBEq α] {t : List (α × β)} (h : (t.map Prod.fst).Nodup)
    {b : α × β} (hb : b ∈ t) : t.lookup b.1 = some b.2 := by
  induction t with
  | nil => cases hb
  | cons c t ih =>
    obtain ⟨hc, ht⟩ := List.nodup_cons.1 h
    rw [lookup_cons]
    rcases List.mem_cons.1 hb with rfl | hb
    · exact if_pos rfl
    · have hne : b.1 ≠ c.1 := fun heq => hc (heq ▸ List.mem_map_of_mem hb)
      rw [if_neg hne, ih ht hb]

theorem lookup_put [BEq α] [LawfulBEq α] (key other : α) (value : β) (t : List (α × β)) :
    (put key value t).lookup other = if other = key then some value else t.lookup other := by
  induction t with
  | nil => simp [put, lookup_cons]
  | cons b rest ih =>
    obtain ⟨k, v⟩ := b
    unfold put
    split
    · next h =>
      subst h
      simp only [lookup_cons]
      split <;> simp_all
    · next hk =>
      split
      · simp only [lookup_cons]
      · simp only [lookup_cons, ih]
        by_cases h : other = k
        · simp only [h, if_true]
          rw [if_neg (fun e => hk e.symm)]
        · simp [h]

omit [LT α] [DecidableLT α] in
theorem lookup_erase [BEq α] [LawfulBEq α] (key other : α) (t : List (α × β)) :
    (t.filter (·.1 ≠ key)).lookup other = if other = key then none else t.lookup other := by
  induction t with
  | nil => simp
  | cons b rest ih =>
    obtain ⟨k, v⟩ := b
    rw [List.filter_cons]
    by_cases hk : k = key
    · subst hk
      simp only [ne_eq, not_true, decide_false, Bool.false_eq_true, if_false, ih, lookup_cons]
      split <;> simp_all
    · simp only [ne_eq, hk, not_false_eq_true, decide_true, if_true, lookup_cons, ih]
      by_cases h : other = k
      · subst h; simp [hk]
      · simp [h]

end ParseBench.Ordered
