/-
  ParseBench.Proofs.Grammar.Rounds

  The FIRST and FOLLOW sets computed in rounds. Each non-terminal of the alphabet begins with an
  empty set. In a round over the rules the sets grow by what the sets so far imply, and there is
  another round as long as one of them has changed.

  The sets never get more than belongs to them (`Within`), so there is a last round
  (`exists_repeatRounds`). It changes nothing, and then no step of it does (`quiet_of_foldl`):
  the sets imply nothing that they do not have, and have all that belongs to them. So the rounds
  end with the sets that reachability gives (`exists_firstRounds`, `exists_followRounds`).
-/

import Mathlib.Data.Finset.Card
import ParseBench.Proofs.Grammar.Compile
import ParseBench.Proofs.Ordered

namespace ParseBench.Grammar

/-! ## Rounds -/

/-- The sets found so far, and whether the round has changed one. -/
structure Found where
  sets : List (Symbol × List Symbol)
  progress : Bool

namespace Found

/-- The set of a symbol. -/
def get (found : Found) (s : Symbol) : List Symbol :=
  (found.sets.lookup s).getD []

/-- The sets with that of a symbol replaced. -/
def replace (found : Found) (s : Symbol) (set : List Symbol) : Found :=
  ⟨Ordered.put s set found.sets, true⟩

/-- The sets at the beginning of a round. -/
def begun (found : Found) : Found := { found with progress := false }

/-- The empty sets, before the first round. -/
def nothing (rules : List Rule) : Found :=
  ⟨(Alphabet.ofRules rules).nonterminals.map fun s => (s, []), true⟩

end Found

/-- Rounds until one changes nothing, at most `bound` of them; `none` if they do not suffice. -/
def repeatRounds (round : Found → Found) : Nat → Found → Option Found
  | 0, _ => none
  | bound + 1, found =>
    let found := round found.begun
    if found.progress then repeatRounds round bound found else some found

/-! ## FIRST -/

/-- What the alternatives of a left-hand side begin with, by the sets so far. -/
def headSet (rules : List Rule) (found : Found) (lhs : Symbol) : List Symbol :=
  Ordered.ofList <| (heads rules lhs).flatMap fun s => if isNonterminal s then found.get s else [s]

/-- The set of a left-hand side becomes what its alternatives begin with. -/
def firstStep (rules : List Rule) (found : Found) (lhs : Symbol) : Found :=
  let union := headSet rules found lhs
  if found.sets.lookup lhs = some union then found else found.replace lhs union

/-- A round over the left-hand sides, in their order. -/
def firstRound (rules : List Rule) (found : Found) : Found :=
  (Ordered.ofList (rules.map Rule.lhs)).foldl (firstStep rules) found

/-! ## FOLLOW -/

/-- Adds a terminal to the set of a symbol. -/
def insertStep (s : Symbol) (found : Found) (t : Symbol) : Found :=
  if t ∈ found.get s then found else found.replace s (Ordered.insert t (found.get s))

/-- What a symbol begins with, by the FIRST sets of the non-terminals. -/
def following (first : List (Symbol × List Symbol)) (next : Symbol) : List Symbol :=
  if isNonterminal next then (first.lookup next).getD [] else [next]

/-- Two symbols side by side: what the second one begins with can follow the first one. -/
def pairStep (first : List (Symbol × List Symbol)) (found : Found) (pair : Symbol × Symbol) :
    Found :=
  if isNonterminal pair.1 then (following first pair.2).foldl (insertStep pair.1) found else found

/-- The last symbol of a rule: what follows the left-hand side can follow it. -/
def lastStep (found : Found) (r : Rule) : Found :=
  match r.rhs.getLast? with
  | some last =>
    if isNonterminal last then (found.get r.lhs).foldl (insertStep last) found else found
  | none => found

/-- The symbols of a rule side by side, and its last symbol. -/
def followStep (first : List (Symbol × List Symbol)) (found : Found) (r : Rule) : Found :=
  lastStep ((r.rhs.zip r.rhs.tail).foldl (pairStep first) found) r

/-- A round over the rules. -/
def followRound (rules : List Rule) (first : List (Symbol × List Symbol)) (found : Found) : Found :=
  rules.foldl (followStep first) found

/-! ## Steps of a round -/

variable {rules : List Rule} {old mid new found : Found} {α : Type}

/-- A step keeps what the sets have, and has made progress if one of them has more. -/
structure Grows (old new : Found) : Prop where
  subset : ∀ s, ∀ t ∈ old.get s, t ∈ new.get s
  quiet : new.progress = false → new = old
  gained : new.progress = true → old.progress = true ∨ ∃ s t, t ∈ new.get s ∧ t ∉ old.get s

theorem Grows.refl (found : Found) : Grows found found where
  subset _ _ ht := ht
  quiet _ := rfl
  gained := .inl

theorem Grows.trans (h : Grows old mid) (h' : Grows mid new) : Grows old new where
  subset s t ht := h'.subset s t (h.subset s t ht)
  quiet hnew := by
    obtain rfl := h'.quiet hnew
    exact h.quiet hnew
  gained hnew := by
    rcases h'.gained hnew with hmid | ⟨s, t, ht, hold⟩
    · rcases h.gained hmid with hold | ⟨s, t, ht, hold⟩
      · exact .inl hold
      · exact .inr ⟨s, t, h'.subset s t ht, hold⟩
    · exact .inr ⟨s, t, ht, fun hmem => hold (h.subset s t hmem)⟩

/-- The step keeps an invariant, and under it the sets grow. -/
def GrowsBy (inv : Found → Prop) (step : Found → Found) : Prop :=
  ∀ found, inv found → inv (step found) ∧ Grows found (step found)

theorem GrowsBy.comp {inv : Found → Prop} {step step' : Found → Found} (h : GrowsBy inv step)
    (h' : GrowsBy inv step') : GrowsBy inv fun found => step' (step found) := by
  intro found hinv
  obtain ⟨hmid, hgrows⟩ := h found hinv
  obtain ⟨hnew, hgrows'⟩ := h' (step found) hmid
  exact ⟨hnew, hgrows.trans hgrows'⟩

theorem GrowsBy.foldl {inv : Found → Prop} {step : Found → α → Found} {l : List α}
    (h : ∀ a ∈ l, GrowsBy inv (step · a)) : GrowsBy inv (l.foldl step ·) := by
  induction l with
  | nil => exact fun found hinv => ⟨hinv, .refl found⟩
  | cons a l ih =>
      obtain ⟨ha, hl⟩ := List.forall_mem_cons.1 h
      exact ha.comp (ih hl)

/-- If nothing has changed after two steps, neither of them has changed anything. -/
theorem GrowsBy.quiet_of_comp {inv : Found → Prop} {step step' : Found → Found}
    (h : GrowsBy inv step) (h' : GrowsBy inv step') (hinv : inv found)
    (hquiet : (step' (step found)).progress = false) :
    step found = found ∧ step' found = found := by
  obtain ⟨hmid, hgrows⟩ := h found hinv
  have hlater := (h' (step found) hmid).2.quiet hquiet
  rw [hlater] at hquiet
  have hstep := hgrows.quiet hquiet
  rw [hstep] at hlater
  exact ⟨hstep, hlater⟩

/-- If nothing has changed in the end, no step has changed anything. -/
theorem GrowsBy.quiet_of_foldl {inv : Found → Prop} {step : Found → α → Found} {l : List α}
    (h : ∀ a ∈ l, GrowsBy inv (step · a)) (hinv : inv found)
    (hquiet : (l.foldl step found).progress = false) : ∀ a ∈ l, step found a = found := by
  -- the steps after the first one begin with the same sets, since the first has changed none
  induction l with
  | nil => exact fun _ ha => absurd ha List.not_mem_nil
  | cons a l ih =>
      obtain ⟨ha, hl⟩ := List.forall_mem_cons.1 h
      obtain ⟨hstep, hrest⟩ := ha.quiet_of_comp (GrowsBy.foldl hl) hinv hquiet
      rw [List.foldl_cons, hstep] at hquiet
      exact List.forall_mem_cons.2 ⟨hstep, ih hl hquiet⟩

/-! ## Sets within limits -/

/-- The sets are those of the non-terminals, and have nothing that does not belong to them. -/
structure Within (rules : List Rule) (limit : Symbol → List Symbol) (found : Found) : Prop where
  keys : found.sets.map Prod.fst = (Alphabet.ofRules rules).nonterminals
  ordered : ∀ s, (found.get s).Pairwise (· < ·)
  sound : ∀ s, ∀ t ∈ found.get s, t ∈ limit s

namespace Found

theorem get_replace (found : Found) (s s' : Symbol) (set : List Symbol) :
    (found.replace s set).get s' = if s' = s then set else found.get s' := by
  rw [get, replace, Ordered.lookup_put]
  split <;> rfl

/-- A set that is replaced is progress. -/
theorem replace_ne (hprogress : found.progress = false) {s : Symbol} {set : List Symbol} :
    found.replace s set ≠ found := by
  intro hsame
  rw [← hsame] at hprogress
  cases hprogress

theorem get_nothing (rules : List Rule) (s : Symbol) : (nothing rules).get s = [] := by
  rw [get, nothing]
  by_cases hs : s ∈ (Alphabet.ofRules rules).nonterminals
  · rw [lookup_map_pair (fun _ => []) hs]
    rfl
  · have hnone : ((Alphabet.ofRules rules).nonterminals.map fun s => (s, ([] : List Symbol))).lookup
        s = none := by
      rw [List.lookup_eq_none_iff]
      intro b hb
      obtain ⟨s', hs', rfl⟩ := List.mem_map.1 hb
      simpa using fun heq : s = s' => hs (heq ▸ hs')
    rw [hnone]
    rfl

end Found

namespace Within

variable {limit : Symbol → List Symbol}

theorem pairwise_nonterminals (rules : List Rule) :
    (Alphabet.ofRules rules).nonterminals.Pairwise (· < ·) :=
  Ordered.pairwise_ofList _

theorem nothing (rules : List Rule) (limit : Symbol → List Symbol) :
    Within rules limit (Found.nothing rules) where
  keys := by
    rw [Found.nothing, List.map_map]
    exact List.map_id _
  ordered s := by
    rw [Found.get_nothing]
    exact .nil
  sound s t ht := by
    rw [Found.get_nothing] at ht
    cases ht

theorem lookup (h : Within rules limit found) {s : Symbol}
    (hs : s ∈ (Alphabet.ofRules rules).nonterminals) :
    found.sets.lookup s = some (found.get s) := by
  cases hlookup : found.sets.lookup s with
  | none =>
      rw [← h.keys] at hs
      obtain ⟨b, hb, rfl⟩ := List.mem_map.1 hs
      have hne := List.lookup_eq_none_iff.1 hlookup b hb
      simp at hne
  | some set => rw [Found.get, hlookup, Option.getD_some]

theorem mem_nonterminals (h : Within rules limit found) {s t : Symbol} (ht : t ∈ found.get s) :
    s ∈ (Alphabet.ofRules rules).nonterminals := by
  rw [← h.keys]
  cases hlookup : found.sets.lookup s with
  | none =>
      rw [Found.get, hlookup] at ht
      cases ht
  | some set =>
      obtain ⟨l₁, l₂, hsets, -⟩ := List.lookup_eq_some_iff.1 hlookup
      rw [hsets]
      simp

theorem replace (h : Within rules limit found) {s : Symbol}
    (hs : s ∈ (Alphabet.ofRules rules).nonterminals) {set : List Symbol}
    (hordered : set.Pairwise (· < ·)) (hsound : ∀ t ∈ set, t ∈ limit s) :
    Within rules limit (found.replace s set) where
  keys := by
    -- the symbol has a set already
    have hpairwise := pairwise_nonterminals rules
    rw [Found.replace, Ordered.keys_put, h.keys]
    refine Ordered.eq_of_mem_iff (Ordered.pairwise_insert hpairwise) hpairwise fun s' => ?_
    rw [Ordered.mem_insert, or_iff_right_of_imp]
    rintro rfl
    exact hs
  ordered s' := by
    rw [Found.get_replace]
    split
    · exact hordered
    · exact h.ordered s'
  sound s' t ht := by
    rw [Found.get_replace] at ht
    split at ht
    · next heq => exact heq ▸ hsound t ht
    · exact h.sound s' t ht

/-- Sets that have all that belongs to them are the limits. -/
theorem sets_eq (h : Within rules limit found) (hlimit : ∀ s, (limit s).Pairwise (· < ·))
    (hall : ∀ s, ∀ t ∈ limit s, t ∈ found.get s) :
    found.sets = (Alphabet.ofRules rules).nonterminals.map fun s => (s, limit s) := by
  have hget : ∀ s, found.get s = limit s := fun s =>
    Ordered.eq_of_mem_iff (h.ordered s) (hlimit s) fun t => ⟨h.sound s t, hall s t⟩
  rw [← h.keys, List.map_map]
  conv_lhs => rw [← List.map_id found.sets]
  refine List.map_congr_left fun b hb => ?_
  have hset : found.sets.lookup b.1 = some b.2 :=
    Ordered.lookup_eq_of_mem (h.keys ▸ (pairwise_nonterminals rules).nodup) hb
  rw [Function.comp_apply, ← hget, Found.get, hset]
  rfl

/-- What belongs to the sets of the non-terminals. -/
def pairs (rules : List Rule) (limit : Symbol → List Symbol) : Finset (Symbol × Symbol) :=
  ((Alphabet.ofRules rules).nonterminals.flatMap fun s => (limit s).map (s, ·)).toFinset

/-- What belongs to the sets and was not found so far. -/
def missing (rules : List Rule) (limit : Symbol → List Symbol) (found : Found) :
    Finset (Symbol × Symbol) :=
  (pairs rules limit).filter fun b => b.2 ∉ found.get b.1

theorem mem_missing {s t : Symbol} : (s, t) ∈ missing rules limit found ↔
    (s ∈ (Alphabet.ofRules rules).nonterminals ∧ t ∈ limit s) ∧ t ∉ found.get s := by
  simp [missing, pairs]

/-- Progress makes less be missing. -/
theorem card_missing_lt (hnew : Within rules limit new) (h : Grows old new)
    (hold : old.progress = false) (hprogress : new.progress = true) :
    (missing rules limit new).card < (missing rules limit old).card := by
  obtain ⟨s, t, ht, hnot⟩ := (h.gained hprogress).resolve_left (by simp [hold])
  refine Finset.card_lt_card ((Finset.ssubset_iff_of_subset fun b hb => ?_).2 ⟨(s, t), ?_, ?_⟩)
  · obtain ⟨hlimit, hmissing⟩ := mem_missing.1 hb
    exact mem_missing.2 ⟨hlimit, fun hmem => hmissing (h.subset b.1 b.2 hmem)⟩
  · exact mem_missing.2 ⟨⟨hnew.mem_nonterminals ht, hnew.sound s t ht⟩, hnot⟩
  · exact fun hmem => (mem_missing.1 hmem).2 ht

/-- There is a last round, since every other one adds something. -/
theorem exists_repeatRounds {inv : Found → Prop} {round : Found → Found}
    (hinv : ∀ found, inv found → Within rules limit found ∧ inv found.begun)
    (hround : GrowsBy inv round) (h : inv found) :
    ∃ bound last, repeatRounds round bound found = some last ∧ inv last ∧
      last.progress = false ∧ round last = last := by
  -- on what is still missing: a round with progress leaves less of it
  induction hcard : (missing rules limit found).card using Nat.strongRecOn generalizing found with
  | ind n ih =>
      obtain ⟨hnew, hgrows⟩ := hround found.begun (hinv found h).2
      cases hprogress : (round found.begun).progress with
      | false =>
          refine ⟨1, round found.begun, ?_, hnew, hprogress, ?_⟩
          · rw [repeatRounds]
            simp only [hprogress, Bool.false_eq_true, if_false]
          · rw [hgrows.quiet hprogress]
            exact hgrows.quiet hprogress
      | true =>
          have hless : (missing rules limit (round found.begun)).card <
              (missing rules limit found.begun).card :=
            (hinv _ hnew).1.card_missing_lt hgrows rfl hprogress
          obtain ⟨bound, last, hrounds, hlast⟩ := ih _ (hcard ▸ hless) hnew rfl
          refine ⟨bound + 1, last, ?_, hlast⟩
          rw [repeatRounds]
          simp only [hprogress, if_true]
          exact hrounds

end Within

/-! ## The rounds for FIRST -/

/-- What a left-hand side begins with is what the first symbols of its alternatives begin
    with. -/
theorem mem_firstSet_iff_heads {lhs t : Symbol} :
    t ∈ firstSet rules lhs ↔ ∃ s ∈ heads rules lhs, Begins rules s t := by
  rw [firstSet, Ordered.mem_ofList, List.mem_filter, mem_leading]
  constructor
  · rintro ⟨⟨s, hs, hreach⟩, ht⟩
    exact ⟨s, hs, begins_of_reaches (by simpa using ht) hreach⟩
  · rintro ⟨s, hs, hbegins⟩
    obtain ⟨ht, hreach⟩ := reaches_of_begins hbegins
    exact ⟨⟨s, hs, hreach⟩, by simpa using ht⟩

theorem mem_headSet {lhs t : Symbol} : t ∈ headSet rules found lhs ↔
    ∃ s ∈ heads rules lhs, if isNonterminal s then t ∈ found.get s else t = s := by
  rw [headSet, Ordered.mem_ofList, List.mem_flatMap]
  refine exists_congr fun s => and_congr_right fun _ => ?_
  split
  · exact Iff.rfl
  · exact List.mem_singleton

theorem headSet_mono (h : ∀ s, ∀ t ∈ old.get s, t ∈ new.get s) {lhs t : Symbol}
    (ht : t ∈ headSet rules old lhs) : t ∈ headSet rules new lhs := by
  obtain ⟨s, hs, hbegin⟩ := mem_headSet.1 ht
  refine mem_headSet.2 ⟨s, hs, ?_⟩
  split at hbegin
  · next hnt =>
      rw [if_pos hnt]
      exact h s t hbegin
  · next hnt => rwa [if_neg hnt]

/-- The sets during the rounds for FIRST: what is in a set is implied by the others, so a set
    that is replaced loses nothing. -/
structure FirstFound (rules : List Rule) (found : Found) : Prop where
  within : Within rules (firstSet rules) found
  implied : ∀ s, ∀ t ∈ found.get s, t ∈ headSet rules found s

theorem FirstFound.headSet_sound (h : FirstFound rules found) {lhs t : Symbol}
    (ht : t ∈ headSet rules found lhs) : t ∈ firstSet rules lhs := by
  obtain ⟨s, hs, hbegin⟩ := mem_headSet.1 ht
  refine mem_firstSet_iff_heads.2 ⟨s, hs, ?_⟩
  split at hbegin
  · next hnt => exact (mem_firstSet hnt).1 (h.within.sound s t hbegin)
  · next hnt =>
      rw [hbegin]
      exact .terminal (Bool.not_eq_true _ ▸ hnt)

theorem firstStep_grows {lhs : Symbol} (hlhs : lhs ∈ (Alphabet.ofRules rules).nonterminals) :
    GrowsBy (FirstFound rules) (firstStep rules · lhs) := by
  intro found h
  have hlookup := h.within.lookup hlhs
  by_cases hsame : found.sets.lookup lhs = some (headSet rules found lhs)
  · have hstep : firstStep rules found lhs = found := if_pos hsame
    simp only [hstep]
    exact ⟨h, .refl found⟩
  · have hstep : firstStep rules found lhs = found.replace lhs (headSet rules found lhs) :=
      if_neg hsame
    have hsubset : ∀ s, ∀ t ∈ found.get s,
        t ∈ (found.replace lhs (headSet rules found lhs)).get s := by
      intro s t ht
      rw [Found.get_replace]
      split
      · next heq => exact heq ▸ h.implied s t ht
      · exact ht
    have hwithin := h.within.replace hlhs (Ordered.pairwise_ofList _) fun t => h.headSet_sound
    simp only [hstep]
    refine ⟨⟨hwithin, fun s t ht => ?_⟩, hsubset, fun hquiet => ?_, fun _ => .inr ⟨lhs, ?_⟩⟩
    · rw [Found.get_replace] at ht
      split at ht
      · next heq => exact heq ▸ headSet_mono hsubset ht
      · exact headSet_mono hsubset (h.implied s t ht)
    · cases hquiet
    · -- a set with nothing new would be the same one, since both are in order
      by_contra hnone
      refine hsame (hlookup.trans (congrArg some ?_))
      refine Ordered.eq_of_mem_iff (h.within.ordered lhs) (Ordered.pairwise_ofList _) fun t =>
        ⟨h.implied lhs t, fun ht => ?_⟩
      by_contra hnot
      refine hnone ⟨t, ?_, hnot⟩
      rw [Found.get_replace, if_pos rfl]
      exact ht

theorem mem_nonterminals_of_mem_lhs {lhs : Symbol}
    (h : lhs ∈ Ordered.ofList (rules.map Rule.lhs)) :
    lhs ∈ (Alphabet.ofRules rules).nonterminals := by
  obtain ⟨r, hr, rfl⟩ := List.mem_map.1 (Ordered.mem_ofList.1 h)
  exact Alphabet.lhs_mem_nonterminals_ofRules hr

theorem firstRound_grows (rules : List Rule) : GrowsBy (FirstFound rules) (firstRound rules) :=
  GrowsBy.foldl fun _ hlhs => firstStep_grows (mem_nonterminals_of_mem_lhs hlhs)

theorem firstFound_nothing (rules : List Rule) : FirstFound rules (Found.nothing rules) where
  within := Within.nothing rules (firstSet rules)
  implied s t ht := by
    rw [Found.get_nothing] at ht
    cases ht

/-- Sets that a round does not change have all that begins their non-terminals. -/
theorem mem_get_of_begins (hclosed : ∀ r ∈ rules, ∀ t ∈ headSet rules found r.lhs,
    t ∈ found.get r.lhs) {s t : Symbol} (h : Begins rules s t) :
    if isNonterminal s then t ∈ found.get s else t = s := by
  induction h with
  | terminal ht => rw [ht]; rfl
  | @rule r s t hr hlhs hhead _ ih =>
      rw [if_pos hlhs]
      exact hclosed r hr t (mem_headSet.2 ⟨s, mem_heads.2 ⟨r, hr, rfl, hhead⟩, ih⟩)

/-- The FIRST sets of the non-terminals. -/
def firstSets (rules : List Rule) : List (Symbol × List Symbol) :=
  (Alphabet.ofRules rules).nonterminals.map fun s => (s, firstSet rules s)

/-- The rounds for FIRST come to an end, with the FIRST sets of all non-terminals. -/
theorem exists_firstRounds (rules : List Rule) :
    ∃ bound last, repeatRounds (firstRound rules) bound (Found.nothing rules) = some last ∧
      last.sets = firstSets rules := by
  obtain ⟨bound, last, hrounds, hlast, hprogress, hsame⟩ := Within.exists_repeatRounds
    (fun found h => ⟨h.within, ⟨⟨h.within.keys, h.within.ordered, h.within.sound⟩, h.implied⟩⟩)
    (firstRound_grows rules) (firstFound_nothing rules)
  have hquiet := GrowsBy.quiet_of_foldl
    (fun _ hlhs => firstStep_grows (mem_nonterminals_of_mem_lhs hlhs)) hlast
    ((congrArg Found.progress hsame).trans hprogress)
  have hclosed : ∀ r ∈ rules, ∀ t ∈ headSet rules last r.lhs, t ∈ last.get r.lhs := by
    intro r hr t ht
    have hstep := hquiet r.lhs (Ordered.mem_ofList.2 (List.mem_map.2 ⟨r, hr, rfl⟩))
    by_cases hset : last.sets.lookup r.lhs = some (headSet rules last r.lhs)
    · rw [Found.get, hset]
      exact ht
    · rw [firstStep, if_neg hset] at hstep
      exact absurd hstep (Found.replace_ne hprogress)
  refine ⟨bound, last, hrounds, hlast.within.sets_eq (fun _ => Ordered.pairwise_ofList _) ?_⟩
  intro lhs t ht
  obtain ⟨s, hs, hbegins⟩ := mem_firstSet_iff_heads.1 ht
  obtain ⟨r, hr, rfl, -⟩ := mem_heads.1 hs
  exact hclosed r hr t (mem_headSet.2 ⟨s, hs, mem_get_of_begins hclosed hbegins⟩)

/-! ## The rounds for FOLLOW -/

theorem Grows.insertStep (found : Found) (s t : Symbol) : Grows found (insertStep s found t) := by
  by_cases hmem : t ∈ found.get s
  · rw [ParseBench.Grammar.insertStep, if_pos hmem]
    exact .refl found
  · rw [ParseBench.Grammar.insertStep, if_neg hmem]
    refine ⟨fun s' t' ht' => ?_, fun hquiet => ?_, fun _ => .inr ⟨s, t, ?_, hmem⟩⟩
    · rw [Found.get_replace]
      split
      · next heq => exact Ordered.mem_insert.2 (.inr (heq ▸ ht'))
      · exact ht'
    · cases hquiet
    · rw [Found.get_replace, if_pos rfl]
      exact Ordered.mem_insert.2 (.inl rfl)

theorem insertStep_grows {s t : Symbol} (hs : s ∈ (Alphabet.ofRules rules).nonterminals)
    (ht : t ∈ followSet rules s) :
    GrowsBy (Within rules (followSet rules)) (insertStep s · t) := by
  refine fun found h => ⟨?_, .insertStep found s t⟩
  by_cases hmem : t ∈ found.get s
  · simp only [insertStep, if_pos hmem]
    exact h
  · simp only [insertStep, if_neg hmem]
    refine h.replace hs (Ordered.pairwise_insert (h.ordered s)) fun t' ht' => ?_
    rcases Ordered.mem_insert.1 ht' with rfl | ht'
    · exact ht
    · exact h.sound s t' ht'

/-- Terminals that a set does not change for are in it. -/
theorem mem_get_of_quiet {s : Symbol} {l : List Symbol} (hprogress : found.progress = false)
    (h : l.foldl (insertStep s) found = found) : ∀ t ∈ l, t ∈ found.get s := by
  intro t ht
  have hgrows : ∀ t ∈ l, GrowsBy (fun _ => True) (insertStep s · t) :=
    fun t _ found _ => ⟨trivial, .insertStep found s t⟩
  have hstep := GrowsBy.quiet_of_foldl hgrows trivial
    ((congrArg Found.progress h).trans hprogress) t ht
  by_contra hnot
  rw [insertStep, if_neg hnot] at hstep
  exact Found.replace_ne hprogress hstep

theorem mem_following {next t : Symbol}
    (hnext : isNonterminal next = true → next ∈ (Alphabet.ofRules rules).nonterminals) :
    t ∈ following (firstSets rules) next ↔ Begins rules next t := by
  rw [← mem_firstOf, following, firstOf]
  split
  · next hnt => rw [firstSets, lookup_map_pair _ (hnext hnt), Option.getD_some]
  · exact Iff.rfl

/-- Two symbols side by side. -/
theorem mem_zip_tail {a b : Symbol} {l : List Symbol} :
    (a, b) ∈ l.zip l.tail ↔ ∃ before after, l = before ++ a :: b :: after := by
  rw [← mem_successors]
  induction l with
  | nil => simp [successors]
  | cons c l ih =>
      cases l with
      | nil => simp [successors]
      | cons d l =>
          rw [List.tail_cons, List.zip_cons_cons, List.mem_cons, successors, Prod.mk.injEq]
          rw [List.tail_cons] at ih
          split
          · next hc => rw [List.mem_cons, ih, hc]; simp
          · next hc => rw [ih]; simp [Ne.symm hc]

theorem mem_nonterminals_of_mem_rhs {r : Rule} (hr : r ∈ rules) {s : Symbol} (hs : s ∈ r.rhs)
    (hnt : isNonterminal s = true) : s ∈ (Alphabet.ofRules rules).nonterminals :=
  Alphabet.mem_nonterminals_ofRules.2 ⟨r, hr, .inr ⟨hs, hnt⟩⟩

theorem pairStep_grows {r : Rule} (hr : r ∈ rules) {pair : Symbol × Symbol}
    (hpair : pair ∈ r.rhs.zip r.rhs.tail) :
    GrowsBy (Within rules (followSet rules)) (pairStep (firstSets rules) · pair) := by
  obtain ⟨before, after, hrhs⟩ := mem_zip_tail.1 hpair
  have hmem : pair.1 ∈ r.rhs ∧ pair.2 ∈ r.rhs := by simp [hrhs]
  by_cases hnt : isNonterminal pair.1 = true
  · have hstep : ∀ found, pairStep (firstSets rules) found pair =
        (following (firstSets rules) pair.2).foldl (insertStep pair.1) found :=
      fun found => if_pos hnt
    simp only [hstep]
    refine GrowsBy.foldl fun t ht => insertStep_grows (mem_nonterminals_of_mem_rhs hr hmem.1 hnt) ?_
    have hbegins := (mem_following fun hnext => mem_nonterminals_of_mem_rhs hr hmem.2 hnext).1 ht
    exact mem_followSet.2 (.inner hr hnt hrhs hbegins)
  · have hstep : ∀ found, pairStep (firstSets rules) found pair = found := fun found => if_neg hnt
    simp only [hstep]
    exact fun found h => ⟨h, .refl found⟩

theorem lastStep_grows {r : Rule} (hr : r ∈ rules) :
    GrowsBy (Within rules (followSet rules)) (lastStep · r) := by
  intro found h
  cases hlast : r.rhs.getLast? with
  | none =>
      simp only [lastStep, hlast]
      exact ⟨h, .refl found⟩
  | some last =>
      simp only [lastStep, hlast]
      split
      · next hnt =>
          have hmem := mem_nonterminals_of_mem_rhs hr (List.mem_of_getLast? hlast) hnt
          refine GrowsBy.foldl (fun t ht => insertStep_grows hmem ?_) found h
          exact mem_followSet.2 (.last hr hnt hlast (mem_followSet.1 (h.sound r.lhs t ht)))
      · exact ⟨h, .refl found⟩

theorem pairs_grow {r : Rule} (hr : r ∈ rules) : GrowsBy (Within rules (followSet rules))
    ((r.rhs.zip r.rhs.tail).foldl (pairStep (firstSets rules)) ·) :=
  GrowsBy.foldl fun _ hpair => pairStep_grows hr hpair

theorem followStep_grows {r : Rule} (hr : r ∈ rules) :
    GrowsBy (Within rules (followSet rules)) (followStep (firstSets rules) · r) :=
  (pairs_grow hr).comp (lastStep_grows hr)

/-- Sets that a round does not change have all that follows their non-terminals. -/
structure FollowClosed (rules : List Rule) (found : Found) : Prop where
  inner : ∀ r ∈ rules, ∀ s next t, (s, next) ∈ r.rhs.zip r.rhs.tail → isNonterminal s = true →
    t ∈ following (firstSets rules) next → t ∈ found.get s
  last : ∀ r ∈ rules, ∀ s t, r.rhs.getLast? = some s → isNonterminal s = true →
    t ∈ found.get r.lhs → t ∈ found.get s

theorem followClosed_of_quiet (h : Within rules (followSet rules) found)
    (hprogress : found.progress = false)
    (hsame : followRound rules (firstSets rules) found = found) : FollowClosed rules found := by
  have hquiet := GrowsBy.quiet_of_foldl (fun r hr => followStep_grows hr) h
    ((congrArg Found.progress hsame).trans hprogress)
  have hsteps : ∀ r ∈ rules,
      (r.rhs.zip r.rhs.tail).foldl (pairStep (firstSets rules)) found = found ∧
        lastStep found r = found := fun r hr =>
    (pairs_grow hr).quiet_of_comp (lastStep_grows hr) h
      ((congrArg Found.progress (hquiet r hr)).trans hprogress)
  constructor
  · intro r hr s next t hpair hnt ht
    have hpairStep := GrowsBy.quiet_of_foldl (fun _ hpair => pairStep_grows hr hpair) h
      ((congrArg Found.progress (hsteps r hr).1).trans hprogress) (s, next) hpair
    rw [pairStep, if_pos hnt] at hpairStep
    exact mem_get_of_quiet hprogress hpairStep t ht
  · intro r hr s t hlast hnt ht
    have hlastStep := (hsteps r hr).2
    simp only [lastStep, hlast, if_pos hnt] at hlastStep
    exact mem_get_of_quiet hprogress hlastStep t ht

theorem FollowClosed.mem_of_follows (h : FollowClosed rules found) {s t : Symbol}
    (hfollows : Follows rules s t) : t ∈ found.get s := by
  induction hfollows with
  | @inner r before after s next t hr hs hrhs ht =>
      refine h.inner r hr s next t (mem_zip_tail.2 ⟨before, after, hrhs⟩) hs ?_
      refine (mem_following fun hnext => mem_nonterminals_of_mem_rhs hr ?_ hnext).2 ht
      simp [hrhs]
  | @last r s t hr hs hrhs _ ih => exact h.last r hr s t hrhs hs ih

/-- The rounds for FOLLOW come to an end, with the FOLLOW sets of all non-terminals. -/
theorem exists_followRounds (rules : List Rule) :
    ∃ bound last, repeatRounds (followRound rules (firstSets rules)) bound (Found.nothing rules) =
        some last ∧
      last.sets = (Alphabet.ofRules rules).nonterminals.map fun s => (s, followSet rules s) := by
  obtain ⟨bound, last, hrounds, hlast, hprogress, hsame⟩ := Within.exists_repeatRounds
    (fun found h => ⟨h, ⟨h.keys, h.ordered, h.sound⟩⟩)
    (GrowsBy.foldl fun r hr => followStep_grows hr) (Within.nothing rules (followSet rules))
  have hclosed := followClosed_of_quiet hlast hprogress hsame
  refine ⟨bound, last, hrounds, hlast.sets_eq (fun _ => Ordered.pairwise_ofList _) ?_⟩
  exact fun s t ht => hclosed.mem_of_follows (mem_followSet.1 ht)

/-- The sets of a compiled grammar are those that the rounds over its rules end with. -/
theorem exists_rounds_of_compile {g : RuleSet} {start : Symbol} {c : Compiled}
    (h : (compile g start).1 = .ok c) :
    (∃ bound last, repeatRounds (firstRound c.rules) bound (Found.nothing c.rules) = some last ∧
        last.sets = c.first) ∧
      ∃ bound last, repeatRounds (followRound c.rules c.first) bound (Found.nothing c.rules) =
          some last ∧
        last.sets = c.follow := by
  obtain ⟨cleaned, -, hcleaned⟩ := compile_ok_iff.1 h
  obtain ⟨-, -, htabulate⟩ := compileCleaned_ok_iff.1 hcleaned
  obtain ⟨-, rfl⟩ := tabulate_ok_iff.1 htabulate
  exact ⟨exists_firstRounds _, exists_followRounds _⟩

end ParseBench.Grammar
