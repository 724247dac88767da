/-
  ParseBench.Proofs.CommandLine.Reading

  Command lines of a command that hands words on. A piece of such a line gives an option
  its value, in one word or in two, or turns a switch on. `IsDocumented` is what the
  documentation of command lines says of a name, pieces, two dashes and more words:
  an option has the value of its piece, one without a piece has the value of its variable
  or else its default, and the words after the dashes are handed on. The reader here reads
  lines so (`reader_isDocumented`): one piece adds its values to what was found
  (`readWords_piece`), and so does each of them in turn (`readWords_pieces`).
-/

import Mathlib.Data.List.Nodup
import Mathlib.Data.List.TakeWhile
import ParseBench.Ordered
import ParseBench.Proofs.CommandLine.Written

namespace ParseBench.CommandLine

/-! ## Pieces -/

/-- A part of a command line that gives an option its value or turns a switch on. -/
inductive Piece where
  /-- Written `--name=value`. -/
  | joined (name value : String)
  /-- Written `--name value`. -/
  | apart (name value : String)
  /-- Written `--name`. -/
  | switch (name : String)
  deriving DecidableEq

namespace Piece

def words : Piece → List String
  | joined name value => [written (name, value)]
  | apart name value => ["--" ++ name, value]
  | switch name => ["--" ++ name]

def name : Piece → String
  | joined name _ | apart name _ | switch name => name

def values : Piece → List String
  | joined _ value | apart _ value => [value]
  | switch _ => []

/-- The piece suits the argument. A value in a word of its own does not look like an option. -/
def Suits (a : Argument) : Piece → Prop
  | joined _ value => a.arity = .one ∧ a.type.fault? a.name value = none
  | apart _ value =>
    a.arity = .one ∧ a.type.fault? a.name value = none ∧ value.toList.head? ≠ some '-'
  | switch _ => a.arity = .switch

/-- What a piece adds to what was found. -/
def binding (piece : Piece) : String × List String :=
  (piece.name, piece.values)

end Piece

/-- The command has an option that the piece suits. -/
structure Signature.Takes (s : Signature) (piece : Piece) : Prop where
  name : IsOptionName piece.name
  ne_empty : piece.name ≠ ""
  ne_help : piece.name ≠ "help"
  suits : ∃ a, s.option? piece.name = some a ∧ piece.Suits a

/-! ## What is documented -/

/-- The command line of a command that hands words on, where each option has one piece at most
    and the required ones have theirs. -/
structure IsLine (commands : List (String × Signature)) (environment : Environment)
    (command : String) (signature : Signature) (pieces : List Piece) : Prop where
  known : commands.lookup command = some signature
  ne_help : command ≠ "help"
  word : command.toList.head? ≠ some '-'
  handsOn : signature.handsOn = true
  options : (signature.options.map Argument.name).Nodup
  takes : ∀ piece ∈ pieces, signature.Takes piece
  once : (pieces.map Piece.name).Nodup
  required : ∀ name ∈ signature.required, name ∈ pieces.map Piece.name
  /-- What stands in for an option is a value of its type. -/
  fits : ∀ a ∈ signature.options, ∀ value, a.standIn? environment = some value →
    a.type.fault? a.name value = none

/-- What was read of such a line. -/
structure IsRead (environment : Environment) (signature : Signature) (pieces : List Piece)
    (trailing : List String) (a : Arguments) : Prop where
  given : ∀ piece ∈ pieces, a.found.lookup piece.name = some piece.values
  others : ∀ argument ∈ signature.options, argument.name ∉ pieces.map Piece.name →
    a.found.lookup argument.name = (argument.standIn? environment).map ([·])
  trailing : a.trailing = trailing

/-- What the documentation of command lines says of a reader. -/
def Reader.IsDocumented (reader : Reader) : Prop :=
  ∀ {commands environment command signature pieces},
    IsLine commands environment command signature pieces → ∀ trailing,
      ∃ a, reader commands environment (command :: (pieces.flatMap Piece.words ++
          "--" :: trailing)) = .ok (command, a) ∧
        IsRead environment signature pieces trailing a

/-! ## Words -/

theorem form_name {name : String} (h : IsOptionName name) :
    Form.of ("--" ++ name) = .long name none := by
  have hword : ("--" ++ name).toList = '-' :: '-' :: name.toList := by
    simp [String.toList_append]
  have hname : ∀ c ∈ name.toList, decide (c ≠ '=') = true := by
    intro c hc
    rw [decide_eq_true_eq]
    rintro rfl
    exact h hc
  have htake : name.toList.takeWhile (fun c => decide (c ≠ '=')) = name.toList :=
    List.takeWhile_eq_self_iff.2 hname
  have hdrop : name.toList.dropWhile (fun c => decide (c ≠ '=')) = [] :=
    List.dropWhile_eq_nil_iff.2 hname
  unfold Form.of
  rw [hword]
  simp only [htake, hdrop, String.ofList_toList]

theorem form_plain {word : String} (h : word.toList.head? ≠ some '-') :
    Form.of word = .plain := by
  unfold Form.of
  split
  · next hword => simp [hword] at h
  · next hword => simp [hword] at h
  · rfl

theorem name_ne_dashes {name : String} (h : name ≠ "") : "--" ++ name ≠ "--" := by
  intro heq
  have hlist := congrArg String.toList heq
  simp [String.toList_append] at hlist
  exact h hlist

theorem ne_dashes {word : String} (h : word.toList.head? ≠ some '-') : word ≠ "--" := by
  rintro rfl
  exact h rfl

/-! ## Pieces one after the other -/

namespace Signature

variable {s : Signature} {p q : Progress} {piece : Piece}
  {found : List (String × List String)}

/-- New values of an argument that fit are found. -/
theorem record_eq {a : Argument} (values : List String) (hfresh : p.values? a.name = none)
    (hvalues : values ≠ [] ∨ a.arity = .switch)
    (hfault : ∀ value ∈ values, a.type.fault? a.name value = none) :
    p.record a values = .ok { p with found := (a.name, values) :: p.found } := by
  have hnone : values.findSome? (a.type.fault? a.name) = none :=
    List.findSome?_eq_none_iff.2 hfault
  have hgiven : (values.isEmpty && decide (a.arity ≠ .switch)) = false := by
    rcases hvalues with hne | hswitch
    · simp [hne]
    · simp [hswitch]
  unfold Progress.record
  rw [hgiven, hfresh, hnone]
  simp

/-- A word that is an option settles what came before it. -/
theorem complete_eq {a : Argument} {values : List String} (hp : p.settle = .ok q) :
    p.complete a values = q.record a values := by
  rw [Progress.complete, hp]
  rfl

/-- A piece adds its values to what was found. A value in a word of its own is looked at later. -/
theorem readWords_piece (hpiece : s.Takes piece) (hp : p.settle = .ok { found })
    (hfresh : found.lookup piece.name = none) (rest : List String) :
    ∃ p', s.readWords p (piece.words ++ rest) = s.readWords p' rest ∧
      p'.settle = .ok { found := piece.binding :: found } := by
  obtain ⟨hname, hempty, hhelp, a, ha, hsuits⟩ := hpiece
  have hsame : a.name = piece.name := by simpa using List.find?_some ha
  have hvalues : Progress.values? { found } a.name = none := by
    rw [Progress.values?, hsame, hfresh]
  cases piece with
  | joined name value =>
      simp only [Piece.name] at hname hempty hhelp ha hsame
      obtain ⟨harity, hfault⟩ := hsuits
      have hrecord := record_eq [value] hvalues (.inl (List.cons_ne_nil _ _))
        (List.forall_mem_singleton.2 hfault)
      refine ⟨{ found := (name, [value]) :: found }, ?_, rfl⟩
      have hword : s.readWord p (written (name, value)) =
          .ok { found := (name, [value]) :: found } := by
        rw [readWord, form_written hname]
        simp only [readLong, if_neg hhelp, ha, harity, complete_eq hp]
        rw [hrecord, hsame]
      rw [Piece.words, List.singleton_append, readWords, if_neg (written_ne (by decide) _), hword]
      rfl
  | apart name value =>
      simp only [Piece.name] at hname hempty hhelp ha hsame
      obtain ⟨harity, hfault, hvalue⟩ := hsuits
      have hrecord := record_eq [value] hvalues (.inl (List.cons_ne_nil _ _))
        (List.forall_mem_singleton.2 hfault)
      refine ⟨{ found, pending := some (a, [value]) }, ?_, ?_⟩
      · have hword : s.readWord p ("--" ++ name) =
            .ok { found, pending := some (a, []), awaiting := true } := by
          rw [readWord, form_name hname]
          simp only [readLong, if_neg hhelp, ha, harity, Progress.begin, hp]
          rfl
        have hnext : s.readWord { found, pending := some (a, []), awaiting := true } value =
            .ok { found, pending := some (a, [value]) } := by
          rw [readWord, form_plain hvalue]
          simp [readPlain, Progress.extend?, harity]
        rw [Piece.words, List.cons_append, readWords, if_neg (name_ne_dashes hempty), hword]
        refine Eq.trans ?_ (congrArg (· >>= fun p => s.readWords p rest) hnext)
        rw [List.singleton_append]
        show s.readWords _ (value :: rest) = _
        rw [readWords, if_neg (ne_dashes hvalue)]
      · refine hrecord.trans ?_
        rw [hsame]
        rfl
  | switch name =>
      simp only [Piece.name] at hname hempty hhelp ha hsame
      have hrecord := record_eq [] hvalues (.inr hsuits) nofun
      refine ⟨{ found := (name, []) :: found }, ?_, rfl⟩
      have hword : s.readWord p ("--" ++ name) = .ok { found := (name, []) :: found } := by
        have harity : a.arity = .switch := hsuits
        rw [readWord, form_name hname]
        simp only [readLong, if_neg hhelp, ha, harity, complete_eq hp]
        rw [hrecord, hsame]
      rw [Piece.words, List.singleton_append, readWords, if_neg (name_ne_dashes hempty), hword]
      rfl

/-- The pieces of a line add their values in turn. -/
theorem readWords_pieces {pieces : List Piece} (hall : ∀ piece ∈ pieces, s.Takes piece)
    (honce : (pieces.map Piece.name).Nodup) (hp : p.settle = .ok { found })
    (hfresh : ∀ piece ∈ pieces, found.lookup piece.name = none) (rest : List String) :
    ∃ p', s.readWords p (pieces.flatMap Piece.words ++ rest) = s.readWords p' rest ∧
      p'.settle = .ok { found := (pieces.map Piece.binding).reverse ++ found } := by
  induction pieces generalizing p found with
  | nil => exact ⟨p, rfl, hp⟩
  | cons piece pieces ih =>
      obtain ⟨hpiece, hall⟩ := List.forall_mem_cons.1 hall
      obtain ⟨hfirst, hfresh⟩ := List.forall_mem_cons.1 hfresh
      rw [List.map_cons, List.nodup_cons] at honce
      obtain ⟨p', hread, hp'⟩ :=
        readWords_piece hpiece hp hfirst (pieces.flatMap Piece.words ++ rest)
      have hlater : ∀ other ∈ pieces, (piece.binding :: found).lookup other.name = none := by
        intro other hother
        have hne : other.name ≠ piece.name :=
          fun h => honce.1 (h ▸ List.mem_map.2 ⟨other, hother, rfl⟩)
        rw [Piece.binding, List.lookup_cons, beq_false_of_ne hne]
        exact hfresh other hother
      obtain ⟨p'', hreads, hp''⟩ := ih hall honce.2 hp' hlater
      refine ⟨p'', ?_, ?_⟩
      · rw [List.flatMap_cons, List.append_assoc, hread, hreads]
      · rw [hp'', List.map_cons, List.reverse_cons, List.append_assoc, List.singleton_append]

/-! ## Values and what stands in for them -/

section Bindings

variable {pieces : List Piece}

theorem lookup_bindings (honce : (pieces.map Piece.name).Nodup) (hpiece : piece ∈ pieces) :
    (pieces.map Piece.binding).reverse.lookup piece.name = some piece.values := by
  have hnodup : ((pieces.map Piece.binding).reverse.map Prod.fst).Nodup := by
    rw [List.map_reverse, List.map_map, List.nodup_reverse]
    exact honce
  exact Ordered.lookup_eq_of_mem (b := piece.binding) hnodup
    (List.mem_reverse.2 (List.mem_map.2 ⟨piece, hpiece, rfl⟩))

theorem lookup_bindings_eq_none {name : String} (h : name ∉ pieces.map Piece.name) :
    (pieces.map Piece.binding).reverse.lookup name = none := by
  refine List.lookup_eq_none_iff.2 fun b hb => ?_
  obtain ⟨other, hother, rfl⟩ := List.mem_map.1 (List.mem_reverse.1 hb)
  rw [bne_iff_ne]
  rintro rfl
  exact h (List.mem_map.2 ⟨other, hother, rfl⟩)

end Bindings

theorem mem_standIns {environment : Environment} {b : String × List String} :
    b ∈ s.standIns environment p ↔ ∃ a ∈ s.options, p.values? a.name = none ∧
      ∃ value, a.standIn? environment = some value ∧ b = (a.name, [value]) := by
  simp only [standIns, List.mem_filterMap, List.mem_filter, Option.isNone_iff_eq_none,
    Option.map_eq_some_iff, and_assoc, eq_comm (b := b)]

theorem names_standIns_sublist (environment : Environment) :
    ((s.standIns environment p).map Prod.fst).Sublist (s.options.map Argument.name) := by
  unfold standIns
  induction s.options with
  | nil => exact .slnil
  | cons a options ih =>
      rw [List.filter_cons]
      split
      · rw [List.filterMap_cons]
        cases a.standIn? environment with
        | none => exact ih.cons _
        | some value => exact ih.cons_cons _
      · exact ih.cons _

/-- An option without a value has the one that stands in for it, if there is one. -/
theorem lookup_standIns {environment : Environment} {a : Argument}
    (hoptions : (s.options.map Argument.name).Nodup) (ha : a ∈ s.options)
    (hvalues : p.values? a.name = none) :
    (s.standIns environment p).lookup a.name = (a.standIn? environment).map ([·]) := by
  cases hstandIn : a.standIn? environment with
  | some value =>
      exact Ordered.lookup_eq_of_mem (b := (a.name, [value]))
        (hoptions.sublist (names_standIns_sublist environment))
        (mem_standIns.2 ⟨a, ha, hvalues, value, hstandIn, rfl⟩)
  | none =>
      refine List.lookup_eq_none_iff.2 fun b hb => ?_
      obtain ⟨other, hother, -, value, hvalue, rfl⟩ := mem_standIns.1 hb
      rw [bne_iff_ne]
      intro hname
      obtain rfl := List.inj_on_of_nodup_map hoptions ha hother hname
      cases hstandIn.symm.trans hvalue

/-! ## A whole line -/

theorem record_with_trailing {a : Argument} {values : List String} (trailing : List String)
    (h : p.record a values = .ok q) :
    { p with trailing }.record a values = .ok { q with trailing } := by
  unfold Progress.record Progress.values? at h ⊢
  dsimp only at h ⊢
  split at h
  · cases h
  · split at h
    · cases h
    · next hgiven hfresh =>
        rw [if_neg hgiven, if_neg hfresh]
        split at h
        · cases h
        · cases h
          rfl

/-- Words that are handed on have no part in what was found. -/
theorem settle_with_trailing (trailing : List String) (h : p.settle = .ok q) :
    { p with trailing }.settle = .ok { q with trailing } := by
  obtain ⟨found, pending, awaiting, taken, before⟩ := p
  cases pending with
  | none =>
      cases h
      rfl
  | some pending => exact record_with_trailing trailing h

theorem read_pieces {pieces : List Piece} (hall : ∀ piece ∈ pieces, s.Takes piece)
    (honce : (pieces.map Piece.name).Nodup) (hhandsOn : s.handsOn = true)
    (hrequired : ∀ name ∈ s.required, name ∈ pieces.map Piece.name) (trailing : List String) :
    s.read (pieces.flatMap Piece.words ++ "--" :: trailing) =
      .ok { found := (pieces.map Piece.binding).reverse, trailing } := by
  have hstart : Progress.settle {} = .ok {} := rfl
  obtain ⟨p, hread, hp⟩ := readWords_pieces hall honce hstart (fun _ _ => rfl) ("--" :: trailing)
  rw [List.append_nil] at hp
  have htrailing : ∃ p', s.readTrailing p trailing = .ok p' ∧
      p'.settle = .ok { found := (pieces.map Piece.binding).reverse, trailing } := by
    cases trailing with
    | nil => exact ⟨p, rfl, hp⟩
    | cons word rest =>
        exact ⟨_, by rw [readTrailing, if_pos hhandsOn], settle_with_trailing (word :: rest) hp⟩
  obtain ⟨p', hread', hp'⟩ := htrailing
  have hmissing : s.required.filter (fun name => (Progress.values?
      { found := (pieces.map Piece.binding).reverse, trailing } name).isNone) = [] := by
    refine List.filter_eq_nil_iff.2 fun name hname => ?_
    obtain ⟨piece, hpiece, rfl⟩ := List.mem_map.1 (hrequired name hname)
    rw [Progress.values?, lookup_bindings honce hpiece]
    exact Bool.false_ne_true
  rw [read, hread, readWords, if_pos rfl, hread']
  simp only [bind, Except.bind, hp', hmissing]
  rfl

end Signature

theorem reader_isDocumented : reader.IsDocumented := by
  intro commands environment command signature pieces h trailing
  have hread : reader commands environment
      (command :: (pieces.flatMap Piece.words ++ "--" :: trailing)) =
        .ok (command, signature.arguments environment
          { found := (pieces.map Piece.binding).reverse, trailing }) := by
    rw [reader]
    simp only [helpName, if_neg h.ne_help, if_neg (ne_dashes h.word), h.known,
      Signature.read_pieces h.takes h.once h.handsOn h.required]
    rfl
  refine ⟨_, hread, fun piece hpiece => ?_, fun argument hargument hnot => ?_, rfl⟩
  · rw [Signature.arguments, List.lookup_append, Signature.lookup_bindings h.once hpiece]
    rfl
  · have hnone := Signature.lookup_bindings_eq_none hnot
    rw [Signature.arguments, List.lookup_append, hnone, Option.none_or]
    exact Signature.lookup_standIns h.options hargument hnone

end ParseBench.CommandLine
