import PhpRendering.Command.Arguments

/-!
# Arguments in any order

An input path, perhaps an output path behind its option, and any of the three flags are
read as what they say, in whatever order they are given. The paths only must not look
like options.
-/

namespace PhpRendering.Command

inductive Clause where
  | input (path : String)
  | output (path : String)
  | asModule
  | strict
  | verbose
deriving DecidableEq, Repr

def Clause.arguments : Clause → List String
  | input path => [path]
  | output path => ["-o", path]
  | asModule => ["--module"]
  | strict => ["--strict"]
  | verbose => ["--verbose"]

def Arguments.clauses (arguments : Arguments) : List Clause :=
  .input arguments.input :: arguments.output.toList.map Clause.output
    ++ (if arguments.asModule then [Clause.asModule] else [])
    ++ (if arguments.strict then [Clause.strict] else [])
    ++ (if arguments.verbose then [Clause.verbose] else [])

/-- Whether a text is no option: it does not start with a dash. -/
def IsUndashed (text : String) : Prop :=
  text.toList.head? ≠ some '-'

/-- Whether some arguments say what the command is asked to do, in any order, with paths
that are no options. -/
structure Arguments.IsSaidBy (arguments : Arguments) (said : List String) : Prop where
  ordered : ∃ clauses : List Clause, clauses.Perm arguments.clauses ∧
    said = clauses.flatMap Clause.arguments
  input : IsUndashed arguments.input
  output : ∀ path, arguments.output = some path → IsUndashed path

/-! ## Words -/

def Clause.IsUndashed : Clause → Prop
  | input path => Command.IsUndashed path
  | output path => Command.IsUndashed path
  | _ => True

def Clause.words : Clause → List Word
  | input path => [.plain path]
  | output path => [.option .output .nothing, .plain path]
  | asModule => [.option .asModule .nothing]
  | strict => [.option .strict .nothing]
  | verbose => [.option .verbose .nothing]

theorem IsUndashed.word {text : String} (undashed : IsUndashed text) :
    Word.ofText text = .plain text := by
  unfold IsUndashed at undashed
  unfold Word.ofText
  split
  · next letters => rw [letters] at undashed; exact absurd rfl undashed
  · next letters => rw [letters] at undashed; exact absurd rfl undashed
  · next letters => rw [letters] at undashed; exact absurd rfl undashed
  · rfl

theorem wordsOf_cons {text : String} {word : Word} (rest : List String)
    (read : Word.ofText text = word) (proper : word ≠ .separator) :
    wordsOf (text :: rest) = word :: wordsOf rest := by
  rw [wordsOf, read]
  cases word with
  | separator => exact absurd rfl proper
  | _ => rfl

theorem Clause.IsUndashed.wordsOf {clause : Clause} (undashed : clause.IsUndashed)
    (rest : List String) :
    Command.wordsOf (clause.arguments ++ rest) = clause.words ++ Command.wordsOf rest := by
  cases clause with
  | input path => exact wordsOf_cons rest undashed.word nofun
  | output path =>
      have option : Word.ofText "-o" = .option .output .nothing := by decide
      refine (wordsOf_cons (path :: rest) option nofun).trans (congrArg (_ :: ·) ?_)
      exact wordsOf_cons rest undashed.word nofun
  | asModule =>
      have flag : Word.ofText "--module" = .option .asModule .nothing := by decide
      exact wordsOf_cons rest flag nofun
  | strict =>
      have flag : Word.ofText "--strict" = .option .strict .nothing := by decide
      exact wordsOf_cons rest flag nofun
  | verbose =>
      have flag : Word.ofText "--verbose" = .option .verbose .nothing := by decide
      exact wordsOf_cons rest flag nofun

theorem wordsOf_flatMap {clauses : List Clause} (undashed : ∀ clause ∈ clauses, clause.IsUndashed) :
    wordsOf (clauses.flatMap Clause.arguments) = clauses.flatMap Clause.words := by
  induction clauses with
  | nil => rfl
  | cons clause rest ih =>
      obtain ⟨first, later⟩ := List.forall_mem_cons.mp undashed
      rw [List.flatMap_cons, first.wordsOf, ih later, List.flatMap_cons]

theorem ambiguous_not_mem (clauses : List Clause) :
    Word.ambiguous ∉ clauses.flatMap Clause.words := by
  intro held
  obtain ⟨clause, -, among⟩ := List.mem_flatMap.mp held
  cases clause <;> simp [Clause.words] at among

theorem separator_not_head (clauses : List Clause) :
    (clauses.flatMap Clause.words).head? ≠ some .separator := by
  cases clauses with
  | nil => nofun
  | cons clause rest => cases clause <;> nofun

/-! ## Reading -/

def Reading.hear (reading : Reading) : Clause → Reading
  | .input path =>
      if reading.input.isSome then { reading with superfluous := true }
      else { reading with input := some path }
  | .output path => { reading with output := some path }
  | .asModule => { reading with asModule := true }
  | .strict => { reading with strict := true }
  | .verbose => { reading with verbose := true }

theorem readWords_plain (reading : Reading) (path : String) {rest : List Word}
    (next : rest.head? ≠ some .separator) :
    readWords reading (.plain path :: rest) = readWords (reading.hear (.input path)) rest := by
  unfold Reading.hear
  rw [readWords]
  · dsimp only
    split <;> rfl
  · rintro other rfl
    exact next rfl

theorem readWords_flag {reading next : Reading} {switch : Switch} (rest : List Word)
    (flag : switch ≠ .output) (set : reading.setFlag switch = some next) :
    readWords reading (.option switch .nothing :: rest) = readWords next rest := by
  have settings : settingsOf switch .nothing = some [.flag switch] := by
    unfold settingsOf Setting.alone
    rw [if_neg flag]
  have applied : reading.apply [.flag switch] = some next := by
    rw [Reading.apply, set]
    rfl
  rw [readWords, settings]
  dsimp only
  rw [applied]
  rfl

/-- Clauses are read one after another. -/
theorem readWords_flatMap (reading : Reading) (clauses : List Clause) :
    readWords reading (clauses.flatMap Clause.words) =
      (clauses.foldl Reading.hear reading).finish := by
  induction clauses generalizing reading with
  | nil => rw [List.flatMap_nil, readWords]; rfl
  | cons clause rest ih =>
      rw [List.flatMap_cons, List.foldl_cons, ← ih]
      cases clause with
      | input path => exact readWords_plain reading path (separator_not_head rest)
      | output path => rfl
      | asModule => exact readWords_flag _ nofun rfl
      | strict => exact readWords_flag _ nofun rfl
      | verbose => exact readWords_flag _ nofun rfl

namespace Arguments

variable {arguments : Arguments}

theorem input_mem_clauses {path : String} :
    .input path ∈ arguments.clauses ↔ path = arguments.input := by
  simp [clauses]

theorem output_mem_clauses {path : String} :
    .output path ∈ arguments.clauses ↔ arguments.output = some path := by
  simp [clauses]

/-- Clauses can change places, for there is one path of each role. -/
theorem hear_comm {first second : Clause} (here : first ∈ arguments.clauses)
    (there : second ∈ arguments.clauses) (reading : Reading) :
    (reading.hear first).hear second = (reading.hear second).hear first := by
  cases first with
  | input path =>
      cases second with
      | input other => rw [input_mem_clauses.mp here, input_mem_clauses.mp there]
      | _ => unfold Reading.hear; dsimp only; split <;> rfl
  | output path =>
      cases second with
      | input other => unfold Reading.hear; dsimp only; split <;> rfl
      | output other =>
          rw [Option.some.inj ((output_mem_clauses.mp here).symm.trans (output_mem_clauses.mp there))]
      | _ => rfl
  | _ =>
      cases second with
      | input other => unfold Reading.hear; dsimp only; split <;> rfl
      | _ => rfl

/-- The clauses of some arguments in their own order are read as these. -/
theorem clauses_heard (arguments : Arguments) :
    (arguments.clauses.foldl Reading.hear {}).finish = .proceed arguments := by
  obtain ⟨input, output, asModule, strict, verbose⟩ := arguments
  cases output <;> cases asModule <;> cases strict <;> cases verbose <;> rfl

/-- A path alone is an input. -/
theorem isSaidBy_path {path : String} (undashed : IsUndashed path) :
    ({ input := path } : Arguments).IsSaidBy [path] :=
  ⟨⟨[.input path], .refl _, rfl⟩, undashed, nofun⟩

/-- Arguments are read as what they say, in any order. -/
theorem IsSaidBy.read {said : List String} (meant : arguments.IsSaidBy said) :
    readArguments said = .proceed arguments := by
  obtain ⟨⟨clauses, ordered, rfl⟩, input, output⟩ := meant
  have undashed : ∀ clause ∈ clauses, clause.IsUndashed := by
    intro clause held
    have among := ordered.mem_iff.mp held
    cases clause with
    | input path => exact input_mem_clauses.mp among ▸ input
    | output path => exact output path (output_mem_clauses.mp among)
    | _ => trivial
  have unambiguous : (clauses.flatMap Clause.words).contains .ambiguous = false := by
    rw [← Bool.not_eq_true, List.contains_iff_mem]
    exact ambiguous_not_mem clauses
  unfold readArguments
  rw [wordsOf_flatMap undashed]
  dsimp only
  rw [unambiguous, readWords_flatMap]
  refine Eq.trans ?_ arguments.clauses_heard
  refine congrArg Reading.finish (ordered.foldl_eq' (fun first here second there reading => ?_) _)
  exact hear_comm (ordered.mem_iff.mp here) (ordered.mem_iff.mp there) reading

end Arguments

end PhpRendering.Command
