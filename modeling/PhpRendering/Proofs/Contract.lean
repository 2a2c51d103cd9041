import Mathlib.Data.String.Basic
import PhpRendering.Command.Directory
import PhpRendering.Proofs.Invocation
import PhpRendering.Proofs.Listing

/-!
# The contract of the command

A run gives the text of the program in the input to the standard output or to the output
file, tells of diagnostics, and shows by its exit code whether there were any. Without a
text it fails, prints nothing on the standard output and leaves all files as they are. This
holds just when the host says whether the input exists, and takes the text if there is one:
its errors at these two points stop a run before there is a report.
-/

namespace PhpRendering.Command

variable {Error File : Type}

/-! ## What is asked -/

def Parsed.value (program : Parsed) : Value :=
  .ofJson program.form 0 program.tree

namespace Host

/-- Whether the parser gives a program for the input, in the mode that is asked for. -/
structure Parses (host : Host Error File) (arguments : Arguments) (program : Parsed) : Prop where
  found : host.exists? (Path.ofText arguments.input) = .ok true
  given : host.source (Path.ofText arguments.input) arguments.asModule = .ok (.tree program)

/-- Whether the input has a text, made by a session that ends in this state. -/
def Translates (host : Host Error File) (arguments : Arguments) (session : Session) (text : String) :
    Prop :=
  ∃ program, host.Parses arguments program ∧
    Session.generate {} program.value program.tree.typeName = (session, .ok text)

/-- Whether the host says if there is an input. -/
def Answers (host : Host Error File) (arguments : Arguments) : Prop :=
  ∃ known, host.exists? (Path.ofText arguments.input) = .ok known

/-- Whether the host takes a text where the arguments want it. -/
def Takes (host : Host Error File) (arguments : Arguments) (text : String) : Prop :=
  match arguments.output with
  | none => text ≠ "" → host.print text = .ok ()
  | some output => ∃ file, host.target (Path.ofText output) text = .ok file

/-! ## What is promised -/

/-- Whether a text stands at a path after some files were written, and no other file has
changed. -/
def Stores (host : Host Error File) (path : Path) (text : String) (written : List (File × String)) :
    Prop :=
  ∃ file, host.target path text = .ok file ∧
    (written = [(file, text)] ∨ written = [] ∧ host.content? file = some text)

end Host

/-- What has to be told after a session: where the text went, what was left out, and the
functions that were entered. -/
def told (arguments : Arguments) (log : List Diagnostic) (listing : List String) : List String :=
  (arguments.output.toList.map fun output => "Generated: " ++ (Path.ofText output).text)
    ++ (if log ≠ [] ∨ arguments.verbose = true then [summary log] else [])
    ++ (if arguments.verbose = true then listing else [])

structure Delivers (host : Host Error File) (arguments : Arguments) (session : Session) (text : String)
    (report : Report) (written : List (File × String)) : Prop where
  exitCode : report.exitCode = .ok (if arguments.strict = true ∧ session.log ≠ [] then 2 else 0)
  shown : arguments.output = none →
    report.standardOutput = text ∧ report.file = none ∧ written = []
  stored : ∀ output, arguments.output = some output →
    report.standardOutput = "" ∧ report.file = some (Path.ofText output, text) ∧
      host.Stores (Path.ofText output) text written
  told : ∃ listing, scopeLines session.recorder = listing.map .ok ∧
    report.standardError = lines (told arguments session.log listing)

structure Fails (report : Report) (written : List (File × String)) : Prop where
  exitCode : report.exitCode = .ok 1
  standardOutput : report.standardOutput = ""
  file : report.file = none
  written : written = []

/-- Whether a run has ended as promised: it reports, and delivers the text of the input or
fails when there is none. -/
def Ending.KeepsContract (host : Host Error File) (arguments : Arguments)
    (ending : Ending Error File) : Prop :=
  ∃ report written, ending = .reported report written ∧
    (∀ session text, host.Translates arguments session text →
      Delivers host arguments session text report written) ∧
    ((∀ session text, ¬ host.Translates arguments session text) → Fails report written)

/-! ## Inputs -/

namespace Host

variable {host : Host Error File} {arguments : Arguments}

theorem input_of_error {path : Path} {error : Error} (unsaid : host.exists? path = .error error)
    (asModule : Bool) : host.input path asModule = .error error := by
  unfold input
  rw [unsaid]
  rfl

/-- A host that says whether there is an input makes something of it. -/
theorem Answers.exists_input (answers : host.Answers arguments) :
    ∃ given, host.input (Path.ofText arguments.input) arguments.asModule = .ok given ∧
      ∀ program, given = .parsed program ↔ host.Parses arguments program := by
  obtain ⟨known, said⟩ := answers
  unfold input
  rw [said]
  cases known with
  | false =>
      refine ⟨.missing, rfl, fun program => ⟨nofun, fun parses => ?_⟩⟩
      cases said.symm.trans parses.found
  | true =>
      cases source : host.source (Path.ofText arguments.input) arguments.asModule with
      | error error =>
          refine ⟨.unreadable, rfl, fun program => ⟨nofun, fun parses => ?_⟩⟩
          cases source.symm.trans parses.given
      | ok answer =>
          refine ⟨answer.input, rfl, fun program => ⟨fun parsed => ⟨said, ?_⟩, fun parses => ?_⟩⟩
          · cases answer with
            | tree other => cases parsed; exact source
            | refused message => cases parsed
            | failed => cases parsed
          · cases source.symm.trans parses.given
            rfl

theorem Parses.unique {program other : Parsed} (parses : host.Parses arguments program)
    (again : host.Parses arguments other) : other = program := by
  cases parses.given.symm.trans again.given
  rfl

/-- There is one session and one text for an input. -/
theorem Translates.unique {session other : Session} {text letters : String}
    (first : host.Translates arguments session text)
    (second : host.Translates arguments other letters) : other = session ∧ letters = text := by
  obtain ⟨program, parses, made⟩ := first
  obtain ⟨again, parsesToo, madeToo⟩ := second
  cases parses.unique parsesToo
  cases made.symm.trans madeToo
  exact ⟨rfl, rfl⟩

/-- What is written at a path is stored there. -/
theorem write_stores {path : Path} {text : String} {written : List (File × String)}
    (done : host.write path text = .ok written) : host.Stores path text written := by
  unfold write at done
  cases reached : host.target path text with
  | error error => rw [reached] at done; cases done
  | ok file =>
      rw [reached] at done
      refine ⟨file, reached, ?_⟩
      by_cases same : host.content? file = some text
      · cases done.symm.trans (congrArg Except.ok (if_pos same))
        exact .inr ⟨rfl, same⟩
      · cases done.symm.trans (congrArg Except.ok (if_neg same))
        exact .inl rfl

end Host

/-! ## Long names -/

theorem splitAtSlashes_eq {letters : List Char} (single : '/' ∉ letters) :
    splitAtSlashes letters = [letters] := by
  induction letters with
  | nil => rfl
  | cons letter rest ih =>
      obtain ⟨other, later⟩ := List.ne_and_not_mem_of_not_mem_cons single
      have here : (letter == '/') = false := beq_eq_false_iff_ne.mpr (Ne.symm other)
      rw [splitAtSlashes, ih later]
      simp [here]

/-- A name of several letters without a slash is a path of one step. -/
theorem Path.ofText_name {letters : List Char} (single : '/' ∉ letters) (long : 1 < letters.length) :
    Path.ofText (String.ofList letters) = ⟨"", [String.ofList letters]⟩ := by
  have root : rootOf letters = "" := by
    cases letters with
    | nil => rfl
    | cons letter rest =>
        have here : (letter == '/') = false :=
          beq_eq_false_iff_ne.mpr (Ne.symm (List.ne_of_not_mem_cons single))
        simp [rootOf, here]
  have differs {other : List Char} (short : other.length ≤ 1) :
      (String.ofList letters != String.ofList other) = true := by
    refine bne_iff_ne.mpr fun same => ?_
    rw [String.ofList_injective same] at long
    exact Nat.not_lt_of_le short long
  have proper : (String.ofList letters != "" && String.ofList letters != ".") = true :=
    Bool.and_eq_true_iff.mpr ⟨differs (Nat.zero_le 1), differs (Nat.le_refl 1)⟩
  unfold Path.ofText
  rw [String.toList_ofList, root, splitAtSlashes_eq single]
  simp [proper]

theorem length_le_utf8ByteSize (letters : List Char) :
    letters.length ≤ (String.ofList letters).utf8ByteSize := by
  rw [String.utf8ByteSize_ofList]
  induction letters with
  | nil => exact Nat.le_refl 0
  | cons letter rest ih =>
      rw [String.utf8Len_cons, List.length_cons]
      exact Nat.add_le_add ih letter.utf8Size_pos

/-- A name that is too long leads nowhere, and to no answer either. -/
theorem Directory.place_of_longName {directory : Directory} (surroundings : Surroundings)
    {letters : List Char} (root : directory.entry? [] = some .directory) (single : '/' ∉ letters)
    (usable : '\x00' ∉ letters) (long : stepLimit < letters.length) :
    directory.place surroundings (Path.ofText (String.ofList letters)) = .unreachable .nameTooLong := by
  have path := Path.ofText_name single (Nat.lt_trans (by decide) long)
  have size : stepLimit < (String.ofList letters).utf8ByteSize :=
    Nat.lt_of_lt_of_le long (length_le_utf8ByteSize letters)
  rw [path]
  unfold Directory.place
  simp [Path.text, usable, follow, root, size]

theorem Directory.exists?_of_long {directory : Directory} {surroundings : Surroundings}
    {path : Path} (long : directory.place surroundings path = .unreachable .nameTooLong) :
    (directory.host surroundings).exists? path = .error .nameTooLong := by
  unfold host exists?
  dsimp only
  rw [long]

/-! ## Reports -/

theorem messagesUntilCrash_map_ok (told : List String) :
    messagesUntilCrash (told.map .ok) = (told, .ok ()) := by
  induction told with
  | nil => rfl
  | cons message rest ih => rw [List.map_cons, messagesUntilCrash, ih]

section

variable {host : Host Error File} {arguments : Arguments} {session : Session}
  {listing : List String} {text : String}

theorem messages_eq (listed : scopeLines session.recorder = listing.map .ok) :
    messages arguments session = (told arguments session.log listing).map .ok := by
  unfold messages told
  rw [listed]
  cases arguments.output <;> cases arguments.verbose <;> cases session.log <;> rfl

theorem finished_eq (listed : scopeLines session.recorder = listing.map .ok) (text : String) :
    finished arguments session text =
      { exitCode := .ok (if arguments.strict = true ∧ session.log ≠ [] then 2 else 0)
        standardOutput := if arguments.output.isNone then text else ""
        standardError := lines (told arguments session.log listing)
        file := arguments.output.map fun output => (Path.ofText output, text) } := by
  unfold finished
  rw [messages_eq listed, messagesUntilCrash_map_ok]
  cases arguments.strict <;> cases session.log <;> rfl

/-- A text that the host takes is delivered. -/
theorem Host.Takes.conclude (taken : host.Takes arguments text)
    (listed : scopeLines session.recorder = listing.map .ok) :
    ∃ written, host.conclude (finished arguments session text) =
        .reported (finished arguments session text) written ∧
      Delivers host arguments session text (finished arguments session text) written := by
  rw [finished_eq listed]
  unfold Host.Takes at taken
  unfold Host.conclude Host.deliver
  cases output : arguments.output with
  | none =>
      rw [output] at taken
      refine ⟨[], ?_, rfl, fun _ => ⟨rfl, rfl, rfl⟩,
        fun path same => ?_, ⟨listing, listed, rfl⟩⟩
      · by_cases blank : text = ""
        · subst blank
          rfl
        · simp [blank, taken blank, bind, Except.bind, pure, Except.pure]
      · cases output.symm.trans same
  | some path =>
      rw [output] at taken
      obtain ⟨file, reached⟩ := taken
      have done : host.write (Path.ofText path) text =
          .ok (if host.content? file = some text then [] else [(file, text)]) := by
        unfold Host.write
        rw [reached]
        rfl
      refine ⟨_, by simp [done]; rfl, rfl, fun none => ?_, fun other same => ?_,
        ⟨listing, listed, rfl⟩⟩
      · cases output.symm.trans none
      · cases output.symm.trans same
        exact ⟨rfl, rfl, Host.write_stores done⟩

/-- A text that the host does not take ends the run without a report. -/
theorem Host.conclude_of_not_takes (refused : ¬ host.Takes arguments text)
    (listed : scopeLines session.recorder = listing.map .ok) :
    ∃ error, host.conclude (finished arguments session text) = .stopped error := by
  rw [finished_eq listed]
  unfold Host.Takes at refused
  unfold Host.conclude Host.deliver
  cases output : arguments.output with
  | none =>
      rw [output] at refused
      obtain ⟨something, unprinted⟩ := Classical.not_imp.mp refused
      cases printed : host.print text with
      | error error =>
          exact ⟨error, by simp [something, printed, bind, Except.bind]⟩
      | ok done => exact absurd printed unprinted
  | some path =>
      rw [output] at refused
      cases reached : host.target (Path.ofText path) text with
      | error error => exact ⟨error, by simp [Host.write, reached, bind, Except.bind]⟩
      | ok file => exact absurd ⟨file, reached⟩ refused

/-- The scopes can be listed after a session for a program whose names are texts. -/
theorem Host.Translates.listed (translates : host.Translates arguments session text)
    (named : ∀ program, host.Parses arguments program → program.value.Throughout Node.IsNamed) :
    ∃ listing : List String, scopeLines session.recorder = listing.map .ok := by
  obtain ⟨program, parses, made⟩ := translates
  have fresh : ({} : Session).recorder = .scoping .initial := rfl
  obtain ⟨record, scoping, listable⟩ := Session.generate_isListable fresh
    ScopeRecord.initial_isListable (named program parses) program.tree.typeName
  rw [made] at scoping
  rw [scoping]
  exact scopeLines_ok listable

theorem report_parsed (program : Parsed) :
    report arguments (.parsed program) =
      match Session.generate {} program.value program.tree.typeName with
      | (session, .ok text) => finished arguments session text
      | (_, .error _) => failed ("Error transpiling " ++ (Path.ofText arguments.input).text ++ ":") :=
  rfl

/-- An input with a text is reported as a finished session. -/
theorem Host.Translates.report (translates : host.Translates arguments session text) :
    ∃ program, host.Parses arguments program ∧
      report arguments (.parsed program) = finished arguments session text := by
  obtain ⟨program, parses, made⟩ := translates
  refine ⟨program, parses, ?_⟩
  rw [report_parsed, made]

/-- An input without a text is reported as a failure. -/
theorem report_of_never {given : Input}
    (parsed : ∀ program, given = .parsed program → host.Parses arguments program)
    (never : ∀ session text, ¬ host.Translates arguments session text) :
    ∃ message, report arguments given = failed message := by
  cases given with
  | missing => exact ⟨_, rfl⟩
  | unreadable => exact ⟨_, rfl⟩
  | rejected message => exact ⟨_, rfl⟩
  | parsed program =>
      rw [report_parsed]
      rcases made : Session.generate {} program.value program.tree.typeName with ⟨session, outcome⟩
      cases outcome with
      | ok text => exact absurd ⟨program, parsed program rfl, made⟩ (never session text)
      | error failure => exact ⟨_, rfl⟩

end

/-! ## The contract -/

section

variable {host : Host Error File} {arguments : Arguments} {said : List String}

/-- The command keeps its contract just when the host says whether there is an input, and
takes the text of the input if it has one. The arguments may be said in any order, and the
names in the program have to be texts. -/
theorem run_keepsContract_iff (meant : arguments.IsSaidBy said)
    (named : ∀ program, host.Parses arguments program → program.value.Throughout Node.IsNamed) :
    (host.run said).KeepsContract host arguments ↔
      host.Answers arguments ∧
        ∀ session text, host.Translates arguments session text → host.Takes arguments text := by
  unfold Host.run
  rw [meant.read]
  dsimp only
  by_cases answers : host.Answers arguments
  · obtain ⟨given, becomes, parsed⟩ := answers.exists_input
    rw [becomes]
    dsimp only
    by_cases possible : ∃ session text, host.Translates arguments session text
    · obtain ⟨session, text, translates⟩ := possible
      obtain ⟨listing, listed⟩ := translates.listed named
      obtain ⟨program, parses, reported⟩ := translates.report
      rw [(parsed program).mpr parses, reported]
      by_cases taken : host.Takes arguments text
      · obtain ⟨written, concluded, delivered⟩ := taken.conclude listed
        refine ⟨fun _ => ⟨answers, fun other letters again => ?_⟩, fun _ => ?_⟩
        · obtain ⟨rfl, rfl⟩ := translates.unique again
          exact taken
        · refine ⟨_, written, concluded, ?_, fun never => absurd translates (never session text)⟩
          intro other letters again
          obtain ⟨rfl, rfl⟩ := translates.unique again
          exact delivered
      · obtain ⟨error, stopped⟩ := Host.conclude_of_not_takes taken listed
        rw [stopped]
        exact ⟨fun ⟨report, written, same, _⟩ => (nomatch same),
          fun ⟨_, takes⟩ => absurd (takes session text translates) taken⟩
    · have never (session : Session) (text : String) : ¬ host.Translates arguments session text :=
        fun some => possible ⟨session, text, some⟩
      obtain ⟨message, same⟩ := report_of_never (fun program => (parsed program).mp) never
      rw [same]
      refine ⟨fun _ => ⟨answers, fun session text some => absurd some (never session text)⟩,
        fun _ => ⟨failed message, [], rfl, ?_, fun _ => ⟨rfl, rfl, rfl, rfl⟩⟩⟩
      exact fun session text some => absurd some (never session text)
  · -- The question whether there is an input is not inside any handler.
    cases unsaid : host.exists? (Path.ofText arguments.input) with
    | ok known => exact absurd ⟨known, unsaid⟩ answers
    | error error =>
        rw [Host.input_of_error unsaid]
        exact ⟨fun ⟨report, written, same, _⟩ => (nomatch same), fun kept => absurd kept.1 answers⟩

end

/-- A directory with one source: a script with a loop that has no translation, and no module. -/
def loopDirectory : Directory where
  entries :=
    [(["loop.js"],
      .source
        (.tree ⟨.data, .object [("type", .text "Program"),
          ("body", .array [.object [("type", .text "WhileStatement")]])]⟩)
        (.refused "Line 1: Unexpected token"))]

def loopHost : Host FileError Place :=
  loopDirectory.host .sparse

def overlongName : String :=
  String.ofList (List.replicate 256 'n')

/-- A strict run writes its text and tells of the loop that is left out. A run without an
input, whose name is too long for a file, does not end with a report. -/
theorem loopDirectory_runs :
    (∃ report, loopHost.run ["--strict", "-o", "loop.php", "loop.js", "--verbose"] =
        .reported report [(.inside ["loop.php"], "<?php\n")] ∧ report.exitCode = .ok 2) ∧
      (loopHost.run ["--strict", "-o", "loop.php", "loop.js", "--verbose"]).KeepsContract loopHost
        { input := "loop.js", output := some "loop.php", strict := true, verbose := true } ∧
      ¬ (loopHost.run [overlongName]).KeepsContract loopHost { input := overlongName } := by
  have size : stepLimit < (List.replicate 256 'n').length := by
    rw [List.length_replicate]
    decide
  have without {letter : Char} (other : letter ≠ 'n') : letter ∉ List.replicate 256 'n' :=
    fun held => other (List.eq_of_mem_replicate held)
  have long : loopHost.exists? (Path.ofText overlongName) = .error .nameTooLong := by
    have place : loopDirectory.place .sparse (Path.ofText overlongName) = _ :=
      Directory.place_of_longName .sparse rfl (without (by decide)) (without (by decide)) size
    exact Directory.exists?_of_long place
  refine ⟨⟨_, rfl, rfl⟩, (run_keepsContract_iff ?_ ?_).mpr ⟨⟨true, by decide⟩, ?_⟩, fun kept => ?_⟩
  · refine ⟨⟨[.strict, .output "loop.php", .input "loop.js", .verbose], by decide, rfl⟩, ?_, ?_⟩
    · exact (by decide : "loop.js".toList.head? ≠ some '-')
    · rintro path ⟨⟩
      exact (by decide : "loop.php".toList.head? ≠ some '-')
  · rintro program ⟨-, given⟩
    cases given
    exact Value.throughout_of_check Node.isNamed_of_check _ (by decide)
  · exact fun session text _ => ⟨.inside ["loop.php"], rfl⟩
  · have undashed : IsUndashed overlongName := by
      unfold IsUndashed overlongName
      rw [String.toList_ofList]
      decide
    refine absurd ((run_keepsContract_iff (Arguments.isSaidBy_path undashed) ?_).mp kept).1 ?_
    · exact fun program parses => nomatch long.symm.trans parses.found
    · exact fun ⟨known, said⟩ => nomatch long.symm.trans said

end PhpRendering.Command
