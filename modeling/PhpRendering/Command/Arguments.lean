import PhpRendering.Text.DecimalDigit

/-!
# Command line arguments

One input path, an optional output path and three flags, in any order. Long
options may be shortened as long as they stay unambiguous, short flags may be
grouped, and everything after a double dash is a path. An argument counts as soon
as all of it is read: help is given even when a later argument is wrong.
-/

namespace PhpRendering.Command

structure Arguments where
  input : String
  output : Option String := none
  asModule : Bool := false
  strict : Bool := false
  verbose : Bool := false
deriving DecidableEq, Repr

inductive Invocation where
  | help
  | badUsage
  | proceed (arguments : Arguments)
deriving DecidableEq, Repr

inductive Switch where
  | help
  | output
  | asModule
  | strict
  | verbose
deriving DecidableEq, Repr

def longSwitches : List (String × Switch) :=
  [("--help", .help), ("--output", .output), ("--module", .asModule), ("--strict", .strict),
   ("--verbose", .verbose)]

def shortSwitch? : Char → Option Switch
  | 'h' => some .help
  | 'o' => some .output
  | 'v' => some .verbose
  | _ => none

inductive Attachment where
  | nothing
  /-- the letters after a short option, without an equals sign between them -/
  | joined (letters : List Char)
  /-- the text after the equals sign of a long option -/
  | assigned (value : List Char)
deriving DecidableEq, Repr

/-- How one argument is read before its neighbours are looked at. -/
inductive Word where
  /-- a path -/
  | plain (text : String)
  /-- the double dash -/
  | separator
  | option (switch : Switch) (attachment : Attachment)
  | unknown
  | ambiguous
deriving DecidableEq, Repr

def splitAtEquals (letters : List Char) : List Char × Attachment :=
  match letters.dropWhile (· != '=') with
  | [] => (letters, .nothing)
  | _ :: value => (letters.takeWhile (· != '='), .assigned value)

def withoutFinalLineEnd (letters : List Char) : List Char :=
  if letters.getLast? = some '\n' then letters.dropLast else letters

/-- Whether a text after its dash is a plain decimal number, in the digits of any
script. -/
def isNumeral (letters : List Char) : Bool :=
  let number := withoutFinalLineEnd letters
  match number.dropWhile Text.isDecimalDigit with
  | [] => !number.isEmpty
  | '.' :: fraction => !fraction.isEmpty && fraction.all Text.isDecimalDigit
  | _ => false

/-- An argument with a dash that names no option. A negative number or a text
with a blank is a path after all. -/
def unmatched (letters : List Char) : Word :=
  if isNumeral (letters.drop 1) || letters.contains ' ' then .plain (String.ofList letters)
  else .unknown

def longWord (letters : List Char) : Word :=
  let (name, attachment) := splitAtEquals letters
  let matching := longSwitches.filter fun entry => name.isPrefixOf entry.1.toList
  match matching with
  | [entry] => .option entry.2 attachment
  | [] => unmatched letters
  | _ => .ambiguous

def Attachment.afterLetter : List Char → Attachment
  | [] => .nothing
  | '=' :: value => .joined value
  | letters => .joined letters

def shortWord (letters : List Char) (letter : Char) (rest : List Char) : Word :=
  match shortSwitch? letter with
  | none => unmatched letters
  | some switch => .option switch (.afterLetter rest)

def Word.ofText (text : String) : Word :=
  match text.toList with
  | ['-', '-'] => .separator
  | '-' :: '-' :: rest => longWord ('-' :: '-' :: rest)
  | '-' :: letter :: rest => shortWord ('-' :: letter :: rest) letter rest
  | _ => .plain text

/-- The readings of all arguments; after a double dash every argument is a path. -/
def wordsOf : List String → List Word
  | [] => []
  | text :: rest =>
      match Word.ofText text with
      | .separator => .separator :: rest.map .plain
      | word => word :: wordsOf rest

inductive Setting where
  | flag (switch : Switch)
  /-- the output path in the same argument, or none at all -/
  | outputPath (path : Option String)
  /-- the output path is the next argument -/
  | outputNext
deriving DecidableEq, Repr

/-- What an output path in the argument of its option sets. A double dash is no
path. -/
def Setting.attachedPath (letters : List Char) : Setting :=
  .outputPath (if letters = ['-', '-'] then none else some (String.ofList letters))

/-- What an option sets that stands alone or at the end of its argument. -/
def Setting.alone (switch : Switch) : Setting :=
  if switch = .output then .outputNext else .flag switch

/-- What a short option with further letters sets. They are its output path, or
further short options. -/
def joinedSettings (switch : Switch) : List Char → Option (List Setting)
  | [] => if switch = .output then some [.attachedPath []] else none
  | letter :: rest =>
      if switch = .output then some [.attachedPath (letter :: rest)]
      else do
        let next ← shortSwitch? letter
        let settings ← if rest.isEmpty then some [.alone next] else joinedSettings next rest
        return .flag switch :: settings

/-- What a long option with a text after an equals sign sets. Flags take none. -/
def assignedSettings (switch : Switch) (value : List Char) : Option (List Setting) :=
  if switch = .output then some [.attachedPath value] else none

def settingsOf (switch : Switch) : Attachment → Option (List Setting)
  | .nothing => some [.alone switch]
  | .joined letters => joinedSettings switch letters
  | .assigned value => assignedSettings switch value

/-- What was read so far. Superfluous arguments are only complained about at the
end. -/
structure Reading where
  input : Option String := none
  output : Option String := none
  asModule : Bool := false
  strict : Bool := false
  verbose : Bool := false
  superfluous : Bool := false

def Reading.setFlag (reading : Reading) : Switch → Option Reading
  | .help => none
  | .output => some reading
  | .asModule => some { reading with asModule := true }
  | .strict => some { reading with strict := true }
  | .verbose => some { reading with verbose := true }

def Reading.apply (reading : Reading) : List Setting → Option Reading
  | [] => some reading
  | .flag switch :: rest => (reading.setFlag switch).bind fun next => next.apply rest
  | .outputPath path :: rest => { reading with output := path }.apply rest
  | .outputNext :: rest => reading.apply rest

def Reading.finish (reading : Reading) : Invocation :=
  match reading.input with
  | none => .badUsage
  | some input =>
      if reading.superfluous then .badUsage
      else
        .proceed
          { input := input, output := reading.output, asModule := reading.asModule
            strict := reading.strict, verbose := reading.verbose }

/-- The rest of the words read one after another. A double dash may stand next to
the input path only. -/
def readWords (reading : Reading) : List Word → Invocation
  | [] => reading.finish
  | .plain path :: .separator :: rest =>
      if reading.input.isSome then readWords { reading with superfluous := true } rest
      else readWords { reading with input := some path } rest
  | .plain path :: rest =>
      if reading.input.isSome then readWords { reading with superfluous := true } rest
      else readWords { reading with input := some path } rest
  | .separator :: rest =>
      if reading.input.isSome then readWords { reading with superfluous := true } rest
      else readWords reading rest
  | .unknown :: rest => readWords { reading with superfluous := true } rest
  | .ambiguous :: _ => .badUsage
  | .option switch attachment :: rest =>
      match settingsOf switch attachment with
      | none => .badUsage
      | some settings =>
          if settings.contains .outputNext then
            match rest with
            | .plain path :: rest =>
                match reading.apply settings with
                | none => .help
                | some next => readWords { next with output := some path } rest
            | _ => .badUsage
          else
            match reading.apply settings with
            | none => .help
            | some next => readWords next rest

/-- What the arguments of the command amount to. An ambiguous option is refused
before anything else is read. -/
def readArguments (arguments : List String) : Invocation :=
  let words := wordsOf arguments
  if words.contains .ambiguous then .badUsage else readWords {} words

end PhpRendering.Command
