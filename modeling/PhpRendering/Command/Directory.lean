import PhpRendering.Command.Host

/-!
# Directories

A working directory with its files and the directories below it, as a host of the command.
A source file holds what the parser makes of it, as a script and as a module; in any other
file the parser finds nothing to parse. What stands outside the directory is told by its
surroundings.
-/

namespace PhpRendering.Command

inductive Entry where
  | directory
  | file (text : String)
  | source (script asModule : ParserAnswer)

/-- A directory: its entries under their steps from the directory. -/
structure Directory where
  entries : List (List String × Entry)

inductive FileError where
  | isADirectory
  | notFound
  | notADirectory
  /-- the path has a character that no name may have -/
  | unusableName
  | nameTooLong
deriving DecidableEq, Repr

inductive Place where
  /-- to steps below the directory, whether or not something stands there -/
  | inside (steps : List String)
  /-- out of the directory, to steps from one that contains it -/
  | above (steps : List String)
  /-- to steps from the root -/
  | absolute (steps : List String)
  | unreachable (error : FileError)
deriving DecidableEq, Repr

def stepLimit : Nat := 255

def pathLimit : Nat := 4095

/-- What stands outside a working directory. -/
structure Surroundings where
  /-- at some steps from the root -/
  fromRoot? : List String → Option Entry
  /-- at some steps from a directory around the working directory -/
  around? : List String → Option Entry

/-- The place that further steps lead to, starting from steps below a directory. A
step up from that directory leads out of it, or stays there when nothing is known
to be around it. -/
def follow (known? : List String → Option Entry) (arrive : List String → Place)
    (leave : Option (List String → Place)) (here : List String) : List String → Place
  | [] => arrive here
  | step :: rest =>
      match known? here with
      | none => .unreachable .notFound
      | some .directory =>
          if stepLimit < step.utf8ByteSize then .unreachable .nameTooLong
          else if step != ".." then follow known? arrive leave (here ++ [step]) rest
          else
            match leave, here with
            | some outside, [] => outside rest
            | _, _ => follow known? arrive leave here.dropLast rest
      | some _ => .unreachable .notADirectory

namespace Directory

/-- What stands at some steps below the directory. The directory itself and all
directories on the way to an entry stand there too. -/
def entry? (directory : Directory) (steps : List String) : Option Entry :=
  match directory.entries.lookup steps with
  | some entry => some entry
  | none =>
      if steps.isEmpty || directory.entries.any (fun entry => steps.isPrefixOf entry.1) then
        some .directory
      else none

variable (surroundings : Surroundings) (directory : Directory)

def entryAt? : Place → Option Entry
  | .inside steps => directory.entry? steps
  | .above steps => surroundings.around? steps
  | .absolute steps => surroundings.fromRoot? steps
  | .unreachable _ => none

def place (path : Path) : Place :=
  if path.text.toList.contains '\x00' then .unreachable .unusableName
  else if pathLimit < path.text.utf8ByteSize then .unreachable .nameTooLong
  else if path.root = "" then
    follow directory.entry? .inside (some (follow surroundings.around? .above none [])) []
      path.steps
  else follow surroundings.fromRoot? .absolute none [] path.steps

/-- Whether something stands at a path. A name that is too long is no answer. -/
def exists? (path : Path) : Except FileError Bool :=
  match directory.place surroundings path with
  | .unreachable .nameTooLong => .error .nameTooLong
  | place => .ok (directory.entryAt? surroundings place).isSome

def source (path : Path) (asModule : Bool) : Except FileError ParserAnswer :=
  match directory.entryAt? surroundings (directory.place surroundings path) with
  | none => .error .notFound
  | some .directory => .error .isADirectory
  | some (.file _) => .ok .failed
  | some (.source script source) => .ok (if asModule then source else script)

def target (path : Path) : Except FileError Place :=
  match directory.place surroundings path with
  | .unreachable error => .error error
  | place =>
      match directory.entryAt? surroundings place with
      | some .directory => .error .isADirectory
      | _ => .ok place

def content? (place : Place) : Option String :=
  match directory.entryAt? surroundings place with
  | some (.file text) => some text
  | _ => none

def host : Host FileError Place where
  exists? := directory.exists? surroundings
  source := directory.source surroundings
  print _ := .ok ()
  target path _ := directory.target surroundings path
  content? := directory.content? surroundings

end Directory

def writtenInside (written : List (Place × String)) : List (String × String) :=
  written.filterMap fun entry =>
    match entry.1 with
    | .inside steps => some (Text.separatedBy "/" steps, entry.2)
    | _ => none

/-- The end of a run as it is seen from inside a directory. -/
def Ending.inside : Ending FileError Place → Ending FileError String
  | help => .help
  | badUsage => .badUsage
  | reported report written => .reported report (writtenInside written)
  | stopped error => .stopped error

/-- Surroundings of which only the directories around the working directory and the null device
are known. -/
def Surroundings.sparse : Surroundings where
  fromRoot?
    | [] => some .directory
    | ["dev"] => some .directory
    | ["dev", "null"] => some (.file "")
    | _ => none
  around?
    | [] => some .directory
    | _ => none

def run (directory : Directory) (arguments : List String)
    (surroundings : Surroundings := .sparse) : Ending FileError String :=
  ((directory.host surroundings).run arguments).inside

end PhpRendering.Command
