import JsonPath.CommandLine.Arguments
import JsonPath.Session
import JsonPath.Text.Quoted

/-! Running the command: it parses the query, opens the input and writes the matches of the
whole input or of each of its lines.
-/

namespace JsonPath.CommandLine

/-- Why a file cannot be opened. -/
inductive FileError where
  | notFound (name : Text)
  | notDirectory (name : Text)
  | isDirectory (name : Text)

namespace FileError

/-- The kind of error, as it is reported. -/
def label : FileError → Text
  | notFound _ => "FileNotFoundError"
  | notDirectory _ => "NotADirectoryError"
  | isDirectory _ => "IsADirectoryError"

/-- The cause in words. -/
def message : FileError → Text
  | notFound name => "[Errno 2] No such file or directory: " ++ Text.quoted name
  | notDirectory name => "[Errno 20] Not a directory: " ++ Text.quoted name
  | isDirectory name => "[Errno 21] Is a directory: " ++ Text.quoted name

end FileError

/-- What can go wrong in a run. -/
inductive RunError where
  | file (error : FileError)
  | request (error : RequestError)

namespace RunError

/-- The kind of error, as it is reported. -/
def label : RunError → Text
  | file error => error.label
  | request error => error.label

/-- The cause in words. -/
def message : RunError → Text
  | file error => error.message
  | request error => error.message

/-- Whether a run never goes on after the error, nor ends in good order. -/
def isFatal : RunError → Bool
  | request (.query (.oversizedInteger _)) => true
  | _ => false

end RunError

/-- What has been written, and how the run ended: with an exit code or by an error. -/
structure Outcome where
  output : Text
  errors : Text
  ending : Except RunError Nat

namespace Outcome

/-- Writes a line. -/
def written (line : Text) : Outcome :=
  ⟨line ++ [.char '\n'], [], .ok 0⟩

/-- Reports an error: not at all, on a line, or by ending the run, the higher the verbosity.
-/
def failed (verbosity : Nat) (error : RunError) : Outcome :=
  if error.isFatal || 2 ≤ verbosity then ⟨[], [], .error error⟩
  else if verbosity = 1 then
    ⟨[], error.label ++ ": " ++ error.message ++ "\n", .ok 1⟩
  else ⟨[], [], .ok 1⟩

/-- One run after another, of which the second does not take place when the first ends by an
error. The exit code is the greater one.
-/
def andThen (first second : Outcome) : Outcome :=
  match first.ending with
  | .error _ => first
  | .ok code =>
    ⟨first.output ++ second.output, first.errors ++ second.errors,
      second.ending.map (Nat.max code)⟩

/-- The runs on some documents, one after another. -/
def inSequence (run : Text → Outcome) : List Text → Outcome
  | [] => ⟨[], [], .ok 0⟩
  | document :: documents => (run document).andThen (inSequence run documents)

end Outcome

/-- The text that is written for a document: the matches, or their normalized paths. -/
def result (options : Options) (query : Query) (t : Text) : Except RequestError Text := do
  let session ← (Session.ofText t).mapError .document
  if options.paths then
    let nodes ← session.findNodes (.built query)
    let paths := nodes.map fun node => Value.string (Location.path node.location)
    return Document.encode (.array paths) none
  else
    session.findText (.built query) options.indent

/-- Runs the query on one document. -/
def runOn (options : Options) (query : Query) (t : Text) : Outcome :=
  match result options query t with
  | .ok line => .written line
  | .error error => .failed options.verbosity (.request error)

/-- The parts of a text in front of, between and behind its line feeds. -/
def splitLines : Text → List Text
  | [] => [[]]
  | .char '\n' :: rest => [] :: splitLines rest
  | c :: rest =>
    match splitLines rest with
    | [] => [[c]]
    | line :: lines => (c :: line) :: lines

/-- The lines that hold more than white space, without the white space at their ends. -/
def documentLines (t : Text) : List Text :=
  ((splitLines t).map Text.strip).filter (!·.isEmpty)

/-- Runs the query on each line of the input, or on the whole of it. -/
def runInput (options : Options) (query : Query) (input : Text) : Outcome :=
  if options.lines then .inSequence (runOn options query) (documentLines input)
  else runOn options query input

/-- The query of the command. A separator in its place is no query at all, and is shown as
empty brackets.
-/
def queryOf (argument : Text) : Except QueryError Query :=
  if argument = "--" then .error (.syntaxError .emptyQuery "[]" 0) else Query.parse argument

/-- Runs the command with the given standard input and files. -/
def runOptions (options : Options) (query : Text) (input : Text)
    (read : Text → Except FileError Text) : Outcome :=
  match queryOf query with
  | .error error => .failed options.verbosity (.request (.query error))
  | .ok query =>
    match if options.file = "-" then .ok input else read options.file with
    | .error error => .failed options.verbosity (.file error)
    | .ok input => runInput options query (Text.unifyNewlines input)

/-- Runs the command with the given arguments. -/
def run (arguments : List Text) (input : Text) (read : Text → Except FileError Text)
    : Except Refusal (Options × Outcome) := do
  let (options, query) ← Options.ofArguments arguments
  return (options, runOptions options query input read)

end JsonPath.CommandLine
