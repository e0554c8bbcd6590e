import JsonPath.CommandLine.Run
import JsonPath.Text.Utf8

/-! The command line: it reads the input file or standard input, runs the command and writes
what the run has to write. Wrong arguments are answered with the usage alone, without the
reason.
-/

namespace JsonPath.CommandLine

/-- How the command is called. -/
def usage : String :=
  "usage: jsoncrawler [-h] [-v] [-l] [-p] [-i INDENT] [file] query"

/-- What the arguments are for, laid out for 80 columns. -/
def help : List String := [
  usage,
  "",
  "Select values from a JSON document with an RFC 9535 JSONPath query.",
  "",
  "positional arguments:",
  "  file                  Input JSON file to query. Reads from stdin if the",
  "                        argument is missing or set to \"-\". (default: -)",
  "  query                 A JSONPath query to apply to the input data, like",
  "                        $.store.book[*].author",
  "",
  "options:",
  "  -h, --help            show this help message and exit",
  "  -v, --verbose         Verbosity level. By default on error no output will be",
  "                        printed. Use -v to get the error message to stderr,",
  "                        -vv to get the full traceback and -vvv to get also the",
  "                        debug logs. (default: 0)",
  "  -l, --lines           Treat the input as JSON Lines, parse each line and",
  "                        apply the query to each line. (default: False)",
  "  -p, --paths           Print the normalized paths of the matched nodes",
  "                        instead of their values. (default: False)",
  "  -i INDENT, --indent INDENT",
  "                        Pretty print the matched values with the given",
  "                        indentation. (default: None)"
]

/-- Reads a stream to its end. -/
partial def readAll (stream : IO.FS.Stream) (content : ByteArray) : IO ByteArray := do
  let chunk ← stream.read 65536
  if chunk.isEmpty then return content else readAll stream (content ++ chunk)

/-- The file error that a failure to read a file stands for, if it is one. Codes can come
negated.
-/
def fileError? (name : Text) : IO.Error → Option FileError
  | .noFileOrDirectory .. => some (.notFound name)
  | .inappropriateType _ code _ =>
    if code = 20 || code = -20 then some (.notDirectory name)
    else if code = 21 || code = -21 then some (.isDirectory name)
    else none
  | _ => none

/-- The text of a file. -/
def readFile (name : Text) : IO (Except FileError Text) := do
  try
    return .ok (Utf8.decodeEscaping (← IO.FS.readBinFile name.toString).toList)
  catch error =>
    match fileError? name error with
    | some error => return .error error
    | none => throw error

/-- Runs the command and returns its exit code, which is 1 for a run that ends by an error.
-/
def execute (options : Options) (query : Text) : IO UInt32 := do
  let content ←
    if options.file = "-" then
      pure (.ok (Utf8.decodeEscaping (← readAll (← IO.getStdin) .empty).toList))
    else
      readFile options.file
  let outcome := runOptions options query (content.toOption.getD []) fun _ => content
  IO.print outcome.output.toString
  IO.eprint outcome.errors.toString
  match outcome.ending with
  | .ok code => return code.toUInt32
  | .error error =>
    IO.eprintln (error.label ++ ": " ++ error.message).toString
    return 1

end JsonPath.CommandLine

open JsonPath CommandLine in
def main (arguments : List String) : IO UInt32 := do
  match Options.ofArguments (arguments.map Text.ofString) with
  | .ok (options, query) => execute options query
  | .error .help =>
    help.forM fun line => IO.println line
    return 0
  | .error .usage =>
    IO.eprintln usage
    return 2
