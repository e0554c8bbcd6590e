import JsonPath.Text.Integer

/-! The arguments of the command: options anywhere, in long or short form, and an optional
input file in front of the query.
-/

namespace JsonPath.CommandLine

inductive Flag where
  | help
  | verbose
  | lines
  | paths
  | indent
  deriving DecidableEq

/-- The spellings of the options. -/
def spellings : List (Text × Flag) := [
  ("-h", .help), ("--help", .help), ("-v", .verbose), ("--verbose", .verbose),
  ("-l", .lines), ("--lines", .lines), ("-p", .paths), ("--paths", .paths),
  ("-i", .indent), ("--indent", .indent)
]

def flag? (spelling : Text) : Option Flag :=
  spellings.lookup spelling

/-- Why the command does not run: its arguments are wrong, or it was asked for help. -/
inductive Refusal where
  | usage
  | help
  deriving DecidableEq

/-- An argument by its form. An option can come with an argument of its own in the same
word, behind an equals sign if `isAssigned`.
-/
inductive Token where
  | positional (t : Text)
  | separator
  | option (flag : Flag) (isLong : Bool) (isAssigned : Bool) (argument : Option Text)
  | unknown

/-- The text in front of the first equals sign, and the text behind it if there is one. -/
def splitAssignment (t : Text) : Text × Option Text :=
  match t.span (· ≠ .char '=') with
  | (spelling, _ :: argument) => (spelling, some argument)
  | (spelling, []) => (spelling, none)

/-- A minus sign with decimal digits, and a point among them or in front of them at most. -/
def isNegativeNumber (t : Text) : Bool :=
  let t := if t.getLast? = some (.char '\n') then t.dropLast else t
  match t with
  | .char '-' :: rest =>
    match rest.span CodePoint.isDecimal with
    | (digits, []) => !digits.isEmpty
    | (_, .char '.' :: digits) => !digits.isEmpty && digits.all CodePoint.isDecimal
    | _ => false
  | _ => false

/-- A word that begins with a minus sign but is not spelled like any option. -/
def otherWord (t : Text) : Token :=
  if isNegativeNumber t || t.contains (.char ' ') then .positional t else .unknown

/-- An option in long form, which can be shortened as long as it is clear which one is
meant.
-/
def longOption (t : Text) : Except Refusal Token :=
  let (start, argument) := splitAssignment t
  match spellings.filter fun (spelling, _) => start.isPrefixOf spelling with
  | [] => .ok (otherWord t)
  | [(_, flag)] => .ok (.option flag true argument.isSome argument)
  | _ => .error .usage

/-- The form of an argument in front of any separator. -/
def classify (t : Text) : Except Refusal Token :=
  match t with
  | [.char '-'] => .ok (.positional t)
  | .char '-' :: second :: rest =>
    let isLong : Bool := second = .char '-'
    match flag? t with
    | some flag => .ok (.option flag isLong false none)
    | none =>
      match splitAssignment t with
      | (spelling, some argument) =>
        match flag? spelling with
        | some flag => .ok (.option flag isLong true (some argument))
        | none => prefixed isLong second rest
      | (_, none) => prefixed isLong second rest
  | _ => .ok (.positional t)
where
  /-- A word that no spelling explains as a whole. -/
  prefixed (isLong : Bool) (second : CodePoint) (rest : Text) : Except Refusal Token :=
    if isLong then longOption t
    else
      match flag? [.char '-', second] with
      | some flag => .ok (.option flag false false (some rest))
      | none => .ok (otherWord t)

/-- The forms of all arguments. Those behind the first separator are no options. -/
def tokens : List Text → Except Refusal (List Token)
  | [] => .ok []
  | argument :: arguments =>
    if argument = "--" then
      .ok (.separator :: arguments.map .positional)
    else do
      let token ← classify argument
      return token :: (← tokens arguments)

/-- What one argument asks for: an option, an indentation whose value is given or comes
next, or something that is left over.
-/
inductive Setting where
  | flag (flag : Flag)
  | indent (argument : Text)
  | indentNext
  | leftOver

def Setting.isNext : Setting → Bool
  | indentNext => true
  | _ => false

/-- The letters behind the one of a flag, each an option up to one that takes the rest of
the word as its argument.
-/
def cluster (flag : Flag) : Text → Except Refusal (List Setting)
  | [] => .ok [.flag flag]
  | c :: rest =>
    if c = .char '-' then .error .usage
    else
      match flag? [.char '-', c], rest with
      | none, _ => .ok [.flag flag, .leftOver]
      | some .indent, [] => .ok [.flag flag, .indentNext]
      | some .indent, .char '=' :: argument => .ok [.flag flag, .indent argument]
      | some .indent, argument => .ok [.flag flag, .indent argument]
      | some _, .char '=' :: _ => .error .usage
      | some next, _ => (.flag flag :: ·) <$> cluster next rest

/-- What an option asks for. -/
def settings (flag : Flag) (isLong isAssigned : Bool) (argument : Option Text)
    : Except Refusal (List Setting) :=
  match flag, argument with
  | .indent, none => .ok [.indentNext]
  | .indent, some argument => .ok [.indent argument]
  | flag, none => .ok [.flag flag]
  | flag, some letters => if isLong || isAssigned then .error .usage else cluster flag letters

/-- What the arguments say. -/
structure Options where
  verbosity : Nat := 0
  lines : Bool := false
  paths : Bool := false
  indent : Option Int := none
  file : Text := "-"
  query : Option Text := none

/-- The options so far, the arguments since the last option that are not part of one,
whether a separator was among them, and whether something is left over.
-/
structure Progress where
  options : Options := {}
  run : List Text := []
  isSeparated : Bool := false
  hasExtras : Bool := false

namespace Progress

/-- Takes the arguments since the last option as the query, or as file and query. That can
happen once, and anything else is left over.
-/
def close (progress : Progress) : Progress :=
  let options := progress.options
  match options.query, progress.run with
  | none, [] => { progress with isSeparated := false }
  | none, [query] =>
    { options := { options with query := some query }, hasExtras := progress.hasExtras }
  | none, file :: query :: others =>
    { options := { options with file, query := some query },
      hasExtras := progress.hasExtras || !others.isEmpty }
  | some _, run =>
    { options, hasExtras := progress.hasExtras || progress.isSeparated || !run.isEmpty }

/-- Does what one argument asks for, unless it waits for its value. -/
def set (progress : Progress) : Setting → Except Refusal Progress
  | .flag .help => .error .help
  | .flag .verbose =>
    .ok { progress with options.verbosity := progress.options.verbosity + 1 }
  | .flag .lines => .ok { progress with options.lines := true }
  | .flag .paths => .ok { progress with options.paths := true }
  | .flag .indent => .error .usage
  | .indent argument =>
    match Text.toInt? argument with
    | some indent => .ok { progress with options.indent := some indent }
    | none => .error .usage
  | .indentNext => .error .usage
  | .leftOver => .ok { progress with hasExtras := true }

/-- Does what the arguments ask for, one after another. -/
def scan (progress : Progress) : List Token → Except Refusal Progress
  | [] => .ok progress.close
  | .positional t :: rest => scan { progress with run := progress.run ++ [t] } rest
  | .separator :: rest => scan { progress with isSeparated := true } rest
  | .unknown :: rest => scan { progress.close with hasExtras := true } rest
  | .option flag isLong isAssigned argument :: rest => do
    let asked ← settings flag isLong isAssigned argument
    if asked.any Setting.isNext then
      match rest with
      | .positional argument :: rest =>
        let flags := asked.filter (!·.isNext)
        scan (← (flags ++ [Setting.indent argument]).foldlM set progress.close) rest
      | _ => .error .usage
    else
      scan (← asked.foldlM set progress.close) rest

end Progress

/-- The options of a command with a query. -/
def Options.ofArguments (arguments : List Text) : Except Refusal (Options × Text) := do
  let progress ← Progress.scan {} (← tokens arguments)
  match progress.options.query, progress.hasExtras with
  | some query, false => return (progress.options, query)
  | _, _ => .error .usage

end JsonPath.CommandLine
