import JsonPath.Query.Lexeme

/-! Reading queries and filter expressions. Every reader of a part of the grammar takes the
reader `nested` for the logical expressions inside it; `logical` ties the knot, one level of
nesting at a time. `limit` bounds the length of every text that is left.
-/

namespace JsonPath.Syntax

/-- Reads items for as long as `next` finds one. -/
def many {α : Type} (next : Text → Except Fault (Option (α × Text)))
    : Nat → Text → Except Fault (List α × Text)
  | 0, t => .ok ([], t)
  | limit + 1, t => do
    match ← next t with
    | none => return ([], t)
    | some (item, rest) =>
      let (items, rest) ← many next limit rest
      return (item :: items, rest)

/-- One item, and those that `next` finds after it. -/
def oneOrMore {α : Type} (next : Text → Except Fault (Option (α × Text)))
    (item : Text → Except Fault (α × Text)) (limit : Nat) (t : Text)
    : Except Fault (List α × Text) := do
  let (first, rest) ← item t
  let (others, rest) ← many next limit rest
  return (first :: others, rest)

/-- The item after a comma. -/
def afterComma {α : Type} (item : Text → Except Fault (α × Text)) (t : Text)
    : Except Fault (Option (α × Text)) :=
  match Text.skipBlanks t with
  | .char ',' :: rest => some <$> item rest
  | _ => .ok none

/-- The item after an operator of two equal characters. -/
def afterOperator {α : Type} (operator : Char) (item : Text → Except Fault (α × Text))
    (t : Text) : Except Fault (Option (α × Text)) :=
  match Text.skipBlanks t with
  | .char c :: .char d :: rest =>
    if c = operator ∧ d = operator then some <$> item (Text.skipBlanks rest) else .ok none
  | _ => .ok none

/-- The result type of a call, as far as it is known without the functions of a session. -/
def resultKind? : Expression → Option Kind
  | .call name _ => (Builtin.ofName? name).map (·.signature.result)
  | _ => none

def isLiteral : Expression → Bool
  | .literal _ => true
  | _ => false

/-- The segments of a query inside an expression. -/
def segments? : Expression → Option Query
  | .current segments => some segments
  | .root segments => some segments
  | _ => none

def isCall : Expression → Bool
  | .call _ _ => true
  | _ => false

/-- Whether the expression can have a truth value. -/
def checkTest (e : Expression) (rest : Text) : Except Fault Unit :=
  if isLiteral e then .error ⟨.literalTest e, rest⟩
  else if resultKind? e = some .value then .error ⟨.valueTest e, rest⟩
  else .ok ()

/-- Whether the expression can be a side of a comparison. -/
def checkComparable (e : Expression) (rest : Text) : Except Fault Unit :=
  if (segments? e).any (!Query.isSingular ·) then .error ⟨.notSingular e, rest⟩
  else if (resultKind? e).any (· ≠ .value) then .error ⟨.notComparable e, rest⟩
  else .ok ()

/-- Whether the expression can be an argument of the given kind. -/
def isArgument (e : Expression) : Kind → Bool
  | .value =>
    isLiteral e || (segments? e).any Query.isSingular
      || isCall e && (resultKind? e).all (· = .value)
  | .nodes => (segments? e).isSome || isCall e && (resultKind? e).all (· = .nodes)
  | .logical => !isLiteral e && resultKind? e ≠ some .value

section Grammar

variable (limit : Nat) (nested : Text → Except Fault (Expression × Text))

/-- An index, or a slice of up to three parts. -/
def indexOrSlice (t : Text) : Except Fault (Segment × Text) := do
  match t with
  | .char ':' :: rest => slice none rest
  | _ =>
    let (start, rest) ← integer t
    match Text.skipBlanks rest with
    | .char ':' :: rest => slice (some start) rest
    | rest => return (.index start, rest)
where
  /-- A bound of the slice, if one stands here. -/
  bound (ends : List Char) (t : Text) : Except Fault (Option Int × Text) :=
    match t with
    | [] => .ok (none, t)
    | c :: _ => if (ends.map CodePoint.char).contains c then .ok (none, t) else do
      let (n, rest) ← integer t
      return (some n, rest)
  /-- The parts of the slice after its first colon. -/
  slice (start : Option Int) (t : Text) : Except Fault (Segment × Text) := do
    let (stop, rest) ← bound [':', ',', ']'] (Text.skipBlanks t)
    let rest := if stop.isSome then Text.skipBlanks rest else rest
    match rest with
    | .char ':' :: rest =>
      let (step, rest) ← bound [',', ']'] (Text.skipBlanks rest)
      return (.slice start stop (step.getD 1), rest)
    | _ => return (.slice start stop 1, rest)

/-- A selector between brackets. -/
def selector (t : Text) : Except Fault (Segment × Text) :=
  match t with
  | [] => fail .emptySelection t
  | c :: rest =>
    if c = .char '"' ∨ c = .char '\'' then do
      let (name, rest) ← stringRest c t limit rest
      return (.key name, rest)
    else if c = .char '*' then .ok (.wildcard, rest)
    else if c = .char '?' then do
      let start := Text.skipBlanks rest
      let (test, rest) ← nested start
      checkTest test start
      return (.filter test, rest)
    else if c = .char ':' ∨ c = .char '-' ∨ c.isNumericDigit then indexOrSlice t
    else if c = .char ']' then fail .emptySelection t
    else fail (.invalidSelector c) t

/-- The selectors after the bracket at `start`, and the closing one. -/
def bracketed (start rest : Text) : Except Fault (Segment × Text) := do
  let (selectors, rest) ← oneOrMore (afterComma item) item limit rest
  match Text.skipBlanks rest with
  | [] => fail .openBracket start
  | .char ']' :: rest => return (.ofSelection selectors, rest)
  | c :: rest => fail (.expectedSelectorEnd c) (c :: rest)
where
  /-- One selector, which cannot be missing. -/
  item (t : Text) : Except Fault (Segment × Text) :=
    match Text.skipBlanks t with
    | [] => fail .openBracket start
    | t => selector limit nested t

/-- The name or wildcard after the dots at `start`. -/
def dotted (start : Text) (afterDescent : Bool) (t : Text) : Except Fault (Segment × Text) :=
  match t with
  | [] => fail (if afterDescent then .missingAfterDescent else .invalidName) start
  | c :: rest =>
    if c = .char '*' then .ok (.wildcard, rest)
    else if isNameFirst c then
      let (name, rest) := t.span isNameChar
      .ok (.key name, rest)
    else if c.isBlank then fail .blankAfterDot t
    else fail (if afterDescent then .missingAfterDescent else .invalidName) t

/-- The segment at the start, after blanks, or the two segments of a descent and its
selector.
-/
def segment (t : Text) : Except Fault (Option (List Segment × Text)) :=
  match Text.skipBlanks t with
  | .char '.' :: .char '.' :: .char '[' :: rest => do
    let (selector, rest) ← bracketed limit nested (.char '[' :: rest) rest
    return some ([.descendants, selector], rest)
  | .char '.' :: .char '.' :: rest => do
    let (selector, rest) ← dotted (Text.skipBlanks t) true rest
    return some ([.descendants, selector], rest)
  | .char '.' :: rest => do
    let (selector, rest) ← dotted (Text.skipBlanks t) false rest
    return some ([selector], rest)
  | .char '[' :: rest => do
    let (selector, rest) ← bracketed limit nested (.char '[' :: rest) rest
    return some ([selector], rest)
  | _ => .ok none

/-- The segments after the identifier of a node. -/
def segments (t : Text) : Except Fault (Query × Text) := do
  let (groups, rest) ← many (segment limit nested) limit t
  return (groups.flatten, rest)

/-- One argument with the text at which it starts. -/
def argument (t : Text) : Except Fault ((Expression × Text) × Text) := do
  let start := Text.skipBlanks t
  let (e, rest) ← nested start
  return ((e, start), rest)

/-- The arguments of the call at `start`, and the closing parenthesis. -/
def arguments (name start : Text) (t : Text)
    : Except Fault (List (Expression × Text) × Text) := do
  match Text.skipBlanks t with
  | .char ')' :: rest => return ([], rest)
  | t =>
    let (found, rest) ← oneOrMore (afterComma (argument nested)) (argument nested) limit t
    match Text.skipBlanks rest with
    | [] => fail (.openCall name) start
    | .char ')' :: rest => return (found, rest)
    | c :: rest => fail (.expectedArgumentEnd name c) (c :: rest)

/-- Checks arguments against the parameters of the function. -/
def checkArguments (name : Text) : List (Expression × Text) → List Kind → Except Fault Unit
  | (e, rest) :: arguments, kind :: kinds =>
    if isArgument e kind then checkArguments name arguments kinds
    else .error ⟨.invalidArgument e name kind, rest⟩
  | _, _ => .ok ()

/-- Checks a call when its function is known. -/
def checkCall (name start : Text) (arguments : List (Expression × Text)) : Except Fault Unit :=
  match Builtin.ofName? name with
  | none => .ok ()
  | some builtin =>
    let kinds := builtin.signature.parameters
    if arguments.length ≠ kinds.length then
      .error ⟨.argumentCount name kinds.length arguments.length, start⟩
    else
      checkArguments name arguments kinds

/-- The words that stand for values. -/
def words : List (Text × Value) :=
  [("true", .bool true), ("false", .bool false), ("null", .null)]

/-- A call, or one of the words that stand for values. -/
def callOrWord (t : Text) : Except Fault (Expression × Text) :=
  match word t with
  | (name, .char '(' :: rest) =>
    if name.isEmpty then invalid else do
      let (arguments, rest) ← arguments limit nested name t rest
      checkCall name t arguments
      return (.call name (arguments.map (·.1)), rest)
  | (name, rest) =>
    match words.lookup name with
    | some value => .ok (.literal value, rest)
    | none => invalid
where
  invalid : Except Fault (Expression × Text) :=
    match t with
    | [] => fail .endOfFilter t
    | c :: _ => fail (.invalidExpression c) t

/-- A query, a literal or a call. -/
def primary (t : Text) : Except Fault (Expression × Text) :=
  match t with
  | [] => fail .endOfFilter t
  | c :: rest =>
    if c = .char '@' then do
      let (query, rest) ← segments limit nested rest
      return (.current query, rest)
    else if c = .char '$' then do
      let (query, rest) ← segments limit nested rest
      return (.root query, rest)
    else if c = .char '"' ∨ c = .char '\'' then do
      let (content, rest) ← stringRest c t limit rest
      return (.literal (.string content), rest)
    else if c = .char '-' ∨ c.isNumericDigit then do
      let (n, rest) ← number t
      return (.literal (.number n), rest)
    else
      callOrWord limit nested t

/-- The expression after the parenthesis at `start`, and the closing one. -/
def parenthesis (start rest : Text) : Except Fault (Expression × Text) := do
  let (e, after) ← nested (Text.skipBlanks rest)
  checkTest e rest
  match Text.skipBlanks after with
  | [] => fail .openParenthesis start
  | .char ')' :: after => return (e, after)
  | c :: after => fail (.expectedParenthesis c) (c :: after)

/-- The operand of a negation. -/
def negated (t : Text) : Except Fault (Expression × Text) := do
  match t with
  | .char '(' :: rest => checked (← parenthesis nested t rest)
  | _ =>
    let (operand, rest) ← primary limit nested t
    if operand.isPrimary then checked (operand, rest) else fail .negatedComparable t
where
  checked (read : Expression × Text) : Except Fault (Expression × Text) := do
    checkTest read.1 t
    return (.negation read.1, read.2)

/-- A primary expression, or a comparison of two of them. -/
def comparison (t : Text) : Except Fault (Expression × Text) := do
  let (left, rest) ← primary limit nested t
  match comparator? (Text.skipBlanks rest) with
  | none => return (left, rest)
  | some (comparator, after) =>
    let start := Text.skipBlanks after
    let (right, rest) ← primary limit nested start
    checkComparable left t
    checkComparable right start
    return (.comparison comparator left right, rest)

/-- An operand of a conjunction. -/
def basic (t : Text) : Except Fault (Expression × Text) :=
  match t with
  | .char '!' :: .char '=' :: _ => comparison limit nested t
  | .char '!' :: rest => negated limit nested (Text.skipBlanks rest)
  | .char '(' :: rest => parenthesis nested t rest
  | _ => comparison limit nested t

/-- One or more operands with an operator of two equal characters between them. When there
are several, each needs a truth value.
-/
def operands (operator : Char) (operand : Text → Except Fault (Expression × Text)) (t : Text)
    : Except Fault (List Expression × Text) := do
  let (found, rest) ← oneOrMore (afterOperator operator operand) operand limit t
  if found.length = 1 then
    return (found, rest)
  else
    found.forM fun e => checkTest e t
    return (found, rest)

/-- A conjunction, or its only operand. -/
def conjunction (t : Text) : Except Fault (Expression × Text) := do
  let (found, rest) ← operands limit '&' (basic limit nested) t
  return (.conjoin found, rest)

/-- A disjunction, or its only operand. -/
def disjunction (t : Text) : Except Fault (Expression × Text) := do
  let (found, rest) ← operands limit '|' (conjunction limit nested) t
  return (.disjoin found, rest)

end Grammar

/-- A logical expression with at most `depth` levels of nesting. -/
def logical (limit : Nat) : Nat → Text → Except Fault (Expression × Text)
  | 0 => fail .tooDeep
  | depth + 1 => disjunction limit (logical limit depth)

/-- The deepest nesting of expressions. -/
def maxDepth : Nat := 200

/-- The query of a whole text, whose expressions are nested at most `depth` deep. -/
def query (depth : Nat) (t : Text) : Except Fault Query :=
  match t with
  | [] => fail .emptyQuery t
  | .char '$' :: rest => do
    let (found, rest) ← segments t.length (logical t.length depth) rest
    match rest with
    | [] => return found
    | c :: _ => if c.isBlank then fail .trailingBlank rest else fail (.unexpected c) rest
  | _ => fail .missingRoot t

/-- The filter expression that takes up the text from `start` on, nested at most `depth`
deep.
-/
def filterFrom (limit depth : Nat) (start : Text) : Except Fault Expression :=
  if start.isEmpty then
    fail .emptyFilter start
  else do
    let (e, rest) ← logical limit depth start
    checkTest e start
    match Text.skipBlanks rest with
    | [] => return e
    | c :: rest => fail (.unexpectedInFilter c) (c :: rest)

/-- The filter expression of a whole text, with or without a question mark in front of it,
nested at most `depth` deep.
-/
def filter (depth : Nat) (t : Text) : Except Fault Expression :=
  match Text.skipBlanks t with
  | .char '?' :: rest => filterFrom t.length depth (Text.skipBlanks rest)
  | start => filterFrom t.length depth start

/-- The error for a fault in a text. -/
def Fault.error (fault : Fault) (t : Text) : QueryError :=
  match fault.cause with
  | .oversizedInteger digits => .oversizedInteger digits
  | cause => .syntaxError cause t (t.length - fault.rest.length)

end JsonPath.Syntax

namespace JsonPath

/-- The query that a text spells, when its expressions are nested at most `depth` deep. -/
def Query.parseWithin (depth : Nat) (t : Text) : Except QueryError Query :=
  (Syntax.query depth t).mapError (·.error t)

/-- The query that a text spells. -/
def Query.parse (t : Text) : Except QueryError Query :=
  Query.parseWithin Syntax.maxDepth t

/-- The filter expression that a text spells, nested at most `depth` deep. -/
def Expression.parseWithin (depth : Nat) (t : Text) : Except QueryError Expression :=
  (Syntax.filter depth t).mapError (·.error t)

/-- The filter expression that a text spells. -/
def Expression.parse (t : Text) : Except QueryError Expression :=
  Expression.parseWithin Syntax.maxDepth t

end JsonPath
