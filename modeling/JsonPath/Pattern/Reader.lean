import JsonPath.Pattern.Basic
import JsonPath.Pattern.Expansion
import JsonPath.Pattern.Host
import JsonPath.Text.Identifier
import JsonPath.Text.Integer

/-! Reading plain regular expressions. Back references, conditions on the text around a match
and flags are not part of the notation here.
-/

namespace JsonPath.Pattern

/-- Why a text is no regular expression. Numbers and the nesting of groups have limits, and
to go beyond them is not the same as to be invalid.
-/
inductive Fault where
  | invalid
  | oversizedNumber
  | tooDeep
  deriving DecidableEq

/-- An escape inside or outside a class: a character, or a class item. -/
inductive Escape where
  | literal (n : Nat)
  | kind (item : ClassItem)

/-- The first code that is too large, rather than only beyond the last code point. -/
def maxCode : Nat := Nat.pow 2 31

/-- The code point that exactly `count` hexadecimal digits spell. A code that is too large is
refused in front of a lone backslash before it is found to be so.
-/
def hexEscape (count : Nat) (t : Text) : Except Fault (Nat × Text) :=
  let digits := t.take count
  match Numeral.hexToNat? digits with
  | some n =>
    if digits.length ≠ count then .error .invalid
    else if n < CodePoint.limit then .ok (n, t.drop count)
    else if n < maxCode ∨ t.drop count = [.char '\\'] then .error .invalid
    else .error .oversizedNumber
  | none => .error .invalid

/-- The value of an octal digit. -/
def octalDigit? : CodePoint → Option Nat
  | .char c => if '0' ≤ c ∧ c ≤ '7' then some (c.toNat - '0'.toNat) else none
  | .surrogate _ => none

/-- Up to `count` octal digits behind those of the number read so far. -/
def octal (n : Nat) : Nat → Text → Nat × Text
  | 0, t => (n, t)
  | _ + 1, [] => (n, [])
  | count + 1, c :: rest =>
    match octalDigit? c with
    | some digit => octal (n * 8 + digit) count rest
    | none => (n, c :: rest)

/-- The text in front of a closing mark, and the text behind the mark. No name that ends with
a mark holds a backslash.
-/
def upTo? (mark : Char) : Text → Option (Text × Text)
  | [] => none
  | .char '\\' :: _ => none
  | c :: rest =>
    if c = .char mark then some ([], rest)
    else (upTo? mark rest).map fun (word, rest) => (c :: word, rest)

section Escapes

variable (host : Host)

/-- The character whose name stands between braces. -/
def namedEscape (t : Text) : Except Fault (Escape × Text) :=
  match t with
  | .char '\x7b' :: rest =>
    match upTo? '\x7d' rest with
    | some (name, rest) =>
      match host.named? name with
      | some c => .ok (.literal c.toNat, rest)
      | none => .error .invalid
    | none => .error .invalid
  | _ => .error .invalid

/-- The escapes that mean the same inside and outside a class. -/
def commonEscape (c : CodePoint) (rest : Text) : Except Fault (Escape × Text) :=
  match c with
  | .char 'a' => .ok (.literal 0x07, rest)
  | .char 'f' => .ok (.literal 0x0C, rest)
  | .char 'n' => .ok (.literal 0x0A, rest)
  | .char 'r' => .ok (.literal 0x0D, rest)
  | .char 't' => .ok (.literal 0x09, rest)
  | .char 'v' => .ok (.literal 0x0B, rest)
  | .char 'd' => .ok (.kind (.digit false), rest)
  | .char 'D' => .ok (.kind (.digit true), rest)
  | .char 's' => .ok (.kind (.space false), rest)
  | .char 'S' => .ok (.kind (.space true), rest)
  | .char 'w' => .ok (.kind (.word false), rest)
  | .char 'W' => .ok (.kind (.word true), rest)
  | .char 'x' => (hexEscape 2 rest).map fun (n, rest) => (.literal n, rest)
  | .char 'u' => (hexEscape 4 rest).map fun (n, rest) => (.literal n, rest)
  | .char 'U' => (hexEscape 8 rest).map fun (n, rest) => (.literal n, rest)
  | .char 'N' => namedEscape host rest
  | c => if c.char?.any Char.isAlphanum then .error .invalid else .ok (.literal c.toNat, rest)

/-- What follows a backslash inside a class. -/
def classEscape : Text → Except Fault (Escape × Text)
  | [] => .error .invalid
  | .char 'b' :: rest => .ok (.literal 0x08, rest)
  | c :: rest =>
    match octalDigit? c with
    | some digit =>
      let (n, rest) := octal digit 2 rest
      if n ≤ 0xFF then .ok (.literal n, rest) else .error .invalid
    | none => commonEscape host c rest

/-- A character of a class or an escape. -/
def classAtom : Text → Except Fault (Escape × Text)
  | [] => .error .invalid
  | .char '\\' :: rest => classEscape host rest
  | c :: rest => .ok (.literal c.toNat, rest)

def Escape.toItem : Escape → ClassItem
  | literal n => .range n n
  | kind item => item

/-- The items of a class up to its closing bracket, which is an item itself where it comes
first.
-/
def classItems : Nat → Bool → Text → Except Fault (List ClassItem × Text)
  | 0, _, _ => .error .invalid
  | limit + 1, isFirst, t =>
    match isFirst, t with
    | false, .char ']' :: rest => .ok ([], rest)
    | _, t => do
      let (atom, rest) ← classAtom host t
      match rest with
      | .char '-' :: .char ']' :: rest => return ([atom.toItem, .range 0x2D 0x2D], rest)
      | .char '-' :: rest =>
        let (atom', rest) ← classAtom host rest
        match atom, atom' with
        | .literal first, .literal last =>
          if first ≤ last then
            let (items, rest) ← classItems limit false rest
            return (.range first last :: items, rest)
          else
            .error .invalid
        | _, _ => .error .invalid
      | rest =>
        let (items, rest) ← classItems limit false rest
        return (atom.toItem :: items, rest)

/-- A class after its opening bracket. -/
def charClass (limit : Nat) (t : Text) : Except Fault (CharClass × Text) := do
  let (negated, t) :=
    match t with
    | .char '^' :: rest => (true, rest)
    | _ => (false, t)
  let (items, rest) ← classItems host limit true t
  return (⟨negated, items⟩, rest)

end Escapes

/-- What a part of a sequence is to a quantifier behind it. -/
inductive Role where
  | atom
  | anchor
  | repeated
  deriving DecidableEq

/-- A part of a sequence. -/
structure Item where
  pattern : Pattern
  role : Role

def Escape.toPattern : Escape → Pattern
  | literal n => .char (.single n)
  | kind item => .char ⟨false, [item]⟩

/-- What follows a backslash outside a class. Digits spell an octal number, with a leading
zero or in threes.
-/
def escape (host : Host) : Text → Except Fault (Item × Text)
  | [] => .error .invalid
  | .char 'A' :: rest => .ok (⟨.anchor .start, .anchor⟩, rest)
  | .char 'Z' :: rest => .ok (⟨.anchor .lastFinish, .anchor⟩, rest)
  | .char 'b' :: rest => .ok (⟨.anchor .boundary, .anchor⟩, rest)
  | .char 'B' :: rest => .ok (⟨.anchor .noBoundary, .anchor⟩, rest)
  | .char '0' :: rest =>
    let (n, rest) := octal 0 2 rest
    .ok (⟨.char (.single n), .atom⟩, rest)
  | c :: rest =>
    match octalDigit? c with
    | some digit =>
      let (n, after) := octal digit 2 rest
      if after.length + 2 = rest.length ∧ n ≤ 0xFF then
        .ok (⟨.char (.single n), .atom⟩, after)
      else
        .error .invalid
    | none =>
      (commonEscape host c rest).map fun (found, rest) => (⟨found.toPattern, .atom⟩, rest)

/-- The first repeat count that is too large. -/
def maxRepeat : Nat := Nat.pow 2 32 - 1

/-- A repeat count, where `absent` stands for no digits. It is refused in front of a lone
backslash before it is found too large.
-/
def repeatCount (digits rest : Text) (absent : Option Nat) : Except Fault (Option Nat) :=
  if digits.isEmpty then .ok absent
  else if Numeral.longest < digits.length ∨ rest = [.char '\\'] then .error .invalid
  else if maxRepeat ≤ Numeral.toNat digits then .error .oversizedNumber
  else .ok (some (Numeral.toNat digits))

/-- The counts after an opening brace, unless the brace stands for itself. -/
def braces (t : Text) : Except Fault (Option (Nat × Option Nat × Text)) := do
  let (low, rest) := t.span CodePoint.isDigit
  let (high, rest) :=
    match rest with
    | .char ',' :: rest => rest.span CodePoint.isDigit
    | _ => (low, rest)
  match t, rest with
  | .char '\x7d' :: _, _ => return none
  | _, .char '\x7d' :: rest =>
    let least := (← repeatCount low rest none).getD 0
    let most ← repeatCount high rest none
    if most.any (· < least) then .error .invalid else return some (least, most, rest)
  | _, _ => return none

/-- The counts of the quantifier at the start, if one stands there. -/
def quantifier? (t : Text) : Except Fault (Option (Nat × Option Nat × Text)) :=
  match t with
  | .char '?' :: rest => .ok (some (0, some 1, rest))
  | .char '*' :: rest => .ok (some (0, none, rest))
  | .char '+' :: rest => .ok (some (1, none, rest))
  | .char '\x7b' :: rest => braces rest
  | _ => .ok none

/-- Repeats the last part of a reversed sequence. A question mark prefers few times, and a
plus gives up all ways to match but the preferred one, in each repetition and as a whole.
-/
def repeatLast (least : Nat) (most : Option Nat) (items : List Item) (t : Text)
    : Except Fault (List Item × Text) :=
  match items with
  | ⟨body, .atom⟩ :: items =>
    match t with
    | .char '?' :: rest => .ok (⟨.repeated false least most body, .repeated⟩ :: items, rest)
    | .char '+' :: rest =>
      .ok (⟨.atomic (.repeated true least most (.atomic body)), .repeated⟩ :: items, rest)
    | rest => .ok (⟨.repeated true least most body, .repeated⟩ :: items, rest)
  | _ => .error .invalid

/-- The text after a comment, which ends at a parenthesis without a backslash. -/
def afterComment? : Text → Option Text
  | [] => none
  | .char ')' :: rest => some rest
  | .char '\\' :: _ :: rest => afterComment? rest
  | _ :: rest => afterComment? rest

/-- The number of the group that a condition names, by its name when the group has one and has
opened before, or by the number itself.
-/
def reference? (groups : List (Option Text)) (name : Text) : Option Nat :=
  if name.isIdentifier then
    (groups.idxOf? (some name)).map (· + 1)
  else
    match Text.toInt? name with
    | some (.ofNat (number + 1)) => some (number + 1)
    | _ => none

/-- The sequence of parts that come in reverse. -/
def ofItems (items : List Item) : Pattern :=
  items.foldl (fun rest item => .sequence item.pattern rest) .empty

/-- Passes the parenthesis that closes a group. -/
def close (found : Pattern × Text) : Except Fault (Pattern × Text) :=
  match found with
  | (pattern, .char ')' :: rest) => .ok (pattern, rest)
  | _ => .error .invalid

section Groups

variable (host : Host) (branch : List (Option Text) → Text → Except Fault (Pattern × Text))

/-- Reads alternatives, at most `limit` of them, when the given groups have opened. -/
def alternatives : Nat → List (Option Text) → Text → Except Fault (Pattern × Text)
  | 0, _, _ => .error .invalid
  | limit + 1, groups, t => do
    let (first, rest) ← branch groups t
    match rest with
    | .char '|' :: rest =>
      let (others, rest) ← alternatives limit (groups ++ first.groups) rest
      return (.alternative first others, rest)
    | rest => return (first, rest)

/-- Reads alternatives and the parenthesis that closes their group. -/
def enclosed (groups : List (Option Text)) (t : Text) : Except Fault (Pattern × Text) := do
  close (← alternatives branch (t.length + 1) groups t)

/-- Reads a group of the next number after what names it. -/
def captured (groups : List (Option Text)) (name : Option Text) (t : Text)
    : Except Fault (Pattern × Text) := do
  let (body, rest) ← enclosed branch (groups ++ [name]) t
  return (.group (groups.length + 1) name body, rest)

/-- Reads the one or two sequences of a condition on a group and the parenthesis that closes
it.
-/
def condition (groups : List (Option Text)) (number : Nat) (t : Text)
    : Except Fault (Pattern × Text) := do
  let (first, rest) ← branch groups t
  match rest with
  | .char '|' :: rest =>
    let (second, rest) ← branch (groups ++ first.groups) rest
    close (.conditional number first second, rest)
  | rest => close (.conditional number first .empty, rest)

/-- Reads a group after its opening parenthesis. -/
def parenthesized (groups : List (Option Text)) (t : Text) : Except Fault (Pattern × Text) :=
  match t with
  | .char '?' :: .char ':' :: rest => enclosed branch groups rest
  | .char '?' :: .char '>' :: rest => do
    let (body, rest) ← enclosed branch groups rest
    return (.atomic body, rest)
  | .char '?' :: .char 'P' :: .char '<' :: rest =>
    match upTo? '>' rest with
    | some (name, rest) =>
      if name.isIdentifier ∧ some name ∉ groups then captured branch groups (some name) rest
      else .error .invalid
    | none => .error .invalid
  | .char '?' :: .char '(' :: rest =>
    match upTo? ')' rest with
    | some (name, rest) =>
      match reference? groups name with
      | some number => condition branch groups number rest
      | none => .error .invalid
    | none => .error .invalid
  | .char '?' :: _ => .error .invalid
  | t => captured branch groups none t

/-- Reads parts of a sequence behind those read so far, which are reversed. -/
def sequenceItems
    : Nat → List (Option Text) → List Item → Text → Except Fault (List Item × Text)
  | 0, _, items, t => .ok (items, t)
  | limit + 1, groups, items, t =>
    match t with
    | [] => .ok (items, t)
    | .char '|' :: _ => .ok (items, t)
    | .char ')' :: _ => .ok (items, t)
    | .char '(' :: .char '?' :: .char '#' :: rest =>
      match afterComment? rest with
      | some rest => sequenceItems limit groups items rest
      | none => .error .invalid
    | .char '(' :: rest => do
      let (pattern, rest) ← parenthesized branch groups rest
      sequenceItems limit (groups ++ pattern.groups) (⟨pattern, .atom⟩ :: items) rest
    | .char '[' :: rest => do
      let (found, rest) ← charClass host t.length rest
      sequenceItems limit groups (⟨.char found, .atom⟩ :: items) rest
    | .char '\\' :: rest => do
      let (item, rest) ← escape host rest
      sequenceItems limit groups (item :: items) rest
    | .char '.' :: rest =>
      sequenceItems limit groups (⟨.char ⟨true, [.range 0x0A 0x0A]⟩, .atom⟩ :: items) rest
    | .char '^' :: rest => sequenceItems limit groups (⟨.anchor .start, .anchor⟩ :: items) rest
    | .char '$' :: rest => sequenceItems limit groups (⟨.anchor .finish, .anchor⟩ :: items) rest
    | c :: rest => do
      match ← quantifier? t with
      | some (least, most, rest) =>
        let (items, rest) ← repeatLast least most items rest
        sequenceItems limit groups items rest
      | none => sequenceItems limit groups (⟨.char (.single c.toNat), .atom⟩ :: items) rest

end Groups

/-- Reads a sequence in which groups are nested less than `depth` deep, when the given groups
have opened.
-/
def branch (host : Host) : Nat → List (Option Text) → Text → Except Fault (Pattern × Text)
  | 0, _, _ => .error .tooDeep
  | depth + 1, groups, t => do
    let (items, rest) ← sequenceItems host (branch host depth) t.length groups [] t
    return (ofItems items, rest)

/-- The pattern that a regular expression spells. Conditions depend on its groups only. -/
def parse (host : Host) (t : Text) : Except Fault Pattern := do
  match ← alternatives (branch host (host.depth + 1)) (t.length + 1) [] t with
  | (pattern, []) =>
    if pattern.references.all (· ≤ pattern.groups.length) then
      return pattern.withGroups pattern.references
    else
      .error .invalid
  | _ => .error .invalid

/-- The pattern that an I-Regexp spells to a host. -/
def compileOn (host : Host) (t : Text) : Except Fault Pattern :=
  match expand t with
  | some expansion => parse host expansion
  | none => .error .invalid

/-- The pattern that an I-Regexp spells. -/
def compile (t : Text) : Except Fault Pattern :=
  compileOn .standard t

end JsonPath.Pattern
