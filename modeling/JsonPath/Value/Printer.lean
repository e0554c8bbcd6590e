import JsonPath.Text.Numeral
import JsonPath.Value.Basic

/-! Writing documents, on one line or with every element and member on a line of its own. -/

namespace JsonPath

namespace Document

/-- A character of a string. Only the quote, the backslash and control characters need an
escape.
-/
def writeChar (c : CodePoint) : Text :=
  match c with
  | .char '"' => "\\\""
  | .char '\\' => "\\\\"
  | .char '\n' => "\\n"
  | .char '\r' => "\\r"
  | .char '\t' => "\\t"
  | .char '\x08' => "\\b"
  | .char '\x0C' => "\\f"
  | c => if c.toNat < 0x20 then "\\u" ++ Numeral.hex 4 c.toNat else [c]

/-- A string between double quotes. -/
def writeString (content : Text) : Text :=
  .char '"' :: content.flatMap writeChar ++ [.char '"']

/-- A line break and the indentation of a level, when lines are indented by `indent` at all.
-/
def lineBreak (indent : Option Nat) (level : Nat) : Text :=
  match indent with
  | none => []
  | some width => .char '\n' :: List.replicate (width * level) (.char ' ')

/-- What stands between two parts of an array or object at a level. -/
def separator (indent : Option Nat) (level : Nat) : Text :=
  match indent with
  | none => ", "
  | some _ => .char ',' :: lineBreak indent level

mutual

/-- A value at a level of nesting. -/
def write (indent : Option Nat) (level : Nat) : Value → Text
  | .null => "null"
  | .bool true => "true"
  | .bool false => "false"
  | .number n => n.text
  | .string content => writeString content
  | .array [] => "[]"
  | .array (value :: values) =>
    "[" ++ lineBreak indent (level + 1) ++ write indent (level + 1) value
      ++ writeElements indent (level + 1) values ++ lineBreak indent level ++ "]"
  | .object [] => "\x7b\x7d"
  | .object ((name, value) :: members) =>
    "\x7b" ++ lineBreak indent (level + 1) ++ writeString name ++ ": "
      ++ write indent (level + 1) value ++ writeMembers indent (level + 1) members
      ++ lineBreak indent level ++ "\x7d"

/-- The elements after the first one, each behind a separator. -/
def writeElements (indent : Option Nat) (level : Nat) : List Value → Text
  | [] => []
  | value :: values =>
    separator indent level ++ write indent level value ++ writeElements indent level values

/-- The members after the first one, each behind a separator. -/
def writeMembers (indent : Option Nat) (level : Nat) : Members → Text
  | [] => []
  | (name, value) :: members =>
    separator indent level ++ writeString name ++ ": " ++ write indent level value
      ++ writeMembers indent level members

end

/-- The text of a value. An indentation puts every part on a line of its own; when it is
negative the lines are not indented.
-/
def encode (value : Value) (indent : Option Int) : Text :=
  write (indent.map Int.toNat) 0 value

end Document

/-- The text of a value on one line. -/
def Value.text (value : Value) : Text :=
  Document.encode value none

-----------------------------------------------------------------------------------------
-- Limits
-----------------------------------------------------------------------------------------

namespace Value

mutual

/-- Whether the integers in a value can be written, at any depth. -/
def isWritable : Value → Bool
  | number (.int n) => Numeral.isWritable n
  | array elements => areWritable elements
  | object members => membersWritable members
  | null | bool _ | number (.float _) | string _ => true

def areWritable : List Value → Bool
  | [] => true
  | value :: values => value.isWritable && areWritable values

def membersWritable : Members → Bool
  | [] => true
  | (_, value) :: members => value.isWritable && membersWritable members

end

/-- The text of a value on one line, when it can be written. -/
def text? (value : Value) : Option Text :=
  if value.isWritable then some value.text else none

end Value

end JsonPath
