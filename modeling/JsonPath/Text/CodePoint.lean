/-! Text as a list of Unicode code points. A surrogate without its partner can be spelled
both in a document and in a query, so a code point is either a scalar value or a lone
surrogate. Lengths, positions and the order of texts all count code points.
-/

namespace JsonPath

/-- A Unicode code point: a scalar value, or the lone surrogate `U+D800 + offset`. -/
inductive CodePoint where
  | char (c : Char)
  | surrogate (offset : Fin 0x800)
  deriving DecidableEq, Inhabited

namespace CodePoint

/-- The number of code points. -/
def limit : Nat := 0x110000

def toNat : CodePoint → Nat
  | char c => c.toNat
  | surrogate offset => 0xD800 + offset.val

/-- The code point with the given number, which has to be below `limit`. -/
def ofNat? (n : Nat) : Option CodePoint :=
  if valid : n.isValidChar then
    some (char (Char.ofNatAux n valid))
  else if h : 0xD800 ≤ n ∧ n < 0xE000 then
    some (surrogate ⟨n - 0xD800, by omega⟩)
  else
    none

/-- The code point with the given number, or the replacement character beyond the last one.
-/
def ofNat (n : Nat) : CodePoint :=
  (ofNat? n).getD (char '\uFFFD')

/-- The order of code points is that of their numbers. -/
instance : LT CodePoint where
  lt a b := a.toNat < b.toNat

instance (a b : CodePoint) : Decidable (a < b) :=
  inferInstanceAs (Decidable (a.toNat < b.toNat))

end CodePoint

/-- A text is a sequence of code points, ordered lexicographically. -/
abbrev Text := List CodePoint

namespace Text

def ofString (s : String) : Text :=
  s.toList.map .char

/-- The text as a `String`, with the replacement character in place of each lone surrogate.
-/
def toString (t : Text) : String :=
  String.ofList (t.map fun
    | .char c => c
    | .surrogate _ => '\uFFFD')

/-- What follows `word` when the text begins with it. -/
def after? : Text → Text → Option Text
  | [], t => some t
  | c :: word, d :: t => if c = d then after? word t else none
  | _ :: _, [] => none

/-- The texts one after another, with `separator` between any two. -/
def joinWith (separator : Text) : List Text → Text
  | [] => []
  | [part] => part
  | part :: parts => part ++ separator ++ joinWith separator parts

end Text

instance : Coe String Text := ⟨Text.ofString⟩

end JsonPath
