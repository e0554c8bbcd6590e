import JsonPath.CommandLine.Run
import JsonPath.Text.Utf8

/-! A directory of files in which the command can run. -/

namespace JsonPath.CommandLine

/-- The files of a directory by name. -/
abbrev Directory := List (Text × List UInt8)

namespace Directory

/-- The parts of a path in front of, between and behind its slashes. -/
def parts : Text → List Text
  | [] => [[]]
  | .char '/' :: rest => [] :: parts rest
  | c :: rest =>
    match parts rest with
    | [] => [[c]]
    | part :: others => (c :: part) :: others

/-- The names in a path, without the parts that stay in place. -/
def names (path : Text) : List Text :=
  (parts path).filter fun part => !part.isEmpty && part ≠ "."

/-- The text of a file of the directory. Besides its files, only the directory itself, those
above it and the root are known.
-/
def read (directory : Directory) (path : Text) : Except FileError Text :=
  match path, names path with
  | [], _ => .error (.notFound path)
  | _, [] => .error (.isDirectory path)
  | .char '/' :: _, _ => .error (.notFound path)
  | _, name :: others =>
    match directory.lookup name with
    | some bytes =>
      if others.isEmpty && (parts path).getLast? = some name then .ok (Utf8.decodeEscaping bytes)
      else .error (.notDirectory path)
    | none =>
      if (name :: others).all (· = "..") then .error (.isDirectory path)
      else .error (.notFound path)

end Directory

end JsonPath.CommandLine
