import FlowGraph.Json.Basic
import FlowGraph.Decimal.Shortest

/-! # Writing JSON

    Two layouts: `Json.compact` without any space, and `Json.pretty` with one
    item per line and two spaces per level.  Strings escape the quote, the
    backslash and the control characters, and nothing else.  A float that is
    not finite is written `null`. -/

namespace FlowGraph.Json

/-! ## Scalars -/

/-- A hexadecimal digit in lower case. -/
def hexDigit (n : Nat) : Char := Nat.digitChar n

/-- One character inside a quoted string. -/
def escape (c : Char) : List Char :=
  if c = '"' then ['\\', '"']
  else if c = '\\' then ['\\', '\\']
  else if c.toNat = 0x08 then ['\\', 'b']
  else if c.toNat = 0x09 then ['\\', 't']
  else if c.toNat = 0x0A then ['\\', 'n']
  else if c.toNat = 0x0C then ['\\', 'f']
  else if c.toNat = 0x0D then ['\\', 'r']
  else if c.toNat < 0x20 then
    ['\\', 'u', '0', '0', hexDigit (c.toNat / 16), hexDigit (c.toNat % 16)]
  else [c]

/-- A quoted string. -/
def quoted (s : String) : List Char :=
  '"' :: s.toList.flatMap escape ++ ['"']

/-- Floats are plain from `0.00001` up to `1000000000000000.0`, and outside that
    range carry an exponent with its sign. -/
def floatLayout : Decimal.Layout := ⟨-5, 15, ['+']⟩

/-- The text of a float. -/
def floatText (x : Float) : List Char :=
  if x.isFinite then floatLayout.writeFloat x else ['n', 'u', 'l', 'l']

/-! ## Compact layout -/

mutual

/-- The compact text of a value. -/
def compactChars : Json → List Char
  | .null => ['n', 'u', 'l', 'l']
  | .bool true => ['t', 'r', 'u', 'e']
  | .bool false => ['f', 'a', 'l', 's', 'e']
  | .int n => Decimal.ofInt n
  | .float x => floatText x
  | .str s => quoted s
  | .arr items => '[' :: compactItems items ++ [']']
  | .obj fields => '{' :: compactFields fields ++ ['}']

/-- Items, separated by commas. -/
def compactItems : List Json → List Char
  | [] => []
  | [j] => compactChars j
  | j :: rest => compactChars j ++ ',' :: compactItems rest

/-- Fields, separated by commas. -/
def compactFields : List (String × Json) → List Char
  | [] => []
  | [(k, j)] => quoted k ++ ':' :: compactChars j
  | (k, j) :: rest => quoted k ++ ':' :: compactChars j ++ ',' :: compactFields rest

end

/-- The text of a value without any space. -/
def compact (j : Json) : String := String.ofList (compactChars j)

/-! ## Indented layout -/

/-- A new line and the indentation of a level. -/
def newline (level : Nat) : List Char := '\n' :: List.replicate (2 * level) ' '

mutual

/-- The indented text of a value that starts at some level. -/
def prettyChars (level : Nat) : Json → List Char
  | .arr [] => ['[', ']']
  | .arr (j :: rest) =>
    '[' :: newline (level + 1) ++ prettyChars (level + 1) j ++ prettyItems level rest
      ++ newline level ++ [']']
  | .obj [] => ['{', '}']
  | .obj ((k, j) :: rest) =>
    '{' :: newline (level + 1) ++ quoted k ++ ':' :: ' ' :: prettyChars (level + 1) j
      ++ prettyFields level rest ++ newline level ++ ['}']
  | .null => compactChars .null
  | .bool b => compactChars (.bool b)
  | .int n => compactChars (.int n)
  | .float x => compactChars (.float x)
  | .str s => compactChars (.str s)

/-- The items after the first one. -/
def prettyItems (level : Nat) : List Json → List Char
  | [] => []
  | j :: rest => ',' :: newline (level + 1) ++ prettyChars (level + 1) j ++ prettyItems level rest

/-- The fields after the first one. -/
def prettyFields (level : Nat) : List (String × Json) → List Char
  | [] => []
  | (k, j) :: rest =>
    ',' :: newline (level + 1) ++ quoted k ++ ':' :: ' ' :: prettyChars (level + 1) j
      ++ prettyFields level rest

end

/-- The text of a value with one item per line. -/
def pretty (j : Json) : String := String.ofList (prettyChars 0 j)

end FlowGraph.Json
