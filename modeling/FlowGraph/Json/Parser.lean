import FlowGraph.Decimal.Reading
import FlowGraph.Json.Source
import FlowGraph.Powers

/-! # Reading JSON texts

    From characters to a `Source`.  A text may be surrounded by spaces, tabs and
    line ends.  A number without point and exponent that fits 64 bits (signed, or
    unsigned) is an integer; every other number is a float, `-0` too.  Containers
    may be nested 127 deep.

    The functions that follow the nesting take a bound on their steps; three
    times the length of the text is enough, and `Document.ofText` starts with that. -/

namespace FlowGraph

namespace Source

/-- Without the spaces, tabs and line ends at the start. -/
def skipSpace (cs : List Char) : List Char :=
  cs.dropWhile fun c => c = ' ' || c = '\t' || c = '\n' || c = '\r'

/-- A token and what follows it; nothing follows a broken one. -/
abbrev Token := Source × Option (List Char)

/-! ## Words -/

/-- The rest of a word whose first letter is read already. -/
def scanWord (whole : Source) : (word rest : List Char) → Token
  | [], rest => (whole, some rest)
  | _ :: _, [] => (.broken ⟨.truncated, .truncated, .malformed⟩, none)
  | w :: ws, c :: cs =>
    if w = c then scanWord whole ws cs else (.broken (.plain .malformed), none)

/-! ## Numbers -/

/-- The greatest unsigned integer. -/
def maxUnsigned : Nat := twoTo 64 - 1

/-- Append digits to a significand while it stays within 64 bits; the new
    significand, the number of digits taken, and the digits left. -/
def takeDigits (significand taken : Nat) : List Char → Nat × Nat × List Char
  | [] => (significand, taken, [])
  | c :: cs =>
    let next := 10 * significand + (c.toNat - 48)
    if next ≤ maxUnsigned then takeDigits next (taken + 1) cs
    else (significand, taken, c :: cs)

/-- The value of an integer text. -/
def integerValue (negative : Bool) (n : Nat) : Source :=
  if negative then
    -- there is no integer minus zero
    if n = 0 || n > twoTo 63 then .float (-(Float.ofNat n)) else .int (-(n : Int))
  else .int n

/-- The value of a number with a point, an exponent or too many digits. -/
def floatValue (negative : Bool) (significand : Nat) (exponent : Int) : Source :=
  match Decimal.ofScaled significand exponent with
  | some x => .float (if negative then -x else x)
  | none => .flawed (.float 0)

/-- The exponents that are told apart; a larger one is out of every range. -/
def maxExponent : Nat := twoTo 31 - 1

/-- The value of a number from its digits. -/
def numberValue (negative : Bool) (whole : List Char) (fraction : Option (List Char))
    (exponent : Option (Bool × List Char)) : Source :=
  let (significand, _, left) := takeDigits 0 0 whole
  if fraction.isNone && exponent.isNone && left.isEmpty then integerValue negative significand
  else
    -- whole digits that did not fit count as zeros, digits of the fraction as none
    let (significand, taken, _) := takeDigits significand 0 (fraction.getD [])
    let shift : Int := left.length - taken
    match exponent with
    | none => floatValue negative significand shift
    | some (down, ds) =>
      let e := Decimal.digitsValue 0 ds
      if e > maxExponent then
        if significand ≠ 0 && !down then .flawed (.float 0)
        else .float (if negative then -0.0 else 0.0)
      else floatValue negative significand (if down then shift - e else shift + e)

/-- A number that stops short: at the end of the text only a reader sees an
    early end. -/
def stopped (rest : List Char) : Token :=
  if rest.isEmpty then (.broken ⟨.truncated, .malformed, .malformed⟩, none)
  else (.broken (.plain .malformed), none)

/-- The exponent of a number, after its `e`. -/
def scanExponent (finish : Option (Bool × List Char) → Source) (cs : List Char) : Token :=
  let (down, rest) := match cs with
    | '-' :: r => (true, r)
    | '+' :: r => (false, r)
    | r => (false, r)
  let (ds, rest) := Decimal.spanDigits rest
  if ds.isEmpty then stopped rest else (finish (some (down, ds)), some rest)

/-- What follows the fraction. -/
def scanAfterFraction (finish : Option (Bool × List Char) → Source) : List Char → Token
  | 'e' :: rest => scanExponent finish rest
  | 'E' :: rest => scanExponent finish rest
  | rest => (finish none, some rest)

/-- A number, after its sign. -/
def scanNumber (negative : Bool) (cs : List Char) : Token :=
  let (whole, rest) := Decimal.spanDigits cs
  match whole with
  | [] => stopped rest
  -- only a single zero may come first
  | '0' :: _ :: _ => (.broken (.plain .malformed), none)
  | _ =>
    match rest with
    | '.' :: rest =>
      let (fraction, rest) := Decimal.spanDigits rest
      if fraction.isEmpty then stopped rest
      else scanAfterFraction (numberValue negative whole (some fraction)) rest
    | rest => scanAfterFraction (numberValue negative whole none) rest

/-! ## Strings -/

/-- The value of a hexadecimal digit. -/
def hexValue (c : Char) : Option Nat :=
  if '0' ≤ c && c ≤ '9' then some (c.toNat - 48)
  else if 'a' ≤ c && c ≤ 'f' then some (c.toNat - 87)
  else if 'A' ≤ c && c ≤ 'F' then some (c.toNat - 55)
  else none

/-- The value of four hexadecimal digits. -/
def hexValue4 (a b c d : Char) : Option Nat := do
  some (4096 * (← hexValue a) + 256 * (← hexValue b) + 16 * (← hexValue c) + (← hexValue d))

/-- The fault of an escape that has fewer than four characters left: an early
    end unless they take four bytes all the same. -/
def shortEscape (rest : List Char) : Fault :=
  if 4 ≤ (String.ofList rest).utf8ByteSize then .malformed else .truncated

/-- The character of an escape letter. -/
def escaped (c : Char) : Option Char :=
  match c with
  | '"' => some '"'
  | '\\' => some '\\'
  | '/' => some '/'
  | 'b' => some '\x08'
  | 'f' => some '\x0c'
  | 'n' => some '\n'
  | 'r' => some '\r'
  | 't' => some '\t'
  | _ => none

/-- Why the text after the first half of a surrogate pair is no second half. -/
def pairFault : List Char → Fault
  | [] => .truncated
  | ['\\'] => .truncated
  | '\\' :: 'u' :: _ :: _ :: _ :: _ :: _ => .malformed
  | '\\' :: 'u' :: rest => shortEscape rest
  | _ => .malformed

/-- A text without a fault so far, or the first fault that a reader meets. -/
abbrev Contents := Except Fault (List Char)

/-- One more character. -/
def Contents.add (cs : Contents) (c : Char) : Contents := cs.map (c :: ·)

/-- The string broke off: a reader sees an earlier fault first. -/
def Contents.breakOff (cs : Contents) (fault : Fault) : Except (Fault × Fault) α :=
  match cs with
  | .error earlier => .error (earlier, fault)
  | .ok _ => .error (fault, fault)

/-- The rest of a string after its opening quote, given what was read of it in
    reverse.  The result is the contents and what follows the closing quote, or
    the faults for one who reads and one who skips the string. -/
def scanString (seen : Contents) : List Char → Except (Fault × Fault) (Contents × List Char)
  | [] => seen.breakOff .truncated
  | '"' :: rest => .ok (seen, rest)
  | ['\\'] => seen.breakOff .truncated
  | '\\' :: 'u' :: a :: b :: c :: d :: rest =>
    match hexValue4 a b c d with
    | none => seen.breakOff .malformed
    | some n =>
      -- a second half alone, then a first half, which needs a second one
      if 0xDC00 ≤ n && n ≤ 0xDFFF then scanString (seen.bind fun _ => .error .malformed) rest
      else if 0xD800 ≤ n && n ≤ 0xDBFF then
        match rest with
        | '\\' :: 'u' :: e :: f :: g :: h :: after =>
          match hexValue4 e f g h with
          | some m =>
            if 0xDC00 ≤ m && m ≤ 0xDFFF then
              scanString
                (seen.add (Char.ofNat (0x10000 + (n - 0xD800) * 0x400 + (m - 0xDC00)))) after
            else scanString (seen.bind fun _ => .error .malformed)
              ('\\' :: 'u' :: e :: f :: g :: h :: after)
          | none => seen.breakOff .malformed
        | rest => scanString (seen.bind fun _ => .error (pairFault rest)) rest
      else scanString (seen.add (Char.ofNat n)) rest
  | '\\' :: 'u' :: rest => seen.breakOff (shortEscape rest)
  | '\\' :: c :: rest =>
    match escaped c with
    | some e => scanString (seen.add e) rest
    | none => seen.breakOff .malformed
  | c :: rest =>
    if c.toNat < 0x20 then seen.breakOff .malformed else scanString (seen.add c) rest

/-- The text of read contents. -/
def Contents.text (cs : Contents) : Option String :=
  match cs with
  | .ok cs => some (String.ofList cs.reverse)
  | .error _ => none

/-- A string value, after its opening quote. -/
def scanText (cs : List Char) : Token :=
  match scanString (.ok []) cs with
  | .error (onRead, onSkip) => (.broken ⟨onRead, onSkip, onRead⟩, none)
  | .ok (contents, rest) =>
    match contents.text with
    | some s => (.str s, some rest)
    | none => (.flawed (.str ""), some rest)

/-! ## Values -/

/-- How deep containers may be nested. -/
def maxDepth : Nat := 127

/-- A container at some depth; one that is too deep cannot be read. -/
def atDepth (depth : Nat) (s : Source) : Source :=
  if depth > maxDepth then .flawed s else s

/-- A field with the name that was read. -/
def named (name : Contents) (value : Source) : Option String × Source :=
  match name.text with
  | some s => (some s, value)
  | none => (none, .flawed value)

mutual

/-- A value whose containers stand at the given depth. -/
def scanValue : (fuel depth : Nat) → List Char → Token
  | 0, _, _ => (.broken (.plain .malformed), none)
  | fuel + 1, depth, cs =>
    match skipSpace cs with
    | [] => (.broken (.plain .truncated), none)
    | 'n' :: rest => scanWord .null ['u', 'l', 'l'] rest
    | 't' :: rest => scanWord (.bool true) ['r', 'u', 'e'] rest
    | 'f' :: rest => scanWord (.bool false) ['a', 'l', 's', 'e'] rest
    | '"' :: rest => scanText rest
    | '-' :: rest => scanNumber true rest
    | '[' :: rest =>
      let (items, ending, rest) := scanItems fuel (depth + 1) true rest
      (atDepth depth (.arr items ending), rest)
    | '{' :: rest =>
      let (fields, ending, rest) := scanFields fuel (depth + 1) true rest
      (atDepth depth (.obj fields ending), rest)
    | c :: rest =>
      if c.isDigit then scanNumber false (c :: rest)
      else (.broken (.plain .malformed), none)

/-- The items of an array up to its closing bracket; `first` before any item. -/
def scanItems : (fuel depth : Nat) → (first : Bool) → List Char →
    List Source × Option Fault × Option (List Char)
  | 0, _, _, _ => ([], some .malformed, none)
  | fuel + 1, depth, first, cs =>
    match skipSpace cs with
    | [] => ([], some .truncated, none)
    | ']' :: rest => ([], none, some rest)
    | c :: rest =>
      if first then scanItem fuel depth (c :: rest)
      else if c = ',' then
        match skipSpace rest with
        -- a comma announces another item
        | ']' :: _ => ([], some .malformed, none)
        | rest => scanItem fuel depth rest
      else ([], some .malformed, none)

/-- An item and those after it. -/
def scanItem : (fuel depth : Nat) → List Char →
    List Source × Option Fault × Option (List Char)
  | 0, _, _ => ([], some .malformed, none)
  | fuel + 1, depth, cs =>
    match scanValue fuel depth cs with
    | (item, none) => ([item], none, none)
    | (item, some rest) =>
      let (items, ending, rest) := scanItems fuel depth false rest
      (item :: items, ending, rest)

/-- The fields of an object up to its closing brace; `first` before any field. -/
def scanFields : (fuel depth : Nat) → (first : Bool) → List Char →
    List (Option String × Source) × Option Fault × Option (List Char)
  | 0, _, _, _ => ([], some .malformed, none)
  | fuel + 1, depth, first, cs =>
    match skipSpace cs with
    | [] => ([], some .truncated, none)
    | '}' :: rest => ([], none, some rest)
    | c :: rest =>
      if first then scanField fuel depth (c :: rest)
      else if c = ',' then scanField fuel depth (skipSpace rest)
      else ([], some .malformed, none)

/-- A field, which starts at its name, and those after it. -/
def scanField : (fuel depth : Nat) → List Char →
    List (Option String × Source) × Option Fault × Option (List Char)
  | 0, _, _ => ([], some .malformed, none)
  | fuel + 1, depth, cs =>
    match cs with
    | [] => ([(none, .broken (.plain .truncated))], none, none)
    | '"' :: rest =>
      match scanString (.ok []) rest with
      | .error (onRead, onSkip) => ([(none, .broken ⟨onRead, onSkip, onRead⟩)], none, none)
      | .ok (name, rest) =>
        match skipSpace rest with
        | ':' :: rest =>
          match scanValue fuel depth rest with
          | (value, none) => ([named name value], none, none)
          | (value, some rest) =>
            let (fields, ending, rest) := scanFields fuel depth false rest
            (named name value :: fields, ending, rest)
        | [] => ([named name (.broken (.plain .truncated))], none, none)
        | _ => ([named name (.broken (.plain .malformed))], none, none)
    | _ => ([(none, .broken (.plain .malformed))], none, none)

end

end Source

/-! ## Whole texts -/

/-- A text: its value, and whether more text follows the value. -/
structure Document where
  root : Source
  trailing : Bool
  deriving Inhabited

namespace Document

/-- Read a text. -/
def ofText (text : String) : Document :=
  let cs := text.toList
  match Source.scanValue (3 * cs.length + 1) 1 cs with
  | (root, none) => ⟨root, false⟩
  | (root, some rest) => ⟨root, !(Source.skipSpace rest).isEmpty⟩

/-- Decode the value; more text after it is a fault that comes last. -/
def decode (doc : Document) (reader : Source → Except Fault α) : Except Fault α := do
  let a ← reader doc.root
  if doc.trailing then .error .malformed else .ok a

end Document

/-- The value of a JSON text, in sorted form. -/
def Json.parse (text : String) : Except Fault Json :=
  (Document.ofText text).decode Source.value

end FlowGraph
