import FlowGraph.Text.Blank

/-! # Type identities

    The name of a node type: a namespace, a class and, if it matters, the
    assembly that declares it.  The text is `Namespace.Class, Assembly`; the
    namespace ends at the last dot and the assembly starts at the first comma.

    Two identities match when they agree on namespace and class and on the
    assembly where both have one.  Matching is not transitive. -/

namespace FlowGraph

/-- The name of a node type. -/
structure TypeIdentity where
  space : String
  className : String
  assembly : Option String := none
  deriving DecidableEq, Inhabited, Repr

namespace TypeIdentity

/-! ## Text -/

/-- The characters before and after the first occurrence of a mark. -/
def splitFirst (mark : Char) : List Char → Option (List Char × List Char)
  | [] => none
  | c :: rest =>
    if c = mark then some ([], rest)
    else (splitFirst mark rest).map fun (a, b) => (c :: a, b)

/-- The characters before and after the last occurrence of a mark. -/
def splitLast (mark : Char) (cs : List Char) : Option (List Char × List Char) :=
  (splitFirst mark cs.reverse).map fun (a, b) => (b.reverse, a.reverse)

/-- Read the part of a text that names namespace and class. -/
def ofTypePart (part : String) (assembly : Option String) : TypeIdentity :=
  match splitLast '.' part.toList with
  | some (space, name) => ⟨String.ofList space, String.ofList name, assembly⟩
  | none => ⟨"", part, assembly⟩

/-- Read an identity; every text is one. -/
def parse (text : String) : TypeIdentity :=
  match splitFirst ',' text.toList with
  | some (part, assembly) =>
    let assembly := Text.trim (String.ofList assembly)
    ofTypePart (Text.trim (String.ofList part)) (if assembly = "" then none else some assembly)
  | none => ofTypePart (Text.trim text) none

/-- Namespace and class. -/
def fullName (id : TypeIdentity) : String :=
  if id.space = "" then id.className else id.space ++ "." ++ id.className

/-- The text of an identity. -/
def text (id : TypeIdentity) : String :=
  match id.assembly with
  | some assembly => id.fullName ++ ", " ++ assembly
  | none => id.fullName

/-! ## Comparison -/

/-- Whether two identities may name one type. -/
def agrees (id other : TypeIdentity) : Bool :=
  id.space = other.space && id.className = other.className &&
  match id.assembly, other.assembly with
  | some a, some b => a = b
  | _, _ => true

/-- The order by namespace, class and assembly; no assembly comes first. -/
def before (id other : TypeIdentity) : Bool :=
  if id.space ≠ other.space then id.space < other.space
  else if id.className ≠ other.className then id.className < other.className
  else
    match id.assembly, other.assembly with
    | none, some _ => true
    | some a, some b => a < b
    | _, none => false

end TypeIdentity
end FlowGraph
