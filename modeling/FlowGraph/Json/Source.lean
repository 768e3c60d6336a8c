import FlowGraph.Json.Basic

/-! # JSON texts as read

    A reader that decodes a text into records meets the faults of the text in
    the order in which they stand, between faults of its own (a wrong type, a
    missing field).  So a text is first turned into a `Source`: a tree that
    keeps each fault at its place.  There are two kinds of places.

    * `broken`: the text cannot be followed beyond this point.
    * `flawed`: the text goes on, but the value cannot be read (half of a
      surrogate pair, a number beyond the doubles, nesting beyond the limit).
      Only a reader that skips the value passes it.

    A field whose name cannot be read has no name; it is `flawed` when the text goes
    on after the name, and `broken` when not.

    Main definitions: `Source.read` reads a whole value, `Source.skip` passes
    over one, and each gives the first fault on its way. -/

namespace FlowGraph

/-- Why a JSON text was refused. -/
inductive Fault where
  /-- The text ended too early. -/
  | truncated
  /-- The text is not JSON. -/
  | malformed
  /-- The text is JSON of the wrong shape. -/
  | mismatched
  deriving DecidableEq, Repr, Inhabited

/-- Where a text cannot be followed any further: the fault depends on what is expected
    there. -/
structure Break where
  /-- For one who reads a value. -/
  onRead : Fault
  /-- For one who passes over a value. -/
  onSkip : Fault
  /-- For one who reads a name, and does not look at numbers and words. -/
  onName : Fault
  deriving DecidableEq, Repr, Inhabited

/-- The same fault for everyone. -/
def Break.plain (fault : Fault) : Break := ⟨fault, fault, fault⟩

/-- A JSON text as read. -/
inductive Source where
  | null
  | bool (b : Bool)
  | int (n : Int)
  | float (x : Float)
  | str (s : String)
  /-- The items, and the fault in place of the closing bracket. -/
  | arr (items : List Source) (ending : Option Fault)
  /-- The fields, and the fault in place of the closing brace.  After a comma there
      is always another item or field. -/
  | obj (fields : List (Option String × Source)) (ending : Option Fault)
  /-- A value that can only be skipped. -/
  | flawed (skipped : Source)
  /-- The end of the readable text. -/
  | broken (b : Break)
  deriving Inhabited

namespace Source

/-! ## Skipping -/

mutual

/-- The first fault of a value that is passed over. -/
def skip : Source → Option Fault
  | .arr items ending => (skipItems items).or ending
  | .obj fields ending => (skipFields fields).or ending
  | .flawed s => s.skip
  | .broken b => some b.onSkip
  | .null => none
  | .bool _ => none
  | .int _ => none
  | .float _ => none
  | .str _ => none

/-- The first fault among items. -/
def skipItems : List Source → Option Fault
  | [] => none
  | s :: rest => s.skip.or (skipItems rest)

/-- The first fault among fields. -/
def skipFields : List (Option String × Source) → Option Fault
  | [] => none
  | (_, s) :: rest => s.skip.or (skipFields rest)

end

/-! ## Reading a whole value -/

/-- The fault of a field without a name. -/
def nameless : Source → Fault
  | .broken b => b.onRead
  | _ => .malformed

mutual

/-- The value, its fields in the order of the text and repeated ones kept. -/
def read : Source → Except Fault Json
  | .null => .ok .null
  | .bool b => .ok (.bool b)
  | .int n => .ok (.int n)
  | .float x => .ok (.float x)
  | .str s => .ok (.str s)
  | .arr items ending => do
    let items ← readItems items
    match ending with
    | none => .ok (.arr items)
    | some fault => .error fault
  | .obj fields ending => do
    let fields ← readFields fields
    match ending with
    | none => .ok (.obj fields)
    | some fault => .error fault
  | .flawed _ => .error .malformed
  | .broken b => .error b.onRead

/-- Every item. -/
def readItems : List Source → Except Fault (List Json)
  | [] => .ok []
  | s :: rest => do
    let j ← s.read
    let js ← readItems rest
    .ok (j :: js)

/-- Every field. -/
def readFields : List (Option String × Source) → Except Fault (List (String × Json))
  | [] => .ok []
  | (none, s) :: _ => .error s.nameless
  | (some k, s) :: rest => do
    let j ← s.read
    let js ← readFields rest
    .ok ((k, j) :: js)

end

/-- The value in sorted form. -/
def value (s : Source) : Except Fault Json := s.read.map Json.sorted

/-! ## Values without a text -/

mutual

/-- A value that was never text has no faults. -/
def ofJson : Json → Source
  | .null => .null
  | .bool b => .bool b
  | .int n => .int n
  | .float x => .float x
  | .str s => .str s
  | .arr items => .arr (ofItems items) none
  | .obj fields => .obj (ofFields fields) none

/-- Every item. -/
def ofItems : List Json → List Source
  | [] => []
  | j :: rest => ofJson j :: ofItems rest

/-- Every field. -/
def ofFields : List (String × Json) → List (Option String × Source)
  | [] => []
  | (k, j) :: rest => (some k, ofJson j) :: ofFields rest

end

/-! ## Nesting -/

mutual

/-- How many containers are nested in each other. -/
def depth : Source → Nat
  | .arr items _ => depthItems items + 1
  | .obj fields _ => depthFields fields + 1
  | .flawed s => s.depth
  | .null => 0
  | .bool _ => 0
  | .int _ => 0
  | .float _ => 0
  | .str _ => 0
  | .broken _ => 0

/-- The greatest depth of an item. -/
def depthItems : List Source → Nat
  | [] => 0
  | s :: rest => max s.depth (depthItems rest)

/-- The greatest depth of a field. -/
def depthFields : List (Option String × Source) → Nat
  | [] => 0
  | (_, s) :: rest => max s.depth (depthFields rest)

end

mutual

theorem read_ofJson (j : Json) : (ofJson j).read = .ok j := by
  match j with
  | .null => rfl
  | .bool _ => rfl
  | .int _ => rfl
  | .float _ => rfl
  | .str _ => rfl
  | .arr items => simp [ofJson, read, readItems_ofItems items, bind, Except.bind]
  | .obj fields => simp [ofJson, read, readFields_ofFields fields, bind, Except.bind]

theorem readItems_ofItems (items : List Json) : readItems (ofItems items) = .ok items := by
  match items with
  | [] => rfl
  | j :: rest =>
    simp [ofItems, readItems, read_ofJson j, readItems_ofItems rest, bind, Except.bind]

theorem readFields_ofFields (fields : List (String × Json)) :
    readFields (ofFields fields) = .ok fields := by
  match fields with
  | [] => rfl
  | (k, j) :: rest =>
    simp [ofFields, readFields, read_ofJson j, readFields_ofFields rest, bind, Except.bind]

end

end Source
end FlowGraph
