import FlowGraph.Json.Parser

/-! # Decoding records

    A record is read from an object, whose unknown fields are passed over and
    whose known fields stand at most once, or from an array with the values in
    declaration order.  When several things are wrong, the fault that stands
    first in the text is reported; missing fields come after all others.

    `Source.record` gathers the known fields; the fields are then decoded one by
    one, each result carrying its place, and `Placed` values are combined so that
    the earlier fault wins. -/

namespace FlowGraph

/-! ## Scalars -/

namespace Source

/-- The fault of a value of the wrong type.  A container is refused at its
    opening bracket; any other value is read first. -/
def wrongType : Source → Fault
  | .flawed (.arr _ _) => .mismatched
  | .flawed (.obj _ _) => .mismatched
  | .flawed _ => .malformed
  | .broken b => b.onRead
  | _ => .mismatched

/-- A string. -/
def text : Source → Except Fault String
  | .str s => .ok s
  | s => .error s.wrongType

/-- A truth value. -/
def truth : Source → Except Fault Bool
  | .bool b => .ok b
  | s => .error s.wrongType

/-- A natural number below `2 ^ 64`, written as an integer. -/
def natural : Source → Except Fault Nat
  | .int n => if 0 ≤ n then .ok n.toNat else .error .mismatched
  | s => .error s.wrongType

/-- A double, which may be written as an integer. -/
def double : Source → Except Fault Float
  | .float x => .ok x
  | .int n => .ok (Float.ofInt n)
  | s => .error s.wrongType

/-- `null`, or a value. -/
def optional (reader : Source → Except Fault α) : Source → Except Fault (Option α)
  | .null => .ok none
  | s => (reader s).map some

/-- Each item of an array. -/
def each (reader : Source → Except Fault α) : List Source → Except Fault (List α)
  | [] => .ok []
  | s :: rest => do
    let a ← reader s
    let as ← each reader rest
    .ok (a :: as)

/-- An array. -/
def list (reader : Source → Except Fault α) : Source → Except Fault (List α)
  | .arr items ending => do
    let as ← each reader items
    match ending with
    | none => .ok as
    | some fault => .error fault
  | .flawed (.arr _ _) => .error .malformed
  | s => .error s.wrongType

/-- One of several names: a string, or an object whose only field has the name
    and the value `null`.  Anything else is no JSON at this place. -/
def choice (named : String → Option α) : Source → Except Fault α
  | .str s => match named s with
    | some a => .ok a
    | none => .error .mismatched
  | .obj fields ending =>
    match fields with
    | [] => .error (ending.getD .malformed)
    | (none, s) :: _ => .error s.nameless
    | (some s, value) :: rest =>
      match named s with
      | none => .error .mismatched
      | some a =>
        match value with
        | .null =>
          if rest.isEmpty then
            match ending with
            | none => .ok a
            | some fault => .error fault
          else .error .malformed
        | value => .error value.wrongType
  | .broken b => .error b.onName
  | _ => .error .malformed

end Source

/-! ## Placed results -/

/-- A result, or a fault and its place in the text. -/
def Placed (α : Type) : Type := Except (Nat × Fault) α

namespace Placed

/-- Both results, or the fault that stands first. -/
def both (f : Placed (α → β)) (a : Placed α) : Placed β :=
  match f, a with
  | .ok f, .ok a => Except.ok (f a)
  | .ok _, .error e => Except.error e
  | .error e, .ok _ => Except.error e
  | .error d, .error e => Except.error (if e.1 < d.1 then e else d)

instance : Applicative Placed where
  pure a := Except.ok a
  seq f a := both f (a ())

end Placed

/-! ## Records -/

/-- The known fields of a record with their places, the first fault of the
    record itself, and the place after all fields. -/
structure Record where
  fields : List (String × Nat × Source)
  fault : Option (Nat × Fault)
  size : Nat

namespace Record

/-- Gather the known fields of an object.  The walk ends at a name that cannot be
    read, a repeated field, or an unknown field that cannot be passed over. -/
def gather (names : List String) (found : List (String × Nat × Source)) (place : Nat)
    (ending : Option Fault) : List (Option String × Source) → Record
  | [] => ⟨found, ending.map (place, ·), place⟩
  | (none, s) :: _ => ⟨found, some (place, s.nameless), place⟩
  | (some name, value) :: rest =>
    if names.contains name then
      if found.any (·.1 = name) then ⟨found, some (place, .mismatched), place⟩
      else gather names (found ++ [(name, place, value)]) (place + 1) ending rest
    else
      match value.skip with
      | some fault => ⟨found, some (place, fault), place⟩
      | none => gather names found (place + 1) ending rest

/-- Pair names with the items of an array.  Items beyond the last name are one
    fault, at the first of them. -/
def zip (found : List (String × Nat × Source)) (place : Nat) (ending : Option Fault) :
    List String → List Source → Record
  | [], [] => ⟨found, ending.map (place, ·), place⟩
  | [], _ :: _ => ⟨found, some (place, .malformed), place⟩
  | _ :: _, [] => ⟨found, ending.map (place, ·), place⟩
  | name :: names, value :: rest =>
    zip (found ++ [(name, place, value)]) (place + 1) ending names rest

/-- The record of a source with the given field names. -/
def ofSource (names : List String) : Source → Except Fault Record
  | .obj fields ending => .ok (gather names [] 0 ending fields)
  | .arr items ending => .ok (zip [] 0 ending names items)
  | .flawed (.obj _ _) => .error .malformed
  | .flawed (.arr _ _) => .error .malformed
  | s => .error s.wrongType

/-- The field of that name. -/
def find? (r : Record) (name : String) : Option (Nat × Source) :=
  (r.fields.find? (·.1 = name)).map Prod.snd

/-- Decode a present field. -/
def placed (reader : Source → Except Fault α) (place : Nat) (s : Source) : Placed α :=
  match reader s with
  | .ok a => Except.ok a
  | .error fault => Except.error (place, fault)

/-- A field that must be there. -/
def required (r : Record) (name : String) (reader : Source → Except Fault α) : Placed α :=
  match r.find? name with
  | some (place, s) => placed reader place s
  | none => Except.error (r.size + 1, .mismatched)

/-- A field with a default. -/
def withDefault (r : Record) (name : String) (default : α) (reader : Source → Except Fault α) :
    Placed α :=
  match r.find? name with
  | some (place, s) => placed reader place s
  | none => Except.ok default

/-- The decoded record, unless the record itself is at fault before that. -/
def finish (r : Record) (result : Placed α) : Except Fault α :=
  match r.fault, result with
  | none, .ok a => .ok a
  | none, .error (_, fault) => .error fault
  | some (_, fault), .ok _ => .error fault
  | some (place, fault), .error (first, fieldFault) =>
    .error (if first < place then fieldFault else fault)

end Record

/-! ## Values that were never text -/

/-- Decode a value.  Whatever is wrong with it, it is JSON of the wrong shape. -/
def Json.decodeWith (reader : Source → Except Fault α) (j : Json) : Except Fault α :=
  (reader (Source.ofJson j)).mapError fun _ => .mismatched

end FlowGraph
