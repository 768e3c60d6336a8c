import FlowGraph.Value.Tagged

/-! # Scripts

    A scripted node runs a list of instructions that stands among its fields.  Each
    instruction is an array that starts with its name; missing operands read as the
    empty text or zero.  Scripts reach everything a node can do to its dispatch, so
    a host can try out control flow without writing a node type. -/

namespace FlowGraph

/-- The type as which an input is read. -/
inductive ReadType where
  | bool
  | int
  | int32
  | natural
  | float
  | string
  deriving DecidableEq, Inhabited, Repr

/-- Read the name of a type; any other name means a text. -/
def ReadType.ofName : String → ReadType
  | "bool" => .bool
  | "int" => .int
  | "i32" => .int32
  | "usize" => .natural
  | "float" => .float
  | _ => .string

/-- The text of an input read as a type, the type's default if it is another one. -/
def ReadType.text (t : ReadType) (v : Value) : String :=
  match t with
  | .bool => if v.toBool then "true" else "false"
  | .int => Value.intText v.toInt.toInt
  | .int32 => Value.intText (v.asInt32?.getD 0)
  | .natural => Value.intText (v.asNat?.getD 0)
  | .float => Value.floatBits v.toFloat
  | .string => v.toText

/-- An instruction of a script.  Values are kept in the form in which they are
    written, since they may name host objects. -/
inductive Instruction where
  /-- Write an output slot. -/
  | write (port : String) (index : Nat) (value : Json)
  /-- Copy an input slot to an output slot. -/
  | copy (input : String) (inputIndex : Nat) (output : String) (outputIndex : Nat)
  /-- Continue with the node linked to a control output. -/
  | next (port : String)
  /-- End the chain. -/
  | stop
  /-- Continue with a node. -/
  | goto (guid : String)
  /-- Run the chain linked to a control output. -/
  | forward (port : String) (index : Nat)
  /-- Run the chain that starts at a node. -/
  | run (guid : String)
  /-- Fail. -/
  | fail (reason : String)
  /-- Fail as if cancelled. -/
  | cancel
  /-- Report a message. -/
  | message (text : String)
  /-- Report an input. -/
  | read (port : String) (index : Nat)
  /-- Report an input, read as a type. -/
  | typed (port : String) (type : ReadType)
  /-- Report the state of the dispatch. -/
  | note (port : String)
  /-- Fill the return box. -/
  | answer (value : Json)
  /-- Fill the return box from an input. -/
  | answerInput (port : String) (index : Nat)
  /-- Fill the return box from an argument. -/
  | answerArgument (index : Nat)
  /-- Report the return box. -/
  | answered
  /-- Call a function and write its result. -/
  | invoke (name : String) (arguments : List Json) (output : String)
  /-- Call a function and report its result or its error. -/
  | attempt (name : String)
  /-- Run the chain linked to a control output and report its error. -/
  | attemptForward (port : String) (index : Nat)
  /-- Report the kind of the object the node acts on. -/
  | target (port : String)
  /-- Copy a variable of the node to an output. -/
  | readVariable (field output : String)
  /-- Write a variable of the node. -/
  | writeVariable (field : String) (value : Json)
  /-- Copy a variable of the blackboard to an output. -/
  | readBoard (name output : String)
  /-- Wait. -/
  | delay (milliseconds : Nat)
  /-- Do nothing. -/
  | skip
  deriving DecidableEq, Inhabited

namespace Instruction

/-- The operand at a position. -/
def valueAt (operands : List Json) (i : Nat) : Json := (operands[i]?).getD .null

/-- The operand at a position as a text. -/
def textAt (operands : List Json) (i : Nat) : String := (valueAt operands i).asText

/-- The operand at a position as a natural number. -/
def natAt (operands : List Json) (i : Nat) : Nat := (valueAt operands i).asNatural

/-- The operand at a position as a list of values. -/
def listAt (operands : List Json) (i : Nat) : List Json := (valueAt operands i).asList

/-- Read an instruction from its name and operands. -/
def ofOperands (name : String) (ops : List Json) : Instruction :=
  match name with
  | "set" => .write (textAt ops 0) (natAt ops 1) (valueAt ops 2)
  | "copy" => .copy (textAt ops 0) (natAt ops 1) (textAt ops 2) (natAt ops 3)
  | "next" => .next (textAt ops 0)
  | "stop" => .stop
  | "goto" => .goto (textAt ops 0)
  | "forward" => .forward (textAt ops 0) (natAt ops 1)
  | "run" => .run (textAt ops 0)
  | "fail" => .fail (textAt ops 0)
  | "cancel" => .cancel
  | "message" => .message (textAt ops 0)
  | "read" => .read (textAt ops 0) (natAt ops 1)
  | "typed" => .typed (textAt ops 0) (ReadType.ofName (textAt ops 1))
  | "note" => .note (textAt ops 0)
  | "return" => .answer (valueAt ops 0)
  | "return_input" => .answerInput (textAt ops 0) (natAt ops 1)
  | "return_arg" => .answerArgument (natAt ops 0)
  | "returned" => .answered
  | "invoke" => .invoke (textAt ops 0) (listAt ops 1) (textAt ops 2)
  | "try" => .attempt (textAt ops 0)
  | "try_forward" => .attemptForward (textAt ops 0) (natAt ops 1)
  | "target" => .target (textAt ops 0)
  | "var_get" => .readVariable (textAt ops 0) (textAt ops 1)
  | "var_set" => .writeVariable (textAt ops 0) (valueAt ops 1)
  | "bb_get" => .readBoard (textAt ops 0) (textAt ops 1)
  | "delay" => .delay (natAt ops 0)
  | _ => .skip

/-- Read an instruction. -/
def ofJson : Json → Instruction
  | .arr (.str name :: operands) => ofOperands name operands
  | _ => .skip

end Instruction

/-- A scripted node. -/
structure Script where
  /-- The fields it is saved with. -/
  fields : Json
  /-- The event or function name it answers to. -/
  entry : Option String
  instructions : List Instruction
  deriving DecidableEq, Inhabited

namespace Script

/-- The script among some fields. -/
def ofFields (fields : Json) : Script where
  fields := (fields.get? "serialize").getD fields
  entry := match fields.get? "entry" with
    | some (.str s) => some s
    | _ => none
  instructions := match fields.get? "script" with
    | some (.arr items) => items.map Instruction.ofJson
    | _ => []

end Script
end FlowGraph
