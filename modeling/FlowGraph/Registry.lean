import FlowGraph.Node.Builtin

/-! # The registry of node types

    Types are kept by the full name of their identity, without the assembly, so a
    type replaces one of the same name.  A look-up also compares assemblies.

    `Registry.resolve` turns a saved node into a live one.  It never fails: a node
    whose type cannot be resolved becomes a placeholder that keeps everything. -/

namespace FlowGraph

/-- The known node types and the redirects of old ones. -/
structure Registry where
  types : List NodeType := []
  redirects : Redirects := {}

/-- A node as the registry resolved it. -/
structure ResolvedNode where
  identity : TypeIdentity
  genericArguments : List PortType
  descriptor : NodeDescriptor
  behavior : Behavior
  /-- The saved identity, if a redirect led elsewhere. -/
  redirectedFrom : Option TypeIdentity
  /-- What a placeholder keeps. -/
  invalid : Option InvalidNode
  deriving DecidableEq, Inhabited

namespace ResolvedNode

/-- The placeholder of a saved node. -/
def placeholder (n : NodeData) : ResolvedNode :=
  let invalid := InvalidNode.ofData n
  ⟨TypeIdentity.parse n.type, [], Builtin.placeholder, .placeholder invalid, none, some invalid⟩

/-- Whether the node is a placeholder. -/
def isPlaceholder (n : ResolvedNode) : Bool := n.invalid.isSome

end ResolvedNode

namespace Registry

/-- The name under which a type is kept. -/
def keyOf (t : NodeType) : String := t.descriptor.identity.fullName

/-- The registry of the library's types. -/
def builtin : Registry := ⟨Builtin.types, Builtin.redirects⟩

/-- Add a type, in place of one of the same full name. -/
def register (r : Registry) (t : NodeType) : Registry :=
  { r with types := r.types.filter (fun u => keyOf u ≠ keyOf t) ++ [t] }

/-- Add a redirect. -/
def redirect (r : Registry) (source target : TypeIdentity) : Registry :=
  { r with redirects := r.redirects.insert source target }

/-- Add all types and redirects of another registry. -/
def merge (r other : Registry) : Registry :=
  { other.types.foldl register r with redirects := r.redirects.merge other.redirects }

/-! ## Look-up -/

/-- The type of an identity. -/
def find? (r : Registry) (id : TypeIdentity) : Option NodeType :=
  (r.types.find? fun t => keyOf t = id.fullName).filter fun t => t.descriptor.identity.agrees id

/-- Whether a type of this identity is known. -/
def has (r : Registry) (id : TypeIdentity) : Bool := (r.find? id).isSome

/-- The identity under which a saved one is known: the end of its redirects if that
    is known, else the identity itself if that is known. -/
def resolveIdentity (r : Registry) (id : TypeIdentity) : Option TypeIdentity :=
  let own := if r.has id then some id else none
  match r.redirects.resolve id with
  | some target => if r.has target then some target else own
  | none => own

/-- The warning about a redirect that leads to an unknown type. -/
def redirectNotice (r : Registry) (id : TypeIdentity) : List LogLine :=
  match r.redirects.resolve id with
  | some target =>
    if r.has target then []
    else [⟨.warn, "Redirect target '" ++ target.text ++ "' for '" ++ id.text
      ++ "' is not registered"⟩]
  | none => []

/-- The number of types. -/
def size (r : Registry) : Nat := r.types.length

/-- Texts in ascending order. -/
def ascending (texts : List String) : List String := texts.mergeSort fun a b => a ≤ b

/-- The full names of the types, in ascending order. -/
def names (r : Registry) : List String := ascending (r.types.map keyOf)

/-- The types of a category, in ascending order. -/
def typesOf (r : Registry) (c : NodeCategory) : List String :=
  ascending ((r.types.filter (·.descriptor.category = c)).map (·.descriptor.identity.text))

/-- The categories that have types. -/
def categories (r : Registry) : List (NodeCategory × List String) :=
  (NodeCategory.all.map fun c => (c, r.typesOf c)).filter fun e => !e.2.isEmpty

/-! ## Resolution -/

/-- Read generic arguments. -/
def parseArguments (n : NodeData) : Except GraphError (List PortType) :=
  n.genericArguments.mapM fun text =>
    match PortType.parse text with
    | .ok type => .ok type
    | .error e => .error (.typeResolution (n.type ++ ": " ++ e.message))

/-- A type's text with its arguments, as messages show it. -/
def appliedText (n : NodeData) : String :=
  n.type ++ "<" ++ String.intercalate ", " n.genericArguments ++ ">"

/-- The descriptor for some generic arguments.  A type without parameters is used
    as it is. -/
def instantiate (n : NodeData) (t : NodeType) (arguments : List PortType) :
    Except GraphError NodeDescriptor :=
  if t.descriptor.genericParameters = 0 && arguments.isEmpty then .ok t.descriptor
  else
    match t.descriptor.instantiate arguments with
    | some d => .ok d
    | none => .error (.typeResolution (appliedText n))

/-- Resolve a saved node, or say why that is not possible. -/
def tryResolve (r : Registry) (n : NodeData) : Except GraphError ResolvedNode := do
  let saved := TypeIdentity.parse n.type
  match r.resolveIdentity saved with
  | none => .error (.typeResolution n.type)
  | some id =>
    match r.find? id with
    | none => .error (.typeResolution n.type)
    | some t =>
      let arguments ← parseArguments n
      let descriptor ← instantiate n t arguments
      let behavior ← t.factory n.fields arguments
      .ok ⟨t.descriptor.identity, arguments, descriptor, behavior,
        if saved.agrees id then none else some saved, none⟩

/-- Resolve a saved node; what cannot be resolved becomes a placeholder. -/
def resolve (r : Registry) (n : NodeData) : ResolvedNode :=
  match r.tryResolve n with
  | .ok node => node
  | .error _ => .placeholder n

/-- What is logged while a node is resolved. -/
def resolveNotices (r : Registry) (n : NodeData) : List LogLine :=
  let saved := TypeIdentity.parse n.type
  r.redirectNotice saved ++
  match r.tryResolve n with
  | .ok node =>
    match node.redirectedFrom, r.resolveIdentity saved with
    | some source, some target =>
      [⟨.info, "Node '" ++ n.guid ++ "' redirected from '" ++ source.text ++ "' to '"
        ++ target.text ++ "'"⟩]
    | _, _ => []
  | .error e => [⟨.warn, "Node '" ++ n.guid ++ "' replaced by placeholder: " ++ e.message⟩]

end Registry
end FlowGraph
