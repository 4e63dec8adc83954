import SchemaCompiler.Yaml.Event

/-!
Contract: documents as trees of nodes.

Owns:
- `Node`, whose aliases name a slot of the document's anchors, and whose `cut`
  stands where the text stopped being readable;
- `YamlDocument.ofEvents`, the tree of an event stream;
- `YamlDocument.target?`, the node that an alias stands for.

An anchor gets the slot whose number is that of the different names used before
it, so an anchor whose name is used again shares its slot with the next new
name; a slot holds the node that took it last. An alias for a name not yet used
is a fault.

Does not own: the values of nodes (`SchemaCompiler.Yaml.Untyped`).
-/

namespace SchemaCompiler.Yaml

inductive Node where
  | scalar (scalar : Scalar)
  | sequence (tag : TagName) (items : List Node)
  | mapping (tag : TagName) (entries : List (Node × Node))
  | alias (slot : Nat)
  | cut
deriving Repr

/-- The state of building nodes: the events still to be used, the slots of the
anchor names, the serial number of the node that took each slot, last one first,
and the finished nodes by serial number. -/
structure TreeBuilder where
  events : List Event
  names : List (String × Nat) := []
  slots : List (Nat × Nat) := []
  serial : Nat := 0
  finished : List (Nat × Node) := []

abbrev Building (α : Type) := StateM TreeBuilder α

namespace Building

/-- The next event, taken off. -/
def next? : Building (Option Event) := do
  let builder ← get
  match builder.events with
  | [] => return none
  | event :: rest => do
      set { builder with events := rest }
      return some event

/-- The next event, left in place. -/
def peek? : Building (Option Event) := do
  return (← get).events.head?

/-- Takes a slot for an anchor and gives the serial number of its node. -/
def reserve (anchor : Option String) : Building (Option Nat) := do
  match anchor with
  | none => return none
  | some name => do
      let builder ← get
      let slot := builder.names.length
      let names := (name, slot) :: builder.names.filter fun used => used.1 ≠ name
      set { builder with
        names
        slots := (slot, builder.serial) :: builder.slots
        serial := builder.serial + 1 }
      return some builder.serial

/-- Hands out a finished node, noting it under its serial number. -/
def finish (serial : Option Nat) (node : Node) : Building Node := do
  match serial with
  | none => return node
  | some number => do
      modify fun builder => { builder with finished := (number, node) :: builder.finished }
      return node

/-- Stops using events: everything that follows is cut. -/
def stop : Building Node := do
  modify fun builder => { builder with events := [] }
  return .cut

mutual

/-- One node. The fuel bounds the number of events. -/
def node (fuel : Nat) : Building Node :=
  match fuel with
  | 0 => stop
  | fuel + 1 => do
      match ← next? with
      | some (.alias name) => do
          match (← get).names.find? fun used => used.1 = name with
          | some (_, slot) => return .alias slot
          | none => stop
      | some (.scalar anchor scalar) => do
          let serial ← reserve anchor
          finish serial (.scalar scalar)
      | some (.sequenceStart anchor tag) => do
          let serial ← reserve anchor
          let items ← items fuel
          finish serial (.sequence tag items)
      | some (.mappingStart anchor tag) => do
          let serial ← reserve anchor
          let entries ← entries fuel
          finish serial (.mapping tag entries)
      | some .sequenceEnd | some .mappingEnd | none => stop

/-- The items up to the end of a sequence. -/
def items (fuel : Nat) : Building (List Node) :=
  match fuel with
  | 0 => return [.cut]
  | fuel + 1 => do
      match ← peek? with
      | some .sequenceEnd => do
          let _ ← next?
          return []
      | none => return [.cut]
      | _ => do
          let item ← node fuel
          let others ← items fuel
          return item :: others

/-- The entries up to the end of a mapping. -/
def entries (fuel : Nat) : Building (List (Node × Node)) :=
  match fuel with
  | 0 => return [(.cut, .cut)]
  | fuel + 1 => do
      match ← peek? with
      | some .mappingEnd => do
          let _ ← next?
          return []
      | none => return [(.cut, .cut)]
      | _ => do
          let key ← node fuel
          let value ← node fuel
          let others ← entries fuel
          return (key, value) :: others

end

end Building

/-- The document of a text: its root, missing when the text is empty, and what
its aliases stand for. A document that is not complete is faulty behind what its
tree holds. -/
structure YamlDocument where
  root : Option Node
  anchored : List (Nat × Node)
  eventCount : Nat
  complete : Bool

namespace YamlDocument

def ofEvents (stream : EventStream) : YamlDocument :=
  let build : Building (Option Node) := do
    if stream.events.isEmpty && stream.complete then return none
    else return some (← Building.node (2 * stream.events.length + 2))
  let (root, builder) := build.run { events := stream.events }
  { root
    anchored := builder.slots.filterMap fun (slot, serial) =>
      (builder.finished.find? fun done => done.1 = serial).map fun done => (slot, done.2)
    eventCount := stream.events.length
    complete := stream.complete }

def ofText (text : String) : YamlDocument :=
  ofEvents (EventStream.ofText text)

/-- The node in a slot: the last one that took it. -/
def target? (document : YamlDocument) (slot : Nat) : Option Node :=
  (document.anchored.find? fun entry => entry.1 = slot).map Prod.snd

end YamlDocument

end SchemaCompiler.Yaml
