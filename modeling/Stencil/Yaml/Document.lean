import Stencil.Config.Problem
import Stencil.Yaml.Event

/-!
# Documents

A document is the list of its nodes in reading order, a collection between two
nodes of its own. An alias stands for the node that was marked by an anchor;
which one that is, is settled when the document is complete.

A document that breaks off is still a document, up to the place where it does.
Who reads it meets the problem there, and not before.
-/

namespace Stencil

namespace Yaml

/-- A node of a document. -/
inductive Node where
  /-- The node of a document that has none. -/
  | void
  /-- The node with a number among those that are marked by anchors. -/
  | alias (number : Nat)
  /-- A scalar, without quotes if it is plain. -/
  | scalar (tag : Option Tag) (value : Text) (plain : Bool)
  /-- A sequence starts. -/
  | sequenceStart (tag : Option Tag)
  /-- A sequence ends. -/
  | sequenceEnd
  /-- A mapping starts. -/
  | mappingStart (tag : Option Tag)
  /-- A mapping ends. -/
  | mappingEnd

/-- A document, as far as it can be read. -/
structure Document where
  /-- Its nodes and where they start. -/
  nodes : Array (Node × Mark)
  /-- The places of the nodes that are marked by anchors, by their numbers, the
  latest first. -/
  anchors : List (Nat × Nat)
  /-- Why it breaks off, if it does. -/
  broken : Option Config.Problem
  /-- Something follows it. -/
  followed : Bool

namespace Document

/-- What is known while nodes are gathered. -/
structure Draft where
  /-- The nodes so far. -/
  nodes : Array (Node × Mark) := #[]
  /-- The numbers of the anchors, the latest first. -/
  numbers : List (Text × Nat) := []
  /-- The places of the marked nodes, the latest first. -/
  anchors : List (Nat × Nat) := []

namespace Draft

/-- The distinct names among the anchors. -/
def count (d : Draft) : Nat := ((d.numbers.map (·.1)).eraseDups).length

/-- The draft with the node that comes next, which may be marked by an anchor. Its
number is the number of the names before it, a name that is used again included. -/
def add (d : Draft) (anchor : Option Text) (node : Node) (mark : Mark) : Draft :=
  let nodes := d.nodes.push (node, mark)
  match anchor with
  | none => { d with nodes }
  | some name =>
    ⟨nodes, (name, d.count) :: d.numbers, (d.count, d.nodes.size) :: d.anchors⟩

/-- The document of the nodes, which breaks off for a reason or is complete. -/
def finish (d : Draft) (broken : Option Config.Problem) (followed : Bool) : Document :=
  ⟨d.nodes, d.anchors, broken, followed⟩

end Draft

/-- The first document of a list of events, from the nodes that have been gathered on. -/
def ofEventsFrom (d : Draft) : List Event → Document
  | [] => d.finish (some .malformed) false
  | e :: es =>
    match e.kind with
    | .streamEnd =>
      (if d.nodes.isEmpty then d.add none .void e.mark else d).finish none false
    | .documentStart => ofEventsFrom d es
    | .documentEnd =>
      d.finish none (match es with
        | [⟨.streamEnd, _⟩] => false
        | _ => true)
    | .alias name =>
      match d.numbers.find? fun p => p.1 == name with
      | some (_, number) => ofEventsFrom (d.add none (.alias number) e.mark) es
      | none => d.finish (some .undefinedReference) false
    | .scalar anchor tag value plain =>
      ofEventsFrom (d.add anchor (.scalar tag value plain) e.mark) es
    | .sequenceStart anchor tag => ofEventsFrom (d.add anchor (.sequenceStart tag) e.mark) es
    | .sequenceEnd => ofEventsFrom (d.add none .sequenceEnd e.mark) es
    | .mappingStart anchor tag => ofEventsFrom (d.add anchor (.mappingStart tag) e.mark) es
    | .mappingEnd => ofEventsFrom (d.add none .mappingEnd e.mark) es

/-- The first document of a text. -/
def ofText (s : Text) : Document := ofEventsFrom {} (events s)

end Document

end Yaml

end Stencil
