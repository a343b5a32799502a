import CloudInventory.Kube.Item

/-!
What is known of a cluster: its nodes and its pods by their keys. Events keep both up to date, and
each event goes to the store of its object, whichever stream has brought it.
-/

namespace CloudInventory.Kube

/-- A kind of object that is watched. -/
inductive Resource where
  | nodes
  | pods
  deriving DecidableEq, Repr

/-- The word for one object of a kind. -/
def Resource.text : Resource → String
  | nodes => "node"
  | pods => "pod"

/-- An object. -/
inductive Object where
  | node (n : Node)
  | pod (p : Pod)
  deriving DecidableEq

/-- What has happened to an object. -/
inductive EventKind where
  | added
  | updated
  | deleted
  deriving DecidableEq, Repr

/-- Something has happened to an object. -/
structure Event where
  kind : EventKind
  object : Object
  deriving DecidableEq

/-- The nodes and pods that are known. -/
structure Stores where
  nodes : Dict Node
  pods : Dict Pod
  deriving DecidableEq

namespace Stores

/-- Nothing is known. -/
def empty : Stores := ⟨.empty, .empty⟩

instance : Inhabited Stores := ⟨empty⟩

/-- Take an event. -/
def apply (s : Stores) (e : Event) : Stores :=
  match e.object, e.kind with
  | .node n, .deleted => { s with nodes := s.nodes.erase n.key }
  | .node n, _ => { s with nodes := s.nodes.insert n.key n }
  | .pod p, .deleted => { s with pods := s.pods.erase p.key }
  | .pod p, _ => { s with pods := s.pods.insert p.key p }

/-- Take events in their order. -/
def applyAll (s : Stores) (es : List Event) : Stores := es.foldl apply s

end Stores

/-- An object as a value. -/
def Object.json : Object → Json
  | node n => n.json
  | pod p => p.json

end CloudInventory.Kube
