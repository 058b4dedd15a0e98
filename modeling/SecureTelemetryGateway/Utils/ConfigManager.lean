import SecureTelemetryGateway.Lib.NodeHeap
import SecureTelemetryGateway.Ros.GatewayNode

/-!
# The configuration manager

`config_manager.hpp` and `config_manager.cpp`. A node of yaml-cpp is a handle
into a memory of nodes that every node of the process lives in. Each call holds
the mutex throughout, so calls follow one another.
-/

namespace SecureTelemetryGateway.Utils

open Lib
open Ros (LogLine)

inductive YamlError
  | badSubscript
  | badConversion
  deriving DecidableEq

/-- What a file loads as: nodes with their contents, an alias standing for the
node it names. An empty file is a null node. -/
structure Document where
  contents : List (Content Bytes)
  root : Nat
  rooted : root < contents.length
  closed : ∀ content ∈ contents, ∀ n ∈ content.children, n < contents.length

def Document.graph (doc : Document) : Graph Bytes := fun n => doc.contents[n]?

/-- What becomes of the file: `YAML::Load` gives a document or throws. -/
inductive FileOutcome
  | notOpened
  | document (doc : Document)
  | yamlException (what : String)
  | exception (what : String)

/-- The root refers to no node until it is assigned one. -/
structure ConfigManager where
  memory : NodeHeap Bytes := {}
  rootNode : Option Nat := none
  isLoaded : Bool := false
  log : List LogLine := []

/-- What `as<T>` sees of a node. -/
abbrev Value := List Nat → Option (Shape Bytes)

-- ---------------------------------------------------------------------------
-- Loading
-- ---------------------------------------------------------------------------

def failedToOpen (configFilePath : String) : LogLine :=
  ⟨.error, "ConfigManager: Failed to open configuration file at '" ++ configFilePath ++ "'"⟩

def loadedFrom (configFilePath : String) : LogLine :=
  ⟨.info, "ConfigManager: Successfully loaded configuration file from '" ++ configFilePath ++ "'"⟩

def parsingException (configFilePath what : String) : LogLine :=
  ⟨.error, "ConfigManager: YAML parsing exception in '" ++ configFilePath ++ "': " ++ what⟩

def generalError (what : String) : LogLine :=
  ⟨.error, "ConfigManager: General error loading configuration file: " ++ what⟩

/-- `root_node_ = node`. -/
def assignRoot (rootNode : Option Nat) (node : Nat) (memory : NodeHeap Bytes) :
    Nat × NodeHeap Bytes :=
  match rootNode with
  | some root => memory.assign root node
  | none => (node, memory)

namespace ConfigManager

def loadFile (configFilePath : String) (outcome : FileOutcome) (m : ConfigManager) :
    Bool × ConfigManager :=
  match outcome with
  | .notOpened =>
    (false, { m with isLoaded := false, log := m.log ++ [failedToOpen configFilePath] })
  | .document doc =>
    let (rootNode, memory) := assignRoot m.rootNode (m.memory.next + doc.root)
      (m.memory.load doc.contents.length doc.graph)
    (true, { memory, rootNode := some rootNode, isLoaded := true,
             log := m.log ++ [loadedFrom configFilePath] })
  | .yamlException what =>
    (false, { m with isLoaded := false, log := m.log ++ [parsingException configFilePath what] })
  | .exception what =>
    (false, { m with isLoaded := false, log := m.log ++ [generalError what] })

end ConfigManager

-- ---------------------------------------------------------------------------
-- Looking up
-- ---------------------------------------------------------------------------

/-- The full stop. -/
def dot : UInt8 := 0x2e

/-- What `std::getline` reads off the rest of the stream until it fails;
`segment` has been read of the line it is in. It fails on a line that has
neither a byte nor an end. -/
def segmentsFrom (segment : Bytes) : Bytes → List Bytes
  | [] => if segment = [] then [] else [segment]
  | c :: rest =>
    if c = dot then segment :: segmentsFrom [] rest else segmentsFrom (segment ++ [c]) rest

def isDefined (memory : NodeHeap Bytes) (node : Nat) : Bool := (memory.graph node).isSome

def isMap (memory : NodeHeap Bytes) (node : Nat) : Bool :=
  match memory.graph node with
  | some (.map _) => true
  | _ => false

def isNull (memory : NodeHeap Bytes) (node : Nat) : Bool :=
  match memory.graph node with
  | some .null => true
  | _ => false

/-- The loop over the segments. No node is the `YAML::Node()` of the source,
which is null. -/
def walk (memory : NodeHeap Bytes) (currentNode : Nat) :
    List Bytes → Except YamlError (Option Nat) × NodeHeap Bytes
  | [] => (.ok (some currentNode), memory)
  | segment :: rest =>
    if !isDefined memory currentNode || !isMap memory currentNode then (.ok none, memory)
    else
      match memory.index currentNode segment with
      | none => (.error .badSubscript, memory)
      | some (value, memory) =>
        -- the assignment does not only move the handle on, it redirects the node
        let (currentNode, memory) := memory.assign currentNode value
        walk memory currentNode rest

namespace ConfigManager

def navigatePath (keyPath : Bytes) (m : ConfigManager) :
    Except YamlError (Option Nat) × NodeHeap Bytes :=
  match m.rootNode with
  | some root => walk m.memory.clone (m.memory.copied root) (segmentsFrom [] keyPath)
  | none => (.ok none, m.memory)

/-- The `try` block, which may end without an answer. -/
def tryGet (convert : Value → Except YamlError T) (keyPath : Bytes) (m : ConfigManager) :
    Except YamlError (Option T) × NodeHeap Bytes :=
  match m.navigatePath keyPath with
  | (.ok (some node), memory) =>
    if isDefined memory node && !isNull memory node then
      ((convert (memory.graph.unfold node)).map some, memory)
    else (.ok none, memory)
  | (.ok none, memory) => (.ok none, memory)
  | (.error e, memory) => (.error e, memory)

def get (convert : Value → Except YamlError T) (keyPath : Bytes) (defaultValue : T)
    (m : ConfigManager) : Except YamlError T × ConfigManager :=
  if !m.isLoaded then (.ok defaultValue, m)
  else
    match m.tryGet convert keyPath with
    | (.ok (some value), memory) => (.ok value, { m with memory })
    | (.ok none, memory) => (.ok defaultValue, { m with memory })
    | (.error _, memory) => (.ok defaultValue, { m with memory })

end ConfigManager

end SecureTelemetryGateway.Utils
