import SecureTelemetryGateway.Lib.Lts
import SecureTelemetryGateway.Utils.Walk

/-!
# Lookups against the document

What a configuration lookup is to answer is read off the document alone, the
one of the last load. Everything a lookup changes lies in the copy it walks, so
the document stands in the memory until the next load.
-/

namespace SecureTelemetryGateway.Utils

open Lib

-- ---------------------------------------------------------------------------
-- What is to be answered
-- ---------------------------------------------------------------------------

inductive Call : Type 1
  | loadFile (configFilePath : String) (outcome : FileOutcome)
  | get {T : Type} (convert : Value → Except YamlError T) (keyPath : Bytes) (defaultValue : T)

def Call.run (m : ConfigManager) : Call → ConfigManager
  | .loadFile configFilePath outcome => (m.loadFile configFilePath outcome).2
  | .get convert keyPath defaultValue => (m.get convert keyPath defaultValue).2

def configManager : Lts ConfigManager Call where
  init m := m = {}
  step m call m' := m' = call.run m

def lastDocument (calls : List Call) : Option Document :=
  calls.foldl (fun last call =>
    match call with
    | .loadFile _ (.document doc) => some doc
    | .loadFile _ _ => none
    | .get .. => last) none

/-- The conversion of the value under the path, and the default where there is
no document, no value, a null one, or one that does not convert. -/
def answer (last : Option Document) (convert : Value → Except YamlError T) (path : List Bytes)
    (defaultValue : T) : T :=
  match last with
  | none => defaultValue
  | some doc =>
    match doc.graph.follow doc.root path with
    | none => defaultValue
    | some n =>
      match doc.graph n with
      | none | some .null => defaultValue
      | some _ =>
        match convert (doc.graph.unfold n) with
        | .ok value => value
        | .error _ => defaultValue

structure Answers (calls : List Call) (m : ConfigManager) (path : List Bytes) : Prop where
  noThrow : ∀ {T : Type} (convert : Value → Except YamlError T) keyPath defaultValue,
    ∃ value, (m.get convert keyPath defaultValue).1 = .ok value
  value : ∀ {T : Type} (convert : Value → Except YamlError T) defaultValue,
    (m.get convert (dotted path) defaultValue).1 =
      .ok (answer (lastDocument calls) convert path defaultValue)

-- ---------------------------------------------------------------------------
-- One lookup
-- ---------------------------------------------------------------------------

theorem Document.child_lt (doc : Document) (h : doc.graph.Child n m) :
    m < doc.contents.length := by
  unfold Graph.Child Graph.children at h
  cases hg : doc.graph n with
  | none => simp [hg] at h
  | some content =>
    rw [hg] at h
    exact doc.closed content (List.mem_of_getElem? hg) m h

def Rooted (m : ConfigManager) (doc : Document) : Prop :=
  ∃ offset, m.rootNode = some (offset + doc.root) ∧
    m.memory.Holds doc.graph offset {i | i < doc.contents.length}

variable {m : ConfigManager} {doc : Document}

theorem get_ok (convert : Value → Except YamlError T) (keyPath : Bytes) (defaultValue : T)
    (m : ConfigManager) : ∃ value, (m.get convert keyPath defaultValue).1 = .ok value := by
  unfold ConfigManager.get
  split
  · exact ⟨_, rfl⟩
  · split <;> exact ⟨_, rfl⟩

theorem get_notLoaded (h : m.isLoaded = false) (convert : Value → Except YamlError T)
    (keyPath : Bytes) (defaultValue : T) :
    m.get convert keyPath defaultValue = (.ok defaultValue, m) := by
  simp [ConfigManager.get, h]

theorem get_loaded (h : m.isLoaded = true) (convert : Value → Except YamlError T) (keyPath : Bytes)
    (defaultValue : T) :
    (m.get convert keyPath defaultValue).1 = .ok (match (m.tryGet convert keyPath).1 with
      | .ok (some value) => value
      | _ => defaultValue) := by
  rcases htry : m.tryGet convert keyPath with ⟨outcome, memory⟩
  match outcome with
  | .ok (some value) => simp [ConfigManager.get, h, htry]
  | .ok none => simp [ConfigManager.get, h, htry]
  | .error e => simp [ConfigManager.get, h, htry]

theorem tryGet_of_navigatePath (h : m.navigatePath keyPath = (.ok node, memory))
    (convert : Value → Except YamlError T) :
    m.tryGet convert keyPath = (match node.bind fun n => (memory.graph n).map (n, ·) with
      | none | some (_, .null) => .ok none
      | some (n, _) => (convert (memory.graph.unfold n)).map some, memory) := by
  unfold ConfigManager.tryGet
  rw [h]
  cases node with
  | none => rfl
  | some n =>
    unfold isDefined isNull
    cases hn : memory.graph n with
    | none => simp [hn]
    | some content => cases content <;> simp [hn]

theorem navigatePath_eq (h : m.rootNode = some root) (keyPath : Bytes) :
    m.navigatePath keyPath =
      walk m.memory.clone (m.memory.copied root) (segmentsFrom [] keyPath) := by
  simp [ConfigManager.navigatePath, h]

theorem navigatePath_spec (hr : Rooted m doc) (hp : ∀ segment ∈ path, IsSegment segment)
    (hw : LeftForGood doc.graph [] doc.root path) :
    ∃ node memory' offset, m.navigatePath (dotted path) = (.ok node, memory') ∧
      match doc.graph.follow doc.root path with
      | some n => node = some (offset + n) ∧
        Embedding doc.graph memory'.graph (offset + ·) {i | doc.graph.Reach n i}
      | none => ∀ i, node = some i → memory'.graph i = none := by
  obtain ⟨offset, hroot, hholds⟩ := hr
  have hclosed : ∀ i ∈ {i | i < doc.contents.length}, ∀ j, doc.graph.Child i j →
      j ∈ {i | i < doc.contents.length} := fun _ _ _ hchild => doc.child_lt hchild
  have hcopy := Walked.start (hholds.clone hclosed) hclosed doc.rooted
  have hcopied : m.memory.copied (offset + doc.root) = m.memory.next + offset + doc.root := by
    rw [NodeHeap.copied, (hholds doc.root doc.rooted).2.1, Nat.add_assoc]
  obtain ⟨node, memory', hwalk, hspec⟩ := walk_spec hcopy hw
  refine ⟨node, memory', m.memory.next + offset, ?_, hspec⟩
  rw [navigatePath_eq hroot, segmentsFrom_dotted hp, hcopied, hwalk]

theorem get_value (hl : m.isLoaded = true) (hr : Rooted m doc)
    (hp : ∀ segment ∈ path, IsSegment segment) (hw : LeftForGood doc.graph [] doc.root path)
    (convert : Value → Except YamlError T) (defaultValue : T) :
    (m.get convert (dotted path) defaultValue).1 =
      .ok (answer (some doc) convert path defaultValue) := by
  obtain ⟨node, memory', offset, hnavigate, hspec⟩ := navigatePath_spec hr hp hw
  rw [get_loaded hl, tryGet_of_navigatePath hnavigate]
  dsimp only [answer]
  cases hfollow : doc.graph.follow doc.root path with
  | none =>
    rw [hfollow] at hspec
    cases node with
    | none => rfl
    | some i => simp [hspec i rfl]
  | some n =>
    rw [hfollow] at hspec
    obtain ⟨rfl, hembedding⟩ := hspec
    have hcontent : memory'.graph (offset + n) =
        (doc.graph n).map (Content.rename (offset + ·)) := hembedding.content n .refl
    have hunfold : memory'.graph.unfold (offset + n) = doc.graph.unfold n :=
      hembedding.unfold .refl
    simp only [Option.bind_some, hcontent]
    cases hn : doc.graph n with
    | none => rfl
    | some content =>
      cases content with
      | null => rfl
      | _ =>
        simp only [Option.map_some, Content.rename, hunfold]
        cases convert (doc.graph.unfold n) <;> rfl

-- ---------------------------------------------------------------------------
-- Sequences of calls
-- ---------------------------------------------------------------------------

/-- The document of the last load stands at the root, whatever was looked up
since; a root that is left over from an earlier load is an allocated node. -/
structure Represents (calls : List Call) (m : ConfigManager) : Prop where
  rootNode : ∀ root, m.rootNode = some root →
    root < m.memory.next ∧ m.memory.ref root < m.memory.next
  isLoaded : m.isLoaded = (lastDocument calls).isSome
  document : ∀ doc, lastDocument calls = some doc → Rooted m doc

theorem Represents.init : Represents [] {} where
  rootNode := nofun
  isLoaded := rfl
  document := nofun

theorem lastDocument_snoc (calls : List Call) (call : Call) :
    lastDocument (calls ++ [call]) = match call with
      | .loadFile _ (.document doc) => some doc
      | .loadFile _ _ => none
      | .get .. => lastDocument calls := by
  simp only [lastDocument, List.foldl_append, List.foldl_cons, List.foldl_nil]

theorem loadFile_document (hr : ∀ root, m.rootNode = some root →
      root < m.memory.next ∧ m.memory.ref root < m.memory.next)
    (configFilePath : String) (doc : Document) :
    (m.loadFile configFilePath (.document doc)).2.rootNode = some (m.memory.next + doc.root) ∧
      (m.loadFile configFilePath (.document doc)).2.memory.Holds doc.graph m.memory.next
        {i | i < doc.contents.length} := by
  have hloaded := NodeHeap.holds_load m.memory doc.contents.length doc.graph
  simp only [ConfigManager.loadFile, assignRoot]
  cases hroot : m.rootNode with
  | none => exact ⟨rfl, hloaded⟩
  | some root =>
    obtain ⟨hlt, hreflt⟩ := hr root hroot
    have href : (m.memory.load doc.contents.length doc.graph).ref root = m.memory.ref root :=
      if_pos hlt
    have hrefdoc := (hloaded doc.root doc.rooted).2.1
    refine ⟨?_, hloaded.assign (fun i _ => by omega) _⟩
    dsimp only [NodeHeap.assign]
    rw [if_neg (by omega)]

theorem Represents.loadFile (h : Represents calls m) (configFilePath : String)
    (outcome : FileOutcome) :
    Represents (calls ++ [.loadFile configFilePath outcome])
      (m.loadFile configFilePath outcome).2 := by
  cases outcome with
  | document doc =>
    obtain ⟨hroot, hholds⟩ := loadFile_document h.rootNode configFilePath doc
    refine ⟨fun root hr => ?_, by simp [lastDocument_snoc, ConfigManager.loadFile],
      fun doc' hd => ?_⟩
    · obtain rfl : m.memory.next + doc.root = root := by simpa [hroot] using hr
      obtain ⟨hlt, href, -⟩ := hholds doc.root doc.rooted
      exact ⟨hlt, by omega⟩
    · rw [lastDocument_snoc] at hd
      cases hd
      exact ⟨m.memory.next, hroot, hholds⟩
  | _ => exact ⟨h.rootNode, by simp [lastDocument_snoc, ConfigManager.loadFile],
      by simp [lastDocument_snoc]⟩

theorem get_memory (hl : m.isLoaded = true) (convert : Value → Except YamlError T)
    (keyPath : Bytes) (defaultValue : T) :
    (m.get convert keyPath defaultValue).2 = { m with memory := (m.navigatePath keyPath).2 } := by
  have htry : (m.tryGet convert keyPath).2 = (m.navigatePath keyPath).2 := by
    unfold ConfigManager.tryGet
    split
    · next node memory h =>
      rw [h]
      split <;> rfl
    · next h => rw [h]
    · next h => rw [h]
  rw [← htry]
  unfold ConfigManager.get
  simp only [hl]
  split
  · next h => contradiction
  · split
    · next h => rw [h]
    · next h => rw [h]
    · next h => rw [h]

theorem Represents.get (h : Represents calls m) (convert : Value → Except YamlError T)
    (keyPath : Bytes) (defaultValue : T) (hlast : lastDocument calls' = lastDocument calls) :
    Represents calls' (m.get convert keyPath defaultValue).2 := by
  cases hdoc : lastDocument calls with
  | none =>
    have hl : m.isLoaded = false := by rw [h.isLoaded, hdoc]; rfl
    rw [get_notLoaded hl]
    exact ⟨h.rootNode, hlast ▸ h.isLoaded, hlast ▸ h.document⟩
  | some doc =>
    have hl : m.isLoaded = true := by rw [h.isLoaded, hdoc]; rfl
    obtain ⟨offset, hroot, hholds⟩ := h.document doc hdoc
    have hconfined : NodeHeap.Confined m.memory.next m.memory (m.navigatePath keyPath).2 := by
      rw [navigatePath_eq hroot]
      exact walk_confined (NodeHeap.confined_clone m.memory) (Nat.le_add_right _ _) _
    rw [get_memory hl]
    refine ⟨fun root hr => ?_, hlast ▸ h.isLoaded, fun doc' hd => ?_⟩
    · obtain ⟨hlt, href⟩ := h.rootNode root hr
      dsimp only
      rw [hconfined.sameRef root hlt]
      exact ⟨hlt.trans_le hconfined.next, href.trans_le hconfined.next⟩
    · obtain rfl : doc = doc' := by simpa [hlast, hdoc] using hd
      exact ⟨offset, hroot, hholds.confined hconfined⟩

theorem represents_of_trace (h : configManager.Trace calls m) : Represents calls m := by
  refine h.invariant (I := Represents) ?_ ?_
  · rintro m rfl
    exact .init
  · rintro calls m call m' ih rfl
    cases call with
    | loadFile configFilePath outcome => exact ih.loadFile configFilePath outcome
    | get convert keyPath defaultValue =>
      exact ih.get convert keyPath defaultValue (lastDocument_snoc calls _)

/-- Whatever was loaded and looked up before, a lookup that leaves the maps on
its path for good is answered from the last load. -/
theorem answers_of_leftForGood (h : configManager.Trace calls m)
    (hp : ∀ segment ∈ path, IsSegment segment)
    (hw : ∀ doc, lastDocument calls = some doc → LeftForGood doc.graph [] doc.root path) :
    Answers calls m path where
  noThrow convert keyPath defaultValue := get_ok convert keyPath defaultValue m
  value convert defaultValue := by
    have hm := represents_of_trace h
    cases hdoc : lastDocument calls with
    | none =>
      have hl : m.isLoaded = false := by rw [hm.isLoaded, hdoc]; rfl
      rw [get_notLoaded hl]
      rfl
    | some doc =>
      have hl : m.isLoaded = true := by rw [hm.isLoaded, hdoc]; rfl
      exact get_value hl (hm.document doc hdoc) hp (hw doc hdoc) convert defaultValue

def asString (value : Value) : Except YamlError Bytes :=
  match value [] with
  | some (.scalar text) => .ok text
  | _ => .error .badConversion

/-- The document `g: {p: 80}`. -/
def portDocument : Document where
  contents := [.map [(1, 2)], .scalar [0x67], .map [(3, 4)], .scalar [0x70], .scalar [0x38, 0x30]]
  root := 0
  rooted := by decide
  closed := by decide

def loadPort : Call := .loadFile "gateway.yaml" (.document portDocument)

theorem portDocument_acyclic (n m : Nat) (h : portDocument.graph.Child n m) :
    ¬portDocument.graph.Reach m n := by
  have hlt : ∀ n m, portDocument.graph.Child n m → n < m := by
    rintro (_ | _ | _ | _ | _ | n) m hm <;>
      simp [Graph.Child, Graph.children, Document.graph, portDocument, Content.children] at hm <;>
      omega
  intro hr
  exact absurd (reach_le hlt hr) (Nat.not_le.mpr (hlt n m h))

theorem answers_port : Answers [loadPort] (loadPort.run {}) [[0x67], [0x70]] := by
  refine answers_of_leftForGood ⟨{}, rfl, .single rfl⟩ ?_ fun doc hdoc => ?_
  · simp [IsSegment, dot]
  · obtain rfl : portDocument = doc := Option.some.inj hdoc
    exact leftForGood_of_acyclic portDocument_acyclic (List.forall_mem_nil _) _

/-- The document `r: &r {a: {u: *r}, b: 5}`. -/
def recursiveDocument : Document where
  contents := [.map [(1, 2)], .scalar [0x72], .map [(3, 4), (6, 7)], .scalar [0x61],
    .map [(5, 2)], .scalar [0x75], .scalar [0x62], .scalar [0x35]]
  root := 0
  rooted := by decide
  closed := by decide

def loadRecursive : Call := .loadFile "gateway.yaml" (.document recursiveDocument)

/-- On the way to `r.a.u.b` the node of `r` is redirected to that of `a`, which
has no `b`. -/
theorem answers_fails :
    configManager.Trace [loadRecursive] (loadRecursive.run {}) ∧
      ¬Answers [loadRecursive] (loadRecursive.run {}) [[0x72], [0x61], [0x75], [0x62]] := by
  refine ⟨⟨{}, rfl, .single rfl⟩, fun h => ?_⟩
  have hvalue := h.value asString []
  have hget : ((loadRecursive.run {}).get asString
      (dotted [[0x72], [0x61], [0x75], [0x62]]) []).1 = .ok [] := rfl
  have hanswer : answer (lastDocument [loadRecursive]) asString
      [[0x72], [0x61], [0x75], [0x62]] [] = [0x35] := rfl
  rw [hget, hanswer] at hvalue
  cases hvalue

end SecureTelemetryGateway.Utils
