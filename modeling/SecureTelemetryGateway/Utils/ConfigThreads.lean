import SecureTelemetryGateway.Lib.LockedObject
import SecureTelemetryGateway.Utils.Lookup

/-!
# The configuration under any number of threads

Every call holds the mutex of the one instance throughout, so the manager is an
object behind a lock. What a call returns is what the document of one moment
says, and the moment lies between its call and its return.
-/

namespace SecureTelemetryGateway.Utils

open Lib Lib.LockedObject

inductive Op : Type 1
  | loadFile (configFilePath : String) (outcome : FileOutcome)
  | get {T : Type} (convert : Value → Except YamlError T) (keyPath : Bytes) (defaultValue : T)
  | isLoaded

inductive Reply : Type 1
  | loaded (ok : Bool)
  | got {T : Type} (value : Except YamlError T)
  | isLoaded (b : Bool)

def ConfigManager.apply (m : ConfigManager) : Op → Reply × ConfigManager
  | .loadFile configFilePath outcome =>
    let (ok, m) := m.loadFile configFilePath outcome
    (.loaded ok, m)
  | .get convert keyPath defaultValue =>
    let (value, m) := m.get convert keyPath defaultValue
    (.got value, m)
  | .isLoaded => (.isLoaded m.isLoaded, m)

def sharedConfig : SeqObject ConfigManager Op Reply where
  apply op m := m.apply op

abbrev ConfigEvent (τ : Type v) := LockedObject.Event τ Op Reply

def Op.call? : Op → Option Call
  | .loadFile configFilePath outcome => some (.loadFile configFilePath outcome)
  | .get convert keyPath defaultValue => some (.get convert keyPath defaultValue)
  | .isLoaded => none

def calls (h : List (Entry τ Op Reply)) : List Call := h.filterMap fun e => e.op.call?

def FileOutcome.loads : FileOutcome → Bool
  | .document _ => true
  | _ => false

/-- The reply where `last` is the document loaded. A lookup never throws, and
is answered off the document if its path leaves the maps on it for good. -/
def Answered (last : Option Document) : Op → Reply → Prop
  | .loadFile _ outcome, r => r = .loaded outcome.loads
  | .get convert keyPath defaultValue, r => ∃ value, r = .got (.ok value) ∧
      ∀ path, keyPath = dotted path → (∀ segment ∈ path, IsSegment segment) →
        (∀ doc, last = some doc → LeftForGood doc.graph [] doc.root path) →
          value = answer last convert path defaultValue
  | .isLoaded, r => r = .isLoaded last.isSome

-- ---------------------------------------------------------------------------
-- One call
-- ---------------------------------------------------------------------------

variable {τ : Type v} {m : ConfigManager} {history : List Call}

theorem calls_snoc (es : List (Entry τ Op Reply)) (e : Entry τ Op Reply) :
    calls (es ++ [e]) = calls es ++ e.op.call?.toList := by
  rw [calls, List.filterMap_append]
  cases h : e.op.call? <;> simp [calls, h]

theorem Represents.apply {es : List (Entry τ Op Reply)} (h : Represents (calls es) m) (t : τ)
    (op : Op) :
    Represents (calls (es ++ [⟨t, op, (m.apply op).1⟩])) (m.apply op).2 := by
  rw [calls_snoc]
  cases op with
  | loadFile configFilePath outcome => exact h.loadFile configFilePath outcome
  | get convert keyPath defaultValue =>
    exact h.get convert keyPath defaultValue (lastDocument_snoc ..)
  | isLoaded => simpa [Op.call?, ConfigManager.apply] using h

theorem represents_of_legal {es : List (Entry τ Op Reply)} (h : Legal sharedConfig {} es m) :
    Represents (calls es) m :=
  h.invariant (I := fun es m => Represents (calls es) m) .init
    fun _ _ t op ih => ih.apply t op

theorem fst_loadFile (configFilePath : String) (outcome : FileOutcome) :
    (m.loadFile configFilePath outcome).1 = outcome.loads := by
  cases outcome <;> rfl

theorem Represents.get_value (h : Represents history m) (hp : ∀ segment ∈ path, IsSegment segment)
    (hw : ∀ doc, lastDocument history = some doc → LeftForGood doc.graph [] doc.root path)
    (convert : Value → Except YamlError T) (defaultValue : T) :
    (m.get convert (dotted path) defaultValue).1 =
      .ok (answer (lastDocument history) convert path defaultValue) := by
  cases hdoc : lastDocument history with
  | none =>
    have hl : m.isLoaded = false := by rw [h.isLoaded, hdoc]; rfl
    rw [get_notLoaded hl]
    rfl
  | some doc =>
    have hl : m.isLoaded = true := by rw [h.isLoaded, hdoc]; rfl
    exact Utils.get_value hl (h.document doc hdoc) hp (hw doc hdoc) convert defaultValue

theorem Represents.answered (h : Represents history m) (op : Op) :
    Answered (lastDocument history) op (m.apply op).1 := by
  cases op with
  | loadFile configFilePath outcome => exact congrArg Reply.loaded (fst_loadFile ..)
  | get convert keyPath defaultValue =>
    obtain ⟨value, hvalue⟩ := get_ok convert keyPath defaultValue m
    refine ⟨value, congrArg Reply.got hvalue, ?_⟩
    rintro path rfl hp hw
    exact Except.ok.inj (hvalue.symm.trans (h.get_value hp hw convert defaultValue))
  | isLoaded => exact congrArg Reply.isLoaded h.isLoaded

-- ---------------------------------------------------------------------------
-- Runs
-- ---------------------------------------------------------------------------

variable [DecidableEq τ]

abbrev configThreads (τ : Type v) [DecidableEq τ] :
    Lts (LockedObject.State τ ConfigManager Op Reply) (ConfigEvent τ) := system τ sharedConfig {}

/-- Whatever returns was answered, while its thread waited, from the last load
before that in lock order. -/
structure AnsweredInOrder (es : List (ConfigEvent τ)) (final : ConfigManager) : Prop where
  linearizable : Linearizable sharedConfig {} es final
  returned : ∀ a t op r b, es = a ++ .ret t op r :: b →
    ∃ a₁ a₂ a₃, a = a₁ ++ .call t op :: (a₂ ++ .critical t op r :: a₃) ∧
      (∀ e ∈ a₂, e.thread ≠ t) ∧ (∀ e ∈ a₃, e.thread ≠ t) ∧
      Answered (lastDocument (calls (entries (a₁ ++ a₂)))) op r

theorem answeredInOrder (h : (configThreads τ).Trace es s) : AnsweredInOrder es s.obj where
  linearizable := Trace.linearizable h
  returned := by
    rintro a t op r b rfl
    obtain ⟨a₁, a₂, a₃, rfl, hwaiting, hquiet⟩ := (Trace.linearizable h).returned
    refine ⟨a₁, a₂, a₃, rfl, hwaiting, hquiet, ?_⟩
    have hsplit : (a₁ ++ .call t op :: (a₂ ++ .critical t op r :: a₃)) ++ .ret t op r :: b =
        (a₁ ++ .call t op :: a₂) ++ .critical t op r :: (a₃ ++ .ret t op r :: b) := by simp
    rw [hsplit] at h
    obtain ⟨u, hlegal, rfl⟩ := Trace.answer_eq h
    have hentries : entries (a₁ ++ .call t op :: a₂) = entries (a₁ ++ a₂) := by
      rw [entries, entries, List.filterMap_append, List.filterMap_append]
      rfl
    rw [← hentries]
    exact (represents_of_legal hlegal).answered op

def lookUpPort : Op := .get asString [0x67, 0x2e, 0x70] []

def readPort : Op := .loadFile "gateway.yaml" (.document portDocument)

theorem reply_lookUpPort :
    (sharedConfig.apply lookUpPort (sharedConfig.apply readPort {}).2).1 =
      .got (.ok [0x38, 0x30] : Except YamlError Bytes) := rfl

theorem answeredInOrder_port :
    ∃ final : LockedObject.State Bool ConfigManager Op Reply, AnsweredInOrder
      [.call true lookUpPort, .call false readPort, .critical false readPort (.loaded true),
        .critical true lookUpPort (.got (.ok [0x38, 0x30] : Except YamlError Bytes)),
        .ret true lookUpPort (.got (.ok [0x38, 0x30] : Except YamlError Bytes))] final.obj := by
  rw [← reply_lookUpPort]
  exact ⟨_, answeredInOrder ⟨_, rfl,
    .cons (.call _ _ _ rfl) <| .cons (.call _ _ _ rfl) <| .cons (.critical _ _ _ rfl) <|
      .cons (.critical _ _ _ rfl) <| .single (.ret _ _ _ _ rfl)⟩⟩

end SecureTelemetryGateway.Utils
