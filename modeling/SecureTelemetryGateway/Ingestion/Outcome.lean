import SecureTelemetryGateway.Ingestion.TelemetryIngestionEngine

/-!
# What parsing leaves in the output

The members of the document are read one after the other and each is written
at once, so the first one of a wrong type decides both what escapes and what
has been written by then.
-/

namespace SecureTelemetryGateway.Ingestion

open Models (TelemetryData PayloadMap)

-- ---------------------------------------------------------------------------
-- Runs
-- ---------------------------------------------------------------------------

theorem run_bind (m : Writing α) (f : α → Writing β) (data : TelemetryData) :
    (m >>= f).run data = match m.run data with
      | (.ok a, data') => (f a).run data'
      | (.error e, data') => (.error e, data') := by
  rw [ExceptT.run_bind]
  show StateT.bind _ _ data = _
  unfold StateT.bind
  rcases m.run data with ⟨r, data'⟩
  cases r <;> rfl

@[simp] theorem run_liftM (x : Except JsonError α) (data : TelemetryData) :
    (liftM x : Writing α).run data = (x, data) := by
  cases x <;> rfl

@[simp] theorem run_modify (f : TelemetryData → TelemetryData) (data : TelemetryData) :
    (modify f : Writing Unit).run data = (.ok (), f data) := rfl

@[simp] theorem run_pure (a : α) (data : TelemetryData) :
    (pure a : Writing α).run data = (.ok a, data) := rfl

theorem run_tryCatch (m : Writing α) (f : JsonError → Writing α) (data : TelemetryData) :
    (tryCatch m f : Writing α).run data = match m.run data with
      | (.ok a, data') => (.ok a, data')
      | (.error e, data') => (f e).run data' := by
  rcases h : m.run data with ⟨r, data'⟩
  simp only [tryCatch, tryCatchThe, MonadExceptOf.tryCatch, ExceptT.tryCatch, ExceptT.run_mk]
  show (StateT.bind m.run _ data) = _
  simp only [StateT.bind, h]
  cases r <;> rfl

-- ---------------------------------------------------------------------------
-- What is read
-- ---------------------------------------------------------------------------

namespace Json

def identity (parsed : Json) : Except JsonError String :=
  if parsed.contains "client_id" then (parsed.get "client_id").getString
  else if parsed.contains "robot_id" then (parsed.get "robot_id").getString
  else .ok "unknown_robot"

def uint64Or (nl : Nlohmann) (parsed : Json) (key : String) (default : UInt64) :
    Except JsonError UInt64 :=
  if parsed.contains key then (parsed.get key).getUInt64 nl else .ok default

def number? (value : Json) : Option Double := value.getDouble.toOption

def numbersInto (m : PayloadMap) : List (String × Json) → PayloadMap
  | [] => m
  | (key, value) :: rest =>
    match value.number? with
    | some d => numbersInto (m.insert key d) rest
    | none => numbersInto m rest

def sensorType (parsed : Json) : String :=
  if parsed.contains "battery" then "battery"
  else if parsed.contains "temperature" then "temperature"
  else if parsed.contains "velocity_x" then "velocity"
  else "generic"

def frame (parsed : Json) (robotId : String) (sequenceId timestampNs : UInt64) :
    TelemetryData where
  robotId
  sensorType := parsed.sensorType
  timestampNs
  sequenceId
  payloadValues := numbersInto ∅ parsed.items

end Json

theorem run_extractPayload (items : List (String × Json)) (data : TelemetryData) :
    (extractPayload items).run data =
      (.ok (), { data with payloadValues := Json.numbersInto data.payloadValues items }) := by
  induction items generalizing data with
  | nil => rfl
  | cons item rest ih =>
    obtain ⟨key, value⟩ := item
    cases value <;>
      simp [extractPayload, Json.numbersInto, Json.number?, Json.isNumber, Json.getDouble, run_bind,
        Except.toOption, ih]

-- ---------------------------------------------------------------------------
-- One run
-- ---------------------------------------------------------------------------

theorem read_member (nl : Nlohmann) (parsed : Json) (key : String) (default : UInt64)
    (write : UInt64 → TelemetryData → TelemetryData) (k : Unit → Writing β) :
    (if parsed.contains key then
        liftM ((parsed.get key).getUInt64 nl) >>= fun n => modify (write n) >>= k
      else modify (write default) >>= k) =
      liftM (parsed.uint64Or nl key default) >>= fun n => modify (write n) >>= k := by
  unfold Json.uint64Or
  split <;> rfl

theorem read_identity (parsed : Json) (k : Unit → Writing β) :
    (if parsed.contains "client_id" then
        liftM (parsed.get "client_id").getString >>= fun id =>
          modify ({ · with robotId := id }) >>= k
      else if parsed.contains "robot_id" then
        liftM (parsed.get "robot_id").getString >>= fun id =>
          modify ({ · with robotId := id }) >>= k
      else modify ({ · with robotId := "unknown_robot" }) >>= k) =
      liftM parsed.identity >>= fun id => modify ({ · with robotId := id }) >>= k := by
  unfold Json.identity
  split
  · rfl
  · split <;> rfl

theorem write_sensorType (parsed : Json) (k : Unit → Writing β) :
    (if parsed.contains "battery" then modify ({ · with sensorType := "battery" }) >>= k
      else if parsed.contains "temperature" then
        modify ({ · with sensorType := "temperature" }) >>= k
      else if parsed.contains "velocity_x" then
        modify ({ · with sensorType := "velocity" }) >>= k
      else modify ({ · with sensorType := "generic" }) >>= k) =
      modify ({ · with sensorType := parsed.sensorType }) >>= k := by
  unfold Json.sensorType
  split
  · rfl
  · split
    · rfl
    · split <;> rfl

theorem run_readFrame (h : nl.parse rawJson = .ok parsed) (before : TelemetryData) :
    (readFrame nl now rawJson).run before =
      match parsed.identity with
      | .error e => (.error e, before)
      | .ok robotId =>
        match parsed.uint64Or nl "sequence_id" 0 with
        | .error e => (.error e, { before with robotId })
        | .ok sequenceId =>
          match parsed.uint64Or nl "timestamp_ns" now with
          | .error e => (.error e, { before with robotId, sequenceId })
          | .ok timestampNs => (.ok .success, parsed.frame robotId sequenceId timestampNs) := by
  unfold readFrame
  simp only [read_identity, read_member, write_sensorType, run_bind, run_liftM, run_modify,
    run_extractPayload, run_pure, h]
  cases parsed.identity with
  | error e => rfl
  | ok robotId =>
    cases parsed.uint64Or nl "sequence_id" 0 with
    | error e => rfl
    | ok sequenceId =>
      cases parsed.uint64Or nl "timestamp_ns" now <;> rfl

-- ---------------------------------------------------------------------------
-- Members of the right type
-- ---------------------------------------------------------------------------

namespace Json

def isString : Json → Bool
  | .string _ => true
  | _ => false

def IdentityTyped (parsed : Json) : Prop :=
  if parsed.contains "client_id" then (parsed.get "client_id").isString = true
  else parsed.contains "robot_id" → (parsed.get "robot_id").isString

def NumberTyped (parsed : Json) (key : String) : Prop :=
  parsed.contains key → (parsed.get key).isNumber

instance (parsed : Json) : Decidable parsed.IdentityTyped := by
  unfold IdentityTyped
  infer_instance

instance (parsed : Json) (key : String) : Decidable (parsed.NumberTyped key) := by
  unfold NumberTyped
  infer_instance

structure WellTyped (parsed : Json) : Prop where
  identity : parsed.IdentityTyped
  sequenceId : parsed.NumberTyped "sequence_id"
  timestampNs : parsed.NumberTyped "timestamp_ns"

theorem getString_of_isString {j : Json} (h : j.isString) : ∃ s, j.getString = .ok s := by
  cases j with
  | string s => exact ⟨s, rfl⟩
  | _ => cases h

theorem getString_of_not_isString {j : Json} (h : ¬j.isString) :
    j.getString = .error .typeError := by
  cases j with
  | string s => exact absurd rfl h
  | _ => rfl

theorem getUInt64_of_isNumber {j : Json} (h : j.isNumber) : ∃ n, j.getUInt64 nl = .ok n := by
  cases j with
  | numberInteger i => exact ⟨_, rfl⟩
  | numberUnsigned u => exact ⟨_, rfl⟩
  | numberFloat d => exact ⟨_, rfl⟩
  | _ => cases h

theorem getUInt64_of_not_isNumber {j : Json} (h : ¬j.isNumber) :
    j.getUInt64 nl = .error .typeError := by
  cases j with
  | numberInteger i => exact absurd rfl h
  | numberUnsigned u => exact absurd rfl h
  | numberFloat d => exact absurd rfl h
  | _ => rfl

variable {parsed : Json}

theorem identity_typed (h : parsed.IdentityTyped) : ∃ robotId, parsed.identity = .ok robotId := by
  unfold IdentityTyped at h
  unfold identity
  split
  · next hc => exact getString_of_isString (by simpa [hc] using h)
  · next hc =>
    rw [if_neg hc] at h
    split
    · next hr => exact getString_of_isString (h hr)
    · exact ⟨_, rfl⟩

theorem identity_illTyped (h : ¬parsed.IdentityTyped) : parsed.identity = .error .typeError := by
  unfold IdentityTyped at h
  unfold identity
  split
  · next hc => exact getString_of_not_isString (by simpa [hc] using h)
  · next hc =>
    rw [if_neg hc, Classical.not_imp] at h
    rw [if_pos h.1, getString_of_not_isString h.2]

theorem uint64Or_typed (nl : Nlohmann) (default : UInt64) (h : parsed.NumberTyped key) :
    ∃ n, parsed.uint64Or nl key default = .ok n := by
  unfold uint64Or
  split
  · next hc => exact getUInt64_of_isNumber (h hc)
  · exact ⟨_, rfl⟩

theorem uint64Or_illTyped (nl : Nlohmann) (default : UInt64) (h : ¬parsed.NumberTyped key) :
    parsed.uint64Or nl key default = .error .typeError := by
  rw [NumberTyped, Classical.not_imp] at h
  rw [uint64Or, if_pos h.1, getUInt64_of_not_isNumber h.2]

end Json

-- ---------------------------------------------------------------------------
-- The whole function
-- ---------------------------------------------------------------------------

theorem run_refused (h : nl.parse rawJson = .error e) (before : TelemetryData) :
    (parseAndValidate nl now rawJson).run before =
      (if e = .parseError then .ok .invalidJsonSyntax else .error e, before) := by
  have hread : (readFrame nl now rawJson).run before = (.error e, before) := by
    rw [readFrame, run_bind, run_liftM, h]
  rw [parseAndValidate, run_tryCatch, hread]
  cases e <;> rfl

theorem run_illTypedIdentity (h : nl.parse rawJson = .ok parsed) (hi : ¬parsed.IdentityTyped)
    (before : TelemetryData) :
    (parseAndValidate nl now rawJson).run before = (.error .typeError, before) := by
  rw [parseAndValidate, run_tryCatch, run_readFrame h, Json.identity_illTyped hi]
  rfl

theorem run_illTypedNumber (now : UInt64) (h : nl.parse rawJson = .ok parsed)
    (hi : parsed.IdentityTyped)
    (hn : ¬(parsed.NumberTyped "sequence_id" ∧ parsed.NumberTyped "timestamp_ns")) :
    ∃ robotId, ∀ before, ((parseAndValidate nl now rawJson).run before).1 = .error .typeError ∧
      ((parseAndValidate nl now rawJson).run before).2.robotId = robotId := by
  obtain ⟨robotId, hid⟩ := Json.identity_typed hi
  refine ⟨robotId, fun before => ?_⟩
  rw [parseAndValidate, run_tryCatch, run_readFrame h, hid]
  by_cases hs : parsed.NumberTyped "sequence_id"
  · obtain ⟨sequenceId, hseq⟩ := Json.uint64Or_typed nl 0 hs
    rw [hseq, Json.uint64Or_illTyped nl now fun ht => hn ⟨hs, ht⟩]
    exact ⟨rfl, rfl⟩
  · rw [Json.uint64Or_illTyped nl 0 hs]
    exact ⟨rfl, rfl⟩

theorem run_wellTyped (now : UInt64) (h : nl.parse rawJson = .ok parsed) (hw : parsed.WellTyped) :
    ∃ robotId sequenceId timestampNs, parsed.uint64Or nl "sequence_id" 0 = .ok sequenceId ∧
      parsed.uint64Or nl "timestamp_ns" now = .ok timestampNs ∧
      ∀ before, (parseAndValidate nl now rawJson).run before =
        (.ok .success, parsed.frame robotId sequenceId timestampNs) := by
  obtain ⟨robotId, hid⟩ := Json.identity_typed hw.identity
  obtain ⟨sequenceId, hseq⟩ := Json.uint64Or_typed nl 0 hw.sequenceId
  obtain ⟨timestampNs, hts⟩ := Json.uint64Or_typed nl now hw.timestampNs
  refine ⟨robotId, sequenceId, timestampNs, hseq, hts, fun before => ?_⟩
  rw [parseAndValidate, run_tryCatch, run_readFrame h, hid, hseq, hts]

theorem run_success
    (h : (parseAndValidate nl now rawJson).run before = (.ok .success, data)) :
    ∃ parsed, nl.parse rawJson = .ok parsed ∧ parsed.WellTyped ∧
      ∃ robotId sequenceId timestampNs, parsed.uint64Or nl "sequence_id" 0 = .ok sequenceId ∧
        parsed.uint64Or nl "timestamp_ns" now = .ok timestampNs ∧
        data = parsed.frame robotId sequenceId timestampNs := by
  cases hparse : nl.parse rawJson with
  | error e =>
    rw [run_refused hparse] at h
    cases e <;> cases h
  | ok parsed =>
    by_cases hi : parsed.IdentityTyped
    · by_cases hn : parsed.NumberTyped "sequence_id" ∧ parsed.NumberTyped "timestamp_ns"
      · have hw : parsed.WellTyped := ⟨hi, hn.1, hn.2⟩
        obtain ⟨robotId, sequenceId, timestampNs, hseq, hts, hrun⟩ := run_wellTyped now hparse hw
        rw [hrun, Prod.mk.injEq] at h
        exact ⟨parsed, rfl, hw, robotId, sequenceId, timestampNs, hseq, hts, h.2.symm⟩
      · obtain ⟨robotId, hrun⟩ := run_illTypedNumber now hparse hi hn
        have herror := (hrun before).1
        rw [h] at herror
        cases herror
    · rw [run_illTypedIdentity hparse hi] at h
      cases h

theorem read_of_run (hparse : nl.parse rawJson = .ok parsed)
    (h : (parseAndValidate nl now rawJson).run before = (.ok .success, data)) :
    parsed.WellTyped ∧
      ∃ robotId sequenceId timestampNs, parsed.uint64Or nl "sequence_id" 0 = .ok sequenceId ∧
        parsed.uint64Or nl "timestamp_ns" now = .ok timestampNs ∧
        data = parsed.frame robotId sequenceId timestampNs := by
  obtain ⟨parsed', hparse', hread⟩ := run_success h
  obtain rfl : parsed = parsed' := Except.ok.inj (hparse.symm.trans hparse')
  exact hread

theorem frame_of_run (hparse : nl.parse rawJson = .ok parsed)
    (h : (parseAndValidate nl now rawJson).run before = (.ok .success, data)) :
    parsed.WellTyped ∧
      ∃ robotId sequenceId timestampNs, data = parsed.frame robotId sequenceId timestampNs := by
  obtain ⟨hw, robotId, sequenceId, timestampNs, -, -, hdata⟩ := read_of_run hparse h
  exact ⟨hw, robotId, sequenceId, timestampNs, hdata⟩

def Nlohmann.always (parsed : Json) : Nlohmann := ⟨fun _ => .ok parsed, fun _ => 0⟩

theorem exists_run (hw : Json.WellTyped parsed) :
    ∃ robotId sequenceId timestampNs, (parseAndValidate (.always parsed) 0 []).run {} =
      (.ok .success, parsed.frame robotId sequenceId timestampNs) := by
  have hparse : (Nlohmann.always parsed).parse [] = .ok parsed := rfl
  obtain ⟨robotId, sequenceId, timestampNs, -, -, hrun⟩ := run_wellTyped 0 hparse hw
  exact ⟨robotId, sequenceId, timestampNs, hrun {}⟩

-- ---------------------------------------------------------------------------
-- All or nothing
-- ---------------------------------------------------------------------------

/-- A success owes nothing to what the output held; anything else leaves it
alone. -/
structure Transactional (nl : Nlohmann) (now : UInt64) (rawJson : Bytes) : Prop where
  success : ∀ before before' data,
    (parseAndValidate nl now rawJson).run before = (.ok .success, data) →
    (parseAndValidate nl now rawJson).run before' = (.ok .success, data)
  failure : ∀ before, ((parseAndValidate nl now rawJson).run before).1 ≠ .ok .success →
    ((parseAndValidate nl now rawJson).run before).2 = before

theorem Transactional.numbersTyped (ht : Transactional nl now rawJson)
    (h : nl.parse rawJson = .ok parsed) (hi : parsed.IdentityTyped) :
    parsed.NumberTyped "sequence_id" ∧ parsed.NumberTyped "timestamp_ns" := by
  by_contra hn
  obtain ⟨robotId, hrun⟩ := run_illTypedNumber now h hi hn
  -- An output that holds another identity does not survive.
  let before : TelemetryData := { robotId := robotId ++ "x" }
  have hkept := ht.failure before (by rw [(hrun before).1]; exact nofun)
  have hlength := congrArg (·.robotId.length) hkept
  simp [(hrun before).2, before] at hlength

theorem transactional_iff (nl : Nlohmann) (now : UInt64) (rawJson : Bytes) :
    Transactional nl now rawJson ↔ ∀ parsed, nl.parse rawJson = .ok parsed →
      parsed.IdentityTyped →
        parsed.NumberTyped "sequence_id" ∧ parsed.NumberTyped "timestamp_ns" := by
  constructor
  · intro ht parsed h hi
    exact ht.numbersTyped h hi
  · intro hn
    cases hparse : nl.parse rawJson with
    | error e =>
      constructor
      · intro before before' data h
        rw [run_refused hparse] at h
        cases e <;> cases h
      · intro before _
        rw [run_refused hparse]
    | ok parsed =>
      by_cases hi : parsed.IdentityTyped
      · obtain ⟨hseq, hts⟩ := hn parsed hparse hi
        obtain ⟨_, _, _, -, -, hrun⟩ := run_wellTyped now hparse ⟨hi, hseq, hts⟩
        constructor
        · intro before before' data h
          rw [hrun] at h ⊢
          exact h
        · intro before h
          rw [hrun] at h
          exact absurd rfl h
      · constructor
        · intro before before' data h
          rw [run_illTypedIdentity hparse hi] at h
          cases h
        · intro before _
          rw [run_illTypedIdentity hparse hi]

def Nlohmann.ofText (known : String) (parsed : Json) : Nlohmann where
  parse text := if text = known.toUTF8.toList then .ok parsed else .error .parseError
  castOutOfRange _ := 0

theorem Nlohmann.parse_ofText (known : String) (parsed : Json) :
    (ofText known parsed).parse known.toUTF8.toList = .ok parsed := if_pos rfl

def textSequence : String := "\x7b\"client_id\":\"a\",\"sequence_id\":\"x\"\x7d"

/-- The identity is written before the sequence number is looked at. -/
theorem transactional_fails :
    ¬Transactional (.ofText textSequence
        (.object [("client_id", .string "a"), ("sequence_id", .string "x")])) 0
      textSequence.toUTF8.toList := by
  intro h
  have hn := h.numbersTyped (Nlohmann.parse_ofText _ _) rfl
  exact absurd (hn.1 rfl) (by decide)

end SecureTelemetryGateway.Ingestion
