import SecureTelemetryGateway.Containers.ConcurrentQueue
import SecureTelemetryGateway.Ingestion.Json

/-!
# The ingestion engine

`telemetry_ingestion_engine.cpp`. The output frame is a state that survives an
exception with whatever was written before it, as a reference parameter does.
-/

namespace SecureTelemetryGateway.Ingestion

open Models (TelemetryData)
open Containers (ConcurrentQueue)

inductive IngestionStatus
  | success
  | invalidJsonSyntax
  | missingRequiredFields
  | timestampOutOfBounds
  | payloadExceedsSizeLimit
  | queueFull
  deriving DecidableEq

abbrev Writing := ExceptT JsonError (StateM TelemetryData)

def extractPayload : List (String × Json) → Writing Unit
  | [] => pure ()
  | (key, value) :: rest => do
    if value.isNumber then
      let d ← liftM value.getDouble
      modify fun data => { data with payloadValues := data.payloadValues.insert key d }
    extractPayload rest

/-- The body of the `try` block. -/
def readFrame (nl : Nlohmann) (now : UInt64) (rawJson : Bytes) : Writing IngestionStatus := do
  let parsed ← liftM (nl.parse rawJson)
  if parsed.contains "client_id" then
    let id ← liftM (parsed.get "client_id").getString
    modify ({ · with robotId := id })
  else if parsed.contains "robot_id" then
    let id ← liftM (parsed.get "robot_id").getString
    modify ({ · with robotId := id })
  else
    modify ({ · with robotId := "unknown_robot" })
  if parsed.contains "sequence_id" then
    let n ← liftM ((parsed.get "sequence_id").getUInt64 nl)
    modify ({ · with sequenceId := n })
  else
    modify ({ · with sequenceId := 0 })
  if parsed.contains "timestamp_ns" then
    let n ← liftM ((parsed.get "timestamp_ns").getUInt64 nl)
    modify ({ · with timestampNs := n })
  else
    modify ({ · with timestampNs := now })
  modify ({ · with payloadValues := ∅ })
  extractPayload parsed.items
  if parsed.contains "battery" then
    modify ({ · with sensorType := "battery" })
  else if parsed.contains "temperature" then
    modify ({ · with sensorType := "temperature" })
  else if parsed.contains "velocity_x" then
    modify ({ · with sensorType := "velocity" })
  else
    modify ({ · with sensorType := "generic" })
  return .success

/-- Only a `parse_error` is caught; the other exceptions escape. `now` is the
clock reading in nanoseconds. -/
def parseAndValidate (nl : Nlohmann) (now : UInt64) (rawJson : Bytes) :
    Writing IngestionStatus :=
  tryCatch (readFrame nl now rawJson) fun
    | .parseError => return .invalidJsonSyntax
    | e => throw e

/-- Parse into a fresh frame and push it. The answer is an escaping exception
or the status; the second component is the queue afterwards. -/
def processPayload (nl : Nlohmann) (now : UInt64) (rawJson : Bytes)
    (targetQueue : ConcurrentQueue TelemetryData) :
    Except JsonError IngestionStatus × ConcurrentQueue TelemetryData :=
  match (parseAndValidate nl now rawJson).run {} with
  | (.error e, _) => (.error e, targetQueue)
  | (.ok .success, data) =>
    match targetQueue.push data with
    | (true, targetQueue) => (.ok .success, targetQueue)
    | (false, targetQueue) => (.ok .queueFull, targetQueue)
  | (.ok status, _) => (.ok status, targetQueue)

end SecureTelemetryGateway.Ingestion
