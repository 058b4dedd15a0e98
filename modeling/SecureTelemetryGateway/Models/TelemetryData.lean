import SecureTelemetryGateway.Lib.Binary64
import Mathlib.Data.Finmap

/-!
# Telemetry frames

`models/telemetry_data.hpp`. Strings are texts: all that reach a frame come out
of a JSON document, where they are valid UTF-8. The payload is a finite map
without an order; a loop over the `unordered_map` takes the order as an extra
argument.
-/

namespace SecureTelemetryGateway

abbrev Bytes := List UInt8

abbrev Double := Lib.Binary64

namespace Models

/-- `std::unordered_map<std::string, double>`. -/
abbrev PayloadMap := Finmap fun _ : String => Double

structure TelemetryData where
  robotId : String := ""
  sensorType : String := ""
  timestampNs : UInt64 := 0
  sequenceId : UInt64 := 0
  payloadValues : PayloadMap := ∅
  deriving DecidableEq

end Models

end SecureTelemetryGateway
