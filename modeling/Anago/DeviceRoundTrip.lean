import Anago.Device
import Anago.StateRoundTrip

/-!
# The device file keeps everything

What is written is read back as it is; the one thing the reader insists on is a port.
-/

open StdText Json Proto

namespace DeviceConfig

theorem portFromJson_of_get {obj : Object} {port : UInt16} (named : port ≠ 0)
    (h : Object.get obj "api_port" = some (.int (portToI64 port))) :
    portFromJson obj = .ok port := by
  have positive : decide (0 < port) = true := by
    rw [decide_eq_true_eq, UInt16.lt_iff_toNat_lt]
    exact Nat.pos_of_ne_zero fun h => named (UInt16.toNat_inj.mp h)
  rw [portFromJson, h]
  simp only [Value.asI64, Option.bind_some, fitU16_portToI64, Option.filter_some, positive, if_true]

theorem portFromJson_of_zero {obj : Object}
    (h : Object.get obj "api_port" = some (.int (portToI64 0))) :
    portFromJson obj = .error (.deviceFile "api_port is not a port") := by
  have fit : fitU16 (portToI64 0) = some 0 := fitU16_portToI64 0
  rw [portFromJson, h]
  simp only [Value.asI64, Option.bind_some, fit]
  rfl

variable [Unicode]

theorem fromJson_toJson {config : DeviceConfig} (port : config.apiPort ≠ 0) :
    fromJson config.toJson = .ok config := by
  rw [fromJson, toJson, object_ofPairs]
  simp only [ofDecode, Except.mapError, except_ok_bind]
  rw [show Object.get _ "version" = some (.int schemaVersion) by simp [Object.get]]
  simp only [Value.asI64, Option.bind_some, ne_eq, not_true_eq_false, if_false]
  rw [portFromJson_of_get port (by simp [Object.get]),
    stringField_of_get "domain" (by simp [Object.get]; rfl),
    stringField_of_get "name" (by simp [Object.get]; rfl),
    stringField_of_get "address" (by simp [Object.get]; rfl),
    stringField_of_get "subnet" (by simp [Object.get]; rfl),
    stringField_of_get "token" (by simp [Object.get]; rfl),
    stringField_of_get "server_public_key" (by simp [Object.get]; rfl),
    stringField_of_get "server_endpoint" (by simp [Object.get]; rfl),
    stringField_of_get "server_address" (by simp [Object.get]; rfl)]
  rfl

theorem parse_json (config : DeviceConfig) :
    Json.parse config.toJsonString = .ok config.toJson := by
  have built : config.toJson.Built := by
    simp [toJson, Value.ofPairs, Value.Built, Value.BuiltFields]
  have shallow : config.toJson.depth ≤ Json.maxDepth := by
    simp [toJson, Value.ofPairs, Value.depth, Value.depthFields, Json.maxDepth]
  exact (parse_document (isDocument_written (some 2) built)).1 shallow

theorem parse_toJsonString {config : DeviceConfig} (port : config.apiPort ≠ 0) :
    parse config.toJsonString = .ok config := by
  rw [parse, parse_json]
  simp only [Outcome.mapErr, Outcome.ok_bind, fromJson_toJson port]
  rfl

theorem fromJson_toJson_zero {config : DeviceConfig} (port : config.apiPort = 0) :
    fromJson config.toJson = .error (.deviceFile "api_port is not a port") := by
  rw [fromJson, toJson, object_ofPairs]
  simp only [ofDecode, Except.mapError, except_ok_bind]
  rw [show Object.get _ "version" = some (.int schemaVersion) by simp [Object.get]]
  simp only [Value.asI64, Option.bind_some, ne_eq, not_true_eq_false, if_false]
  rw [portFromJson_of_zero (by simp [Object.get, port])]
  rfl

/-- What is read of a file this build wrote is what was written. -/
theorem eq_of_parse {config read : DeviceConfig} (h : parse config.toJsonString = .ok read) :
    read = config := by
  by_cases port : config.apiPort = 0
  · rw [parse, parse_json] at h
    simp only [Outcome.mapErr, Outcome.ok_bind, fromJson_toJson_zero port] at h
    cases h
  · exact Outcome.ok.inj (h.symm.trans (parse_toJsonString port))

end DeviceConfig
