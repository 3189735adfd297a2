import Relay.Config.Address
import Relay.Message.Basic

/-!
# `Relay.Config.Basic`: the settings of a relay

A `Config` holds every setting, and a fresh one the defaults. `Config.validate` says whether the
settings are within bounds and, if not, names the first one that is not, in a fixed order.
-/

set_option autoImplicit false

namespace Relay

/-- The settings of a relay. -/
structure Config where
  /-- Where clients connect. -/
  listen : Address := .v4 [0, 0, 0, 0] 8080
  /-- Where metrics are served. -/
  metricsAddress : Address := .v4 [127, 0, 0, 1] 9090
  /-- The most connections at a time. -/
  maxConns : UInt32 := 100
  /-- The most registered users, the administrator included. -/
  maxUsers : UInt32 := 100
  /-- The administrator's password. -/
  adminPassword : String := "admin"
  /-- How long a connection may be silent, in milliseconds. -/
  idleTimeoutMs : UInt64 := 60000
  /-- How long a frame may take once its length is there, in milliseconds. -/
  partTimeoutMs : UInt64 := 5000
  /-- How long a connection may live, in milliseconds. -/
  lifetimeMs : UInt64 := 3600000
  /-- How long connections may take to end at shutdown, in seconds. -/
  drainTimeout : UInt64 := 30
  /-- The memory cost of password records, in KiB. -/
  hashMemoryKib : UInt32 := 19456
  /-- The number of passes of password records. -/
  hashIterations : UInt32 := 2
deriving DecidableEq

/-- Why settings are refused. -/
inductive ConfigError where
  /-- No connection is allowed. -/
  | maxConnsZero
  /-- Too many connections are allowed. -/
  | maxConnsTooLarge
  /-- No user is allowed. -/
  | maxUsersZero
  /-- Too many users are allowed. -/
  | maxUsersTooLarge
  /-- The administrator's password does not fit its field. -/
  | adminPasswordTooLong
  /-- The administrator's password is too short or blank. -/
  | adminPasswordBlank
  /-- Connections may not be silent at all. -/
  | idleTimeoutZero
  /-- Connections may be silent for too long. -/
  | idleTimeoutTooLarge
  /-- Frames may not take any time. -/
  | partTimeoutZero
  /-- A frame may take longer than a connection may be silent. -/
  | partTimeoutAboveIdle
  /-- Connections may not live at all. -/
  | lifetimeZero
  /-- Connections may live too long. -/
  | lifetimeTooLarge
  /-- Shutdown may take too long. -/
  | drainTimeoutTooLarge
  /-- Password records need more memory. -/
  | hashMemoryTooSmall
  /-- Password records need a pass. -/
  | hashIterationsZero
deriving DecidableEq

/-- The wording of a refusal. -/
def ConfigError.message : ConfigError → String
  | maxConnsZero => "max_conns must be greater than 0"
  | maxConnsTooLarge => "max_conns exceeds reasonable limit (1,000,000)"
  | maxUsersZero => "max_users must be greater than 0"
  | maxUsersTooLarge =>
    let limit := UserId.limit
    s!"max_users exceeds limit ({limit})"
  | adminPasswordTooLong => s!"admin_password exceeds maximum length ({passwordSize} bytes)"
  | adminPasswordBlank =>
    s!"admin_password must contain at least {minCredentialSize} non-blank bytes"
  | idleTimeoutZero => "idle_timeout_ms must be greater than 0"
  | idleTimeoutTooLarge => "idle_timeout_ms exceeds reasonable limit (1 day)"
  | partTimeoutZero => "part_timeout_ms must be greater than 0"
  | partTimeoutAboveIdle => "part_timeout_ms cannot exceed idle_timeout_ms"
  | lifetimeZero => "lifetime_ms must be greater than 0"
  | lifetimeTooLarge => "lifetime_ms exceeds reasonable limit (7 days)"
  | drainTimeoutTooLarge => "drain_timeout exceeds reasonable limit (3600 seconds)"
  | hashMemoryTooSmall => "hash_memory_kib must be at least 8"
  | hashIterationsZero => "hash_iterations must be greater than 0"

namespace Config

/-- The administrator's password as bytes. -/
def adminPasswordBytes (c : Config) : Bytes := c.adminPassword.toUTF8.toList

/-- Each bound together with the refusal of settings that break it, in the order of checking. -/
def violations (c : Config) : List (Bool × ConfigError) :=
  [(c.maxConns = 0, .maxConnsZero),
   (c.maxConns > 1000000, .maxConnsTooLarge),
   (c.maxUsers = 0, .maxUsersZero),
   (c.maxUsers > UserId.limit, .maxUsersTooLarge),
   (c.adminPasswordBytes.length > passwordSize, .adminPasswordTooLong),
   (nonBlank c.adminPasswordBytes < minCredentialSize, .adminPasswordBlank),
   (c.idleTimeoutMs = 0, .idleTimeoutZero),
   (c.idleTimeoutMs > 86400000, .idleTimeoutTooLarge),
   (c.partTimeoutMs = 0, .partTimeoutZero),
   (c.partTimeoutMs > c.idleTimeoutMs, .partTimeoutAboveIdle),
   (c.lifetimeMs = 0, .lifetimeZero),
   (c.lifetimeMs > 7 * 86400000, .lifetimeTooLarge),
   (c.drainTimeout > 3600, .drainTimeoutTooLarge),
   (c.hashMemoryKib < 8, .hashMemoryTooSmall),
   (c.hashIterations = 0, .hashIterationsZero)]

/-- Whether all settings are within bounds; if not, the first refusal. -/
def validate (c : Config) : Except ConfigError Unit :=
  match c.violations.find? Prod.fst with
  | some (_, e) => .error e
  | none => .ok ()

/-- Settings that pass have no violation. -/
theorem eq_false_of_mem_violations {c : Config} (h : c.validate = .ok ()) {violated : Bool}
    {e : ConfigError} (hmem : (violated, e) ∈ c.violations) : violated = false := by
  unfold validate at h
  split at h
  · cases h
  · rename_i hnone
    exact Bool.eq_false_iff.2 (List.find?_eq_none.1 hnone _ hmem)

end Config

end Relay
