import ZenohBridge.Multiroute
import ZenohBridge.Relay
import ZenohBridge.Spec

/-!
# Command-line arguments

`Args::validate` refuses settings that the bridge could not work with. The checks are made in
the order of the source, and the first that fails gives the error.

## Implementation notes

Whether the binary can terminate TLS is a feature of the build, and the logging surface is
built by the options of the log sinks; both are given to the check.
-/

namespace ZenohBridge

/-- The arguments that the checks read, but for those of the logging surface. -/
structure Args where
  listen : List String
  backend : List String
  bufferSize : Nat
  readTimeout : Nat
  drainTimeout : Nat
  reliability : String
  maxConnections : Nat
  cacheSize : Nat
  maxHeaderSize : Nat
  heartbeatIntervalMs : Nat
  availabilityTimeoutMs : Nat
  maxResponseSize : Nat
  rxChannelCapacity : Nat
  logLevel : String

/-- Why the arguments are refused. -/
inductive ArgsError where
  | listen (reason : ListenError)
  | backend (reason : SpecError)
  | duplicateScope (service : String) (host : Option String)
  | noSpec
  | noTermination (service : String)
  | bufferSize (got : Nat)
  | readTimeout (got : Nat)
  | drainTimeout (got : Nat)
  | reliability (got : String)
  | maxConnections
  | cacheSize
  | rxChannelCapacity
  | maxHeaderSize (got : Nat)
  | heartbeatInterval
  | availabilityTimeout
  | maxResponseSize (got maxHeaderSize : Nat)
  | logOptions (reason : String)
  | logLevel (got : String)
  deriving DecidableEq, Repr

/-- `ReliabilityMode::from_str`. -/
def ReliabilityMode.fromStr (s : String) : Except String ReliabilityMode :=
  let lower := String.ofList (s.toList.map Char.toLower)
  if lower = "stream" then .ok .stream
  else if lower = "telemetry" then .ok .telemetry
  else .error lower

namespace Args

variable {Addr : Type}

/-- The scopes of the backends, without a scope that occurs twice. -/
def checkScopes (seen : List (String × Option String)) :
    List (BackendSpec Addr) → Except ArgsError Unit
  | [] => .ok ()
  | b :: rest =>
      if (b.service, b.host) ∈ seen then .error (.duplicateScope b.service b.host)
      else checkScopes ((b.service, b.host) :: seen) rest

/-- The check whether this build can terminate TLS where a listener asks for it. -/
def checkTermination (tlsTermination : Bool) : List (ListenSpec Addr) → Except ArgsError Unit
  | [] => .ok ()
  | spec :: rest =>
      if spec.tls.isTerminate && !tlsTermination then .error (.noTermination spec.service)
      else checkTermination tlsTermination rest

/-- A check that a condition holds. -/
def require (ok : Bool) (e : ArgsError) : Except ArgsError Unit := if ok then .ok () else .error e

/-- `Args::validate`. -/
def validate (m : LowercaseMapping) (parseAddr : String → Option Addr) (tlsTermination : Bool)
    (logOptions : Except String Unit) (args : Args) : Except ArgsError Unit := do
  let listens ← args.listen.mapM fun s => (ListenSpec.fromStr parseAddr s).mapError .listen
  let backends ← args.backend.mapM fun s => (BackendSpec.fromStr m parseAddr s).mapError .backend
  checkScopes [] backends
  require (!args.listen.isEmpty || !args.backend.isEmpty) .noSpec
  checkTermination tlsTermination listens
  require (1024 ≤ args.bufferSize) (.bufferSize args.bufferSize)
  require (1 ≤ args.readTimeout) (.readTimeout args.readTimeout)
  require (1 ≤ args.drainTimeout) (.drainTimeout args.drainTimeout)
  let _ ← (ReliabilityMode.fromStr args.reliability).mapError .reliability
  require (1 ≤ args.maxConnections) .maxConnections
  require (1 ≤ args.cacheSize) .cacheSize
  require (1 ≤ args.rxChannelCapacity) .rxChannelCapacity
  require (1024 ≤ args.maxHeaderSize) (.maxHeaderSize args.maxHeaderSize)
  require (1 ≤ args.heartbeatIntervalMs) .heartbeatInterval
  require (1 ≤ args.availabilityTimeoutMs) .availabilityTimeout
  require (args.maxHeaderSize ≤ args.maxResponseSize)
    (.maxResponseSize args.maxResponseSize args.maxHeaderSize)
  logOptions.mapError .logOptions
  require (args.logLevel ∈ ["trace", "debug", "info", "warn", "error", "off"])
    (.logLevel args.logLevel)

/-- What `bridge_config` gives to a multiroute connection. -/
def multirouteConfig (args : Args) : MultirouteConfig := ⟨args.bufferSize, args.maxResponseSize⟩

/-- The arguments without specs, as their defaults are. -/
def default : Args where
  listen := []
  backend := []
  bufferSize := 65536
  readTimeout := 10
  drainTimeout := 5
  reliability := "stream"
  maxConnections := 1024
  cacheSize := 256
  maxHeaderSize := 16384
  heartbeatIntervalMs := 500
  availabilityTimeoutMs := 1000
  maxResponseSize := 10485760
  rxChannelCapacity := 256
  logLevel := "info"

theorem require_ok {ok : Bool} {e : ArgsError} (h : require ok e = .ok ()) : ok = true := by
  unfold require at h
  split at h
  · assumption
  · cases h

theorem bind_ok {ε α β : Type} {x : Except ε α} {f : α → Except ε β} {b : β}
    (h : (x >>= f) = .ok b) : ∃ a, x = .ok a ∧ f a = .ok b := by
  cases x with
  | error e => cases h
  | ok a => exact ⟨a, rfl, h⟩

/-- Every numeric argument reaches the minimum that its check asks for. -/
structure Minima (args : Args) : Prop where
  bufferSize : 1024 ≤ args.bufferSize
  readTimeout : 1 ≤ args.readTimeout
  drainTimeout : 1 ≤ args.drainTimeout
  maxConnections : 1 ≤ args.maxConnections
  cacheSize : 1 ≤ args.cacheSize
  rxChannelCapacity : 1 ≤ args.rxChannelCapacity
  maxHeaderSize : 1024 ≤ args.maxHeaderSize
  heartbeatInterval : 1 ≤ args.heartbeatIntervalMs
  availabilityTimeout : 1 ≤ args.availabilityTimeoutMs
  maxResponseSize : args.maxHeaderSize ≤ args.maxResponseSize

theorem validate_minima {m : LowercaseMapping} {parseAddr : String → Option Addr}
    {tlsTermination : Bool} {logOptions : Except String Unit} {args : Args}
    (h : args.validate m parseAddr tlsTermination logOptions = .ok ()) : args.Minima := by
  obtain ⟨_, -, h⟩ := bind_ok h
  obtain ⟨_, -, h⟩ := bind_ok h
  obtain ⟨_, -, h⟩ := bind_ok h
  obtain ⟨_, -, h⟩ := bind_ok h
  obtain ⟨_, -, h⟩ := bind_ok h
  obtain ⟨_, hbuffer, h⟩ := bind_ok h
  obtain ⟨_, hread, h⟩ := bind_ok h
  obtain ⟨_, hdrain, h⟩ := bind_ok h
  obtain ⟨_, -, h⟩ := bind_ok h
  obtain ⟨_, hconnections, h⟩ := bind_ok h
  obtain ⟨_, hcache, h⟩ := bind_ok h
  obtain ⟨_, hchannel, h⟩ := bind_ok h
  obtain ⟨_, hheader, h⟩ := bind_ok h
  obtain ⟨_, hheartbeat, h⟩ := bind_ok h
  obtain ⟨_, havailability, h⟩ := bind_ok h
  obtain ⟨_, hresponse, -⟩ := bind_ok h
  exact {
    bufferSize := of_decide_eq_true (require_ok hbuffer)
    readTimeout := of_decide_eq_true (require_ok hread)
    drainTimeout := of_decide_eq_true (require_ok hdrain)
    maxConnections := of_decide_eq_true (require_ok hconnections)
    cacheSize := of_decide_eq_true (require_ok hcache)
    rxChannelCapacity := of_decide_eq_true (require_ok hchannel)
    maxHeaderSize := of_decide_eq_true (require_ok hheader)
    heartbeatInterval := of_decide_eq_true (require_ok hheartbeat)
    availabilityTimeout := of_decide_eq_true (require_ok havailability)
    maxResponseSize := of_decide_eq_true (require_ok hresponse) }

end Args

end ZenohBridge
