import ZenohBridge.Args
import ZenohBridge.Foundation.BoundedChannel
import ZenohBridge.Foundation.Duration

/-!
# Settings and the limits of what they configure

`bridge_config` turns the arguments into durations and counts. They are used later, far from
their checks, by operations that have an upper limit: sums of times, a semaphore, a channel.
`Args::validate` asks every numeric argument for a minimum and none for a maximum.

## Implementation notes

The largest `usize` and the range of the clock belong to the platform and are parameters. An
operation that panics has no result.
-/

namespace ZenohBridge

/-- `Semaphore::MAX_PERMITS`. -/
def maxPermits (usizeMax : Nat) : Nat := usizeMax >>> 3

/-- A semaphore with its permits. -/
structure Semaphore (usizeMax : Nat) where
  permits : Nat
  bounded : permits ≤ maxPermits usizeMax

/-- `Semaphore::new`. -/
def Semaphore.new (usizeMax permits : Nat) : Option (Semaphore usizeMax) :=
  if h : permits ≤ maxPermits usizeMax then some ⟨permits, h⟩ else none

/-- `mpsc::channel`: a channel has room for one element, and a semaphore counts its room. -/
def mpscChannel (T : Type) (usizeMax capacity : Nat) : Option (BoundedChannel T) :=
  if 0 < capacity then
    (Semaphore.new usizeMax capacity).map fun room => BoundedChannel.new room.permits
  else none

theorem isSome_semaphore {usizeMax permits : Nat} :
    (Semaphore.new usizeMax permits).isSome ↔ permits ≤ maxPermits usizeMax := by
  rw [Semaphore.new]
  split
  · rename_i h
    exact iff_of_true rfl h
  · rename_i h
    exact iff_of_false Bool.false_ne_true h

theorem isSome_mpscChannel {T : Type} {usizeMax capacity : Nat} (h : 0 < capacity) :
    (mpscChannel T usizeMax capacity).isSome ↔ capacity ≤ maxPermits usizeMax := by
  rw [mpscChannel, if_pos h, Option.isSome_map]
  exact isSome_semaphore

/-- `BridgeConfig`. -/
structure BridgeConfig where
  bufferSize : Nat
  reliability : ReliabilityMode
  maxConnections : Nat
  cacheSize : Nat
  maxHeaderSize : Nat
  readTimeout : Duration
  heartbeatInterval : Duration
  availabilityTimeout : Duration
  drainTimeout : Duration
  maxResponseSize : Nat
  responseIdleTimeout : Duration
  connectTimeout : Duration
  rxChannelCapacity : Nat
  deriving DecidableEq

namespace BridgeConfig

def default : BridgeConfig where
  bufferSize := 65536
  reliability := .stream
  maxConnections := 1024
  cacheSize := 256
  maxHeaderSize := 16 * 1024
  readTimeout := .fromSecs 10 (by decide)
  heartbeatInterval := .fromMillis 500 (by decide)
  availabilityTimeout := .fromMillis 1000 (by decide)
  drainTimeout := .fromSecs 5 (by decide)
  maxResponseSize := 10 * 1024 * 1024
  responseIdleTimeout := .fromSecs 30 (by decide)
  connectTimeout := .fromSecs 10 (by decide)
  rxChannelCapacity := 256

/-- `BridgeConfig::new`. -/
def new (bufferSize readTimeoutSecs drainTimeoutSecs : Nat) (hread : readTimeoutSecs < 2 ^ 64)
    (hdrain : drainTimeoutSecs < 2 ^ 64) : BridgeConfig :=
  { default with
    bufferSize := bufferSize
    readTimeout := .fromSecs readTimeoutSecs hread
    drainTimeout := .fromSecs drainTimeoutSecs hdrain }

variable {limit : Nat} (config : BridgeConfig)

/-- The deadline of `drain_all_clients`. -/
def drainDeadline (now : Instant limit) : Option (Instant limit) :=
  (now.add config.drainTimeout).bind fun t => t.add (.fromSecs 5 (by decide))

/-- The budget of `publish_error_signal`. -/
def signalBudget : Option Duration :=
  (config.availabilityTimeout.max (.fromSecs 1 (by decide))).mul 3

/-- The permits of `run_accept_loop`. -/
def connLimit (usizeMax : Nat) : Option (Semaphore usizeMax) :=
  Semaphore.new usizeMax config.maxConnections

/-- The channel of `rx_channel`. -/
def rxChannel (T : Type) (usizeMax : Nat) : Option (BoundedChannel T) :=
  mpscChannel T usizeMax config.rxChannelCapacity

end BridgeConfig

namespace Args

/-- The numeric arguments are values of their types. -/
structure Typed (usizeMax : Nat) (args : Args) : Prop where
  bufferSize : args.bufferSize ≤ usizeMax
  readTimeout : args.readTimeout < 2 ^ 64
  drainTimeout : args.drainTimeout < 2 ^ 64
  maxConnections : args.maxConnections ≤ usizeMax
  cacheSize : args.cacheSize ≤ usizeMax
  maxHeaderSize : args.maxHeaderSize ≤ usizeMax
  heartbeatInterval : args.heartbeatIntervalMs < 2 ^ 64
  availabilityTimeout : args.availabilityTimeoutMs < 2 ^ 64
  maxResponseSize : args.maxResponseSize ≤ usizeMax
  rxChannelCapacity : args.rxChannelCapacity ≤ usizeMax

variable {Addr : Type} {usizeMax limit : Nat} {args : Args}

/-- `Args::bridge_config`. -/
def bridgeConfig (args : Args) (h : args.Typed usizeMax) : BridgeConfig :=
  { BridgeConfig.new args.bufferSize args.readTimeout args.drainTimeout h.readTimeout
      h.drainTimeout with
    reliability := (ReliabilityMode.fromStr args.reliability).toOption.getD .stream
    maxConnections := args.maxConnections
    cacheSize := args.cacheSize
    maxHeaderSize := args.maxHeaderSize
    heartbeatInterval := .fromMillis args.heartbeatIntervalMs h.heartbeatInterval
    availabilityTimeout := .fromMillis args.availabilityTimeoutMs h.availabilityTimeout
    maxResponseSize := args.maxResponseSize
    rxChannelCapacity := args.rxChannelCapacity }

/-- The drain budget of `main`. -/
def drainBudget (args : Args) (h : args.Typed usizeMax) : Option Duration :=
  (Duration.fromSecs args.drainTimeout h.drainTimeout).add (.fromSecs 2 (by decide))

/-- No operation on the settings panics, when the clients are drained at `now`. -/
structure NoPanic (args : Args) (h : args.Typed usizeMax) (now : Instant limit) : Prop where
  drainBudget : (args.drainBudget h).isSome
  drainDeadline : ((args.bridgeConfig h).drainDeadline now).isSome
  signalBudget : (args.bridgeConfig h).signalBudget.isSome
  connLimit : ((args.bridgeConfig h).connLimit usizeMax).isSome
  rxChannel : ∀ T, ((args.bridgeConfig h).rxChannel T usizeMax).isSome

/-- The arguments that stay below the limits of what they configure. -/
structure BelowLimits (usizeMax : Nat) (now : Instant limit) (args : Args) : Prop where
  deadline : now.sinceOrigin.secs + args.drainTimeout + 5 < min limit (2 ^ 64)
  connections : args.maxConnections ≤ maxPermits usizeMax
  channel : args.rxChannelCapacity ≤ maxPermits usizeMax

theorem isSome_drainBudget (h : args.Typed usizeMax) :
    (args.drainBudget h).isSome ↔ args.drainTimeout + 2 < 2 ^ 64 := by
  rw [drainBudget, Duration.isSome_add, Duration.toNanos_fromSecs, Duration.toNanos_fromSecs]
  omega

/-- Whole seconds are added, so the nanoseconds of `now` carry nothing over. -/
theorem isSome_drainDeadline (h : args.Typed usizeMax) (now : Instant limit) :
    ((args.bridgeConfig h).drainDeadline now).isSome ↔
      now.sinceOrigin.secs + args.drainTimeout + 5 < min limit (2 ^ 64) := by
  have hdrain : (args.bridgeConfig h).drainTimeout.toNanos = args.drainTimeout * 10 ^ 9 :=
    Duration.toNanos_fromSecs _ h.drainTimeout
  have hnanos := now.sinceOrigin.nanos_lt
  rw [BridgeConfig.drainDeadline, Instant.isSome_add_add, hdrain, Duration.toNanos_fromSecs,
    Duration.toNanos]
  omega

/-- Three times any number of milliseconds fits. -/
theorem isSome_signalBudget (h : args.Typed usizeMax) :
    (args.bridgeConfig h).signalBudget.isSome := by
  have hmillis : (args.bridgeConfig h).availabilityTimeout.toNanos =
      args.availabilityTimeoutMs * 10 ^ 6 :=
    Duration.toNanos_fromMillis _ h.availabilityTimeout
  have hlt := h.availabilityTimeout
  rw [BridgeConfig.signalBudget, Duration.isSome_mul, Duration.toNanos_max, hmillis,
    Duration.toNanos_fromSecs]
  omega

/-- Accepted arguments let no later operation panic exactly when the drain ends within the range
of the clock and both counts are at most the permits that a semaphore can have. The minimum of
the channel capacity is the one check that guards a constructor. -/
theorem accepted_noPanic_iff (m : LowercaseMapping) (parseAddr : String → Option Addr)
    (tlsTermination : Bool) (logOptions : Except String Unit) (usizeMax : Nat) (args : Args)
    (h : args.Typed usizeMax) (now : Instant limit)
    (hvalid : args.validate m parseAddr tlsTermination logOptions = .ok ()) :
    args.NoPanic h now ↔ args.BelowLimits usizeMax now := by
  have hcapacity : 0 < args.rxChannelCapacity := (validate_minima hvalid).rxChannelCapacity
  constructor
  · intro safe
    exact {
      deadline := (isSome_drainDeadline h now).mp safe.drainDeadline
      connections := isSome_semaphore.mp safe.connLimit
      channel := (isSome_mpscChannel hcapacity).mp (safe.rxChannel Unit) }
  · intro below
    have hbudget : args.drainTimeout + 2 < 2 ^ 64 := by
      have hdeadline := below.deadline
      omega
    exact {
      drainBudget := (isSome_drainBudget h).mpr hbudget
      drainDeadline := (isSome_drainDeadline h now).mpr below.deadline
      signalBudget := isSome_signalBudget h
      connLimit := isSome_semaphore.mpr below.connections
      rxChannel := fun _ => (isSome_mpscChannel hcapacity).mpr below.channel }

theorem default_typed : Args.default.Typed (2 ^ 64 - 1) := by constructor <;> decide

/-- One listener and one backend, with these three settings. -/
def serviceArgs (drainTimeout maxConnections rxChannelCapacity : Nat) : Args :=
  { default with
    listen := ["api/0.0.0.0:8080"]
    backend := ["api/127.0.0.1:80"]
    drainTimeout := drainTimeout
    maxConnections := maxConnections
    rxChannelCapacity := rxChannelCapacity }

/-- A 64-bit machine can hold them. -/
theorem serviceArgs_typed {drainTimeout maxConnections rxChannelCapacity : Nat}
    (hdrain : drainTimeout < 2 ^ 64) (hconnections : maxConnections < 2 ^ 64)
    (hchannel : rxChannelCapacity < 2 ^ 64) :
    (serviceArgs drainTimeout maxConnections rxChannelCapacity).Typed (2 ^ 64 - 1) :=
  { default_typed with
    drainTimeout := hdrain
    maxConnections := Nat.le_sub_one_of_lt hconnections
    rxChannelCapacity := Nat.le_sub_one_of_lt hchannel }

/-- The addresses of both. -/
def serviceAddr (s : String) : Option Unit :=
  if s = "0.0.0.0:8080" ∨ s = "127.0.0.1:80" then some () else none

/-- The origin of a clock that holds what a duration holds. -/
def clockOrigin : Instant (2 ^ 64) := ⟨.fromSecs 0 (by decide), by decide⟩

/-- The largest settings that let nothing panic at the origin of the clock. -/
theorem accepted_noPanic_at_limits :
    (serviceArgs (2 ^ 64 - 6) (2 ^ 61 - 1) (2 ^ 61 - 1)).NoPanic
      (serviceArgs_typed (by decide) (by decide) (by decide)) clockOrigin :=
  (accepted_noPanic_iff .narrow serviceAddr false (.ok ()) (2 ^ 64 - 1) _ _ clockOrigin
    (by rfl)).mpr ⟨by decide, by decide, by decide⟩

/-- The largest `usize` is accepted as a number of connections, and no semaphore has so many
permits. -/
theorem accepted_panics_on_connections :
    ¬∀ (m : LowercaseMapping) (Addr : Type) (parseAddr : String → Option Addr)
      (tlsTermination : Bool) (logOptions : Except String Unit) (usizeMax limit : Nat)
      (args : Args) (h : args.Typed usizeMax) (now : Instant limit),
      args.validate m parseAddr tlsTermination logOptions = .ok () → args.NoPanic h now := by
  intro hall
  have safe := hall .narrow Unit serviceAddr false (.ok ()) (2 ^ 64 - 1) (2 ^ 64)
    (serviceArgs 5 (2 ^ 64 - 1) 256) (serviceArgs_typed (by decide) (by decide) (by decide))
    clockOrigin (by rfl)
  have hpermits : 2 ^ 64 - 1 ≤ maxPermits (2 ^ 64 - 1) := isSome_semaphore.mp safe.connLimit
  exact absurd hpermits (by decide)

end Args

end ZenohBridge
