import ZenohBridge.Relay
import ZenohBridge.Registry
import ZenohBridge.Election

/-!
# One relayed connection

A connection is an import relay, an export relay and the messages between them: the
samples of the client's `tx` key, the samples of its `rx` key, and the events of its
liveliness token. The export side starts with the token: the export loop dispatches the
client, the task dials and sets the relay up. It is torn down through the token too.
When both directions of the import relay have ended, the import side withdraws the token,
the export loop sends the cancel of the task, and the watcher of the task trips the
export relay's token.

The session delivers the samples of one key completely and in order. Nothing is assumed
about the order of messages of different keys.

## Implementation notes

Both relays and the registry are the models of the earlier modules; the connection
only says which of their actions go together. The client and the backend are the byte
streams they send before their EOF, and a read returns any non-empty part of what is
left. The exporter stays elected and every token event is delivered once.
-/

namespace ZenohBridge

open Execution

/-- The settings of both sides and what the two ends of the connection send. -/
structure ConnectionConfig where
  importCapacity : Nat
  exportCapacity : Nat
  reliability : ReliabilityMode
  /-- What the listener has read from the client before the relay starts. -/
  initialBuffer : Option Bytes
  initial_ne_nil : ∀ b ∈ initialBuffer, b ≠ []
  clientBytes : Bytes
  backendBytes : Bytes

namespace ConnectionConfig

def importing (cfg : ConnectionConfig) : RelayConfig :=
  ⟨cfg.importCapacity, cfg.reliability, .importing⟩

def exporting (cfg : ConnectionConfig) : RelayConfig :=
  ⟨cfg.exportCapacity, cfg.reliability, .exporting⟩

/-- Every byte that the client sends before its EOF. -/
def upload (cfg : ConnectionConfig) : Bytes := cfg.initialBuffer.getD [] ++ cfg.clientBytes

end ConnectionConfig

/-- Where `bridge_import_connection` is. -/
inductive ImportPhase where
  /-- Declaring the subscribers and the publisher. -/
  | setup
  /-- The token is declared; the relay tasks are not spawned yet. -/
  | declared
  | relaying
  /-- The subscriber, the publisher and the token are undeclared. -/
  | withdrawn
  deriving DecidableEq, Repr

/-- A connection with the messages in flight. -/
structure Connection where
  phase : ImportPhase
  imp : Relay
  registry : Registry Unit
  exp : Relay
  tokens : List SampleKind
  tx : List Bytes
  rx : List Bytes
  clientUnread : Bytes
  backendUnread : Bytes

/-- The steps of the two sides and of the session between them. -/
inductive ConnectionAction where
  | declareToken
  /-- The initial buffer is published and the import relay starts. -/
  | startImport (ok : Bool)
  /-- A step of the import relay that involves no other party. -/
  | importer (a : RelayAction)
  | exporter (a : RelayAction)
  | clientRead (result : Option Bytes)
  | backendRead (result : Option Bytes)
  | importPublish (ok : Bool)
  | exportPublish (ok : Bool)
  | deliverTx
  | deliverRx
  /-- The export loop handles the oldest event of the client's token. -/
  | liveliness
  /-- A step of the client's task on the export side. -/
  | client (event : TaskEvent)
  | removeSelf
  | withdrawToken
  deriving DecidableEq, Repr

/-- The relay actions that neither move a message or a byte between parties nor come
from the coordinator of the relay. -/
def RelayAction.internal : RelayAction → Bool
  | .deliver _ | .read _ | .publishDone _ | .extTeardown | .dropCallback => false
  | _ => true

namespace Connection

/-- Both sides before their setup. -/
def init (cfg : ConnectionConfig) : Connection where
  phase := .setup
  imp := .init cfg.importing
  registry := ⟨.live, ∅, []⟩
  exp := .init cfg.exporting
  tokens := []
  tx := []
  rx := []
  clientUnread := cfg.clientBytes
  backendUnread := cfg.backendBytes

/-- What `read_data` can return on a socket with `unread` left to come: an error, a
non-empty part of it, or the empty chunk once all of it was read. -/
def Readable (unread : Bytes) : Option Bytes → Prop
  | none => True
  | some data => data <+: unread ∧ (data = [] → unread = [])

instance (unread : Bytes) : ∀ result, Decidable (Readable unread result)
  | none => inferInstanceAs (Decidable True)
  | some data => inferInstanceAs (Decidable (data <+: unread ∧ (data = [] → unread = [])))

/-- What is left to come after a read. -/
def rest (unread : Bytes) (result : Option Bytes) : Bytes := unread.drop (result.getD []).length

/-- The samples in flight after `publisher.put` returns. -/
def put (ok : Bool) (sender : Sender) (flight : List Bytes) : List Bytes :=
  match ok, sender with
  | true, .publishing data => flight ++ [data]
  | _, _ => flight

/-- The phase of the client's task on the export side. -/
def taskPhase (s : Connection) : Option ClientPhase := s.registry.tasks[0]?.map ClientTask.phase

/-- The setup of the export side may have declared its subscriber. -/
def exportSubscribed (s : Connection) : Prop :=
  s.taskPhase = some .setup ∨ s.taskPhase = some .relaying

instance (s : Connection) : Decidable s.exportSubscribed :=
  inferInstanceAs (Decidable (_ ∨ _))

/-- The export loop handles one event of the client's token. -/
def handleToken (kind : SampleKind) (registry : Registry Unit) : Option (Registry Unit) :=
  match kind with
  | .put => registry.step (.put ())
  | .delete => registry.step (.delete ())

/-- A step of the client's task with its effect on the export relay: the watcher trips
the token, and the coordinator undeclares the subscriber once both directions ended. -/
def clientStep (cfg : ConnectionConfig) (s : Connection) (event : TaskEvent) :
    Option Connection :=
  match event, s.registry.step (.task 0 event) with
  | _, none => none
  | .watcherTakes, some registry =>
      (s.exp.step cfg.exporting .extTeardown).map fun exp =>
        { s with registry := registry, exp := exp }
  | .relayDone, some registry =>
      if s.exp.receiver.finished = true ∧ s.exp.sender.finished = true then
        some { s with registry := registry, exp := { s.exp with callbackDropped := true } }
      else none
  | _, some registry => some { s with registry := registry }

/-- One step of the connection. -/
def step (cfg : ConnectionConfig) (s : Connection) : ConnectionAction → Option Connection
  | .declareToken =>
      if s.phase = .setup then some { s with phase := .declared, tokens := s.tokens ++ [.put] }
      else none
  | .startImport ok =>
      if s.phase = .declared then
        if ok then some { s with phase := .relaying, tx := s.tx ++ cfg.initialBuffer.toList }
        -- a failed publication returns, which drops the token
        else some { s with phase := .withdrawn, tokens := s.tokens ++ [.delete] }
      else none
  | .importer a =>
      if s.phase = .relaying ∧ a.internal = true then
        (s.imp.step cfg.importing a).map fun imp => { s with imp := imp }
      else none
  | .exporter a =>
      if s.taskPhase = some .relaying ∧ a.internal = true then
        (s.exp.step cfg.exporting a).map fun exp => { s with exp := exp }
      else none
  | .clientRead result =>
      if s.phase = .relaying ∧ Readable s.clientUnread result then
        (s.imp.step cfg.importing (.read result)).map fun imp =>
          { s with imp := imp, clientUnread := rest s.clientUnread result }
      else none
  | .backendRead result =>
      if s.taskPhase = some .relaying ∧ Readable s.backendUnread result then
        (s.exp.step cfg.exporting (.read result)).map fun exp =>
          { s with exp := exp, backendUnread := rest s.backendUnread result }
      else none
  | .importPublish ok =>
      if s.phase = .relaying then
        (s.imp.step cfg.importing (.publishDone ok)).map fun imp =>
          { s with imp := imp, tx := put ok s.imp.sender s.tx }
      else none
  | .exportPublish ok =>
      if s.taskPhase = some .relaying then
        (s.exp.step cfg.exporting (.publishDone ok)).map fun exp =>
          { s with exp := exp, rx := put ok s.exp.sender s.rx }
      else none
  | .deliverTx =>
      match s.tx with
      | [] => none
      | payload :: tx =>
          if s.exportSubscribed then
            (s.exp.step cfg.exporting (.deliver payload)).map fun exp =>
              { s with exp := exp, tx := tx }
          else none
  | .deliverRx =>
      match s.rx with
      | [] => none
      | payload :: rx =>
          (s.imp.step cfg.importing (.deliver payload)).map fun imp =>
            { s with imp := imp, rx := rx }
  | .liveliness =>
      match s.tokens with
      | [] => none
      | kind :: tokens =>
          (handleToken kind s.registry).map fun registry =>
            { s with registry := registry, tokens := tokens }
  | .client event => s.clientStep cfg event
  | .removeSelf =>
      (s.registry.step (.removeSelf 0)).map fun registry => { s with registry := registry }
  | .withdrawToken =>
      if s.phase = .relaying ∧ s.imp.receiver.finished = true ∧ s.imp.sender.finished = true then
        some { s with
          phase := .withdrawn
          imp := { s.imp with callbackDropped := true }
          tokens := s.tokens ++ [.delete] }
      else none

end Connection

end ZenohBridge
