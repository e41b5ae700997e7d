import ZenohBridge.Dns

/-!
# The spec grammar

`BackendSpec::from_str` reads `<service>[@<host>]/<target>`. The host is normalised by
`spec_host_key`, the target is a socket address or a WebSocket URL that is kept as it is.
`ListenSpec::from_str` reads `<service>/<addr>` and options after commas, each `name=value`.

The syntax of socket addresses is that of the standard library. It is a parameter: the
results here hold for every address type and every parser of it.
-/

namespace ZenohBridge

/-- Where a backend connects when a client appears. -/
inductive BackendTarget (Addr : Type) where
  | tcp (addr : Addr)
  | ws (url : String)

/-- One `--backend` attachment point. -/
structure BackendSpec (Addr : Type) where
  service : String
  host : Option String
  target : BackendTarget Addr

/-- Why a spec is refused. -/
inductive SpecError where
  | noTarget (spec : String)
  | emptyHost (spec : String)
  | host (spec : String) (reason : HostError)
  | service (reason : ServiceNameError)
  | hostNormalizesToEmpty (spec : String)
  | target (text : String)
  deriving DecidableEq, Repr

/-- `str::starts_with`. -/
def startsWith (s start : String) : Bool := start.toList.isPrefixOf s.toList

namespace BackendSpec

variable {Addr : Type} (m : LowercaseMapping) (parseAddr : String → Option Addr)

/-- The part before the first `/`: the service and the key of its host. -/
def parseHead (spec head : String) : Except SpecError (String × Option String) :=
  match splitOnce '@' head with
  | some (service, host) =>
      if host = "" then .error (.emptyHost spec)
      else match specHostKey m host with
        | .ok key => .ok (service, some key)
        | .error e => .error (.host spec e)
  | none => .ok (head, none)

/-- The part after the first `/`. -/
def parseTarget (text : String) : Except SpecError (BackendTarget Addr) :=
  if startsWith text "ws://" || startsWith text "wss://" then .ok (.ws text)
  else match parseAddr text with
    | some addr => .ok (.tcp addr)
    | none => .error (.target text)

/-- `BackendSpec::from_str`. -/
def fromStr (spec : String) : Except SpecError (BackendSpec Addr) :=
  match splitOnce '/' spec with
  | none => .error (.noTarget spec)
  | some (head, targetPart) => do
      let (service, host) ← parseHead m spec head
      match validateServiceName service with
      | .error e => .error (.service e)
      | .ok () =>
          if host = some "" then .error (.hostNormalizesToEmpty spec)
          else
            let target ← parseTarget parseAddr targetPart
            return { service, host, target }

variable {m parseAddr}

theorem parseHead_ok {spec head service : String} {host : Option String}
    (h : parseHead m spec head = .ok (service, host)) :
    ∀ k, host = some k → ∃ name, specHostKey m name = .ok k := by
  rintro k rfl
  simp only [parseHead] at h
  split at h
  · split at h
    · cases h
    · split at h
      · rename_i name _ _ hkey
        cases h
        exact ⟨_, hkey⟩
      · cases h
  · cases h

/-- What a spec is accepted as, by its two parts. -/
theorem fromStr_eq_ok_iff_of_split {spec head target : String} {b : BackendSpec Addr}
    (hsplit : splitOnce '/' spec = some (head, target)) :
    fromStr m parseAddr spec = .ok b ↔
      (parseHead m spec head = .ok (b.service, b.host) ∧
        validateServiceName b.service = .ok ()) ∧
      b.host ≠ some "" ∧ parseTarget parseAddr target = .ok b.target := by
  obtain ⟨service, host, goal⟩ := b
  simp only [fromStr, hsplit]
  cases parseHead m spec head with
  | error e => simp [bind, Except.bind]
  | ok parts =>
      obtain ⟨service', host'⟩ := parts
      simp only [bind, Except.bind, pure, Except.pure]
      cases hvalid : validateServiceName service' with
      | error e =>
          constructor
          · intro h
            cases h
          · rintro ⟨⟨hparts, hservice⟩, -⟩
            cases hparts
            rw [hvalid] at hservice
            cases hservice
      | ok valid =>
          by_cases hempty : host' = some ""
          · simp only [if_pos hempty]
            constructor
            · intro h
              cases h
            · rintro ⟨⟨hparts, -⟩, hhost, -⟩
              cases hparts
              exact absurd hempty hhost
          · simp only [if_neg hempty]
            cases parseTarget parseAddr target with
            | error e => simp
            | ok goal' =>
                constructor
                · intro h
                  cases h
                  exact ⟨⟨rfl, hvalid⟩, hempty, rfl⟩
                · rintro ⟨⟨hparts, -⟩, -, hgoal⟩
                  cases hparts
                  cases hgoal
                  rfl

theorem exists_split_of_fromStr {spec : String} {b : BackendSpec Addr}
    (h : fromStr m parseAddr spec = .ok b) :
    ∃ head target, splitOnce '/' spec = some (head, target) := by
  simp only [fromStr] at h
  split at h
  · cases h
  · rename_i head target hsplit
    exact ⟨head, target, hsplit⟩

/-- An accepted spec has a valid service, and its host is a key of `spec_host_key`. -/
theorem fromStr_ok {spec : String} {b : BackendSpec Addr} (h : fromStr m parseAddr spec = .ok b) :
    validateServiceName b.service = .ok () ∧
      ∀ k, b.host = some k → ∃ name, specHostKey m name = .ok k := by
  obtain ⟨head, target, hsplit⟩ := exists_split_of_fromStr h
  obtain ⟨⟨hhead, hservice⟩, -⟩ := (fromStr_eq_ok_iff_of_split hsplit).mp h
  exact ⟨hservice, parseHead_ok hhead⟩

end BackendSpec

/-- What a listener assumes about incoming bytes. -/
inductive ProtoMode where
  | auto
  | raw
  deriving DecidableEq, Repr

/-- Who holds the TLS private key. -/
inductive TlsMode where
  | passthrough
  | terminate (cert key : String)
  deriving DecidableEq, Repr

def TlsMode.isTerminate : TlsMode → Bool
  | .passthrough => false
  | .terminate _ _ => true

/-- Routing granularity for plaintext HTTP/1.1. -/
inductive RouteMode where
  | connection
  | request
  deriving DecidableEq, Repr

/-- One `--listen` attachment point. -/
structure ListenSpec (Addr : Type) where
  service : String
  addr : Addr
  proto : ProtoMode
  tls : TlsMode
  route : RouteMode

/-- Why a `--listen` spec is refused. -/
inductive ListenError where
  | noAddress (spec : String)
  | service (reason : ServiceNameError)
  | address (text : String)
  | emptyOption (spec : String)
  | malformedOption (opt : String)
  | emptyValue (name : String)
  | duplicate (name : String)
  | invalidProto (value : String)
  | invalidRoute (value : String)
  | unknownOption (name : String)
  | certWithoutKey
  | keyWithoutCert
  | rawRequest
  | rawTerminate
  | requestTerminate
  deriving DecidableEq, Repr

/-- `str::split` for one character. -/
def splitChar (sep : Char) (s : String) : List String := (s.toList.splitOn sep).map String.ofList

/-- The options read so far. -/
structure ListenOptions where
  proto : Option ProtoMode
  route : Option RouteMode
  cert : Option String
  key : Option String
  deriving DecidableEq, Repr

namespace ListenSpec

/-- The value of `proto=`. -/
def parseProto (value : String) : Except ListenError ProtoMode :=
  if value = "auto" then .ok .auto
  else if value = "raw" then .ok .raw
  else .error (.invalidProto value)

/-- The value of `route=`. -/
def parseRoute (value : String) : Except ListenError RouteMode :=
  if value = "connection" then .ok .connection
  else if value = "request" then .ok .request
  else .error (.invalidRoute value)

/-- One option with its name and value. -/
def setOption (opts : ListenOptions) (name value : String) : Except ListenError ListenOptions :=
  if name = "proto" then
    if opts.proto.isSome then .error (.duplicate name)
    else (parseProto value).map fun proto => { opts with proto := some proto }
  else if name = "route" then
    if opts.route.isSome then .error (.duplicate name)
    else (parseRoute value).map fun route => { opts with route := some route }
  else if name = "cert" then
    if opts.cert.isSome then .error (.duplicate name)
    else .ok { opts with cert := some value }
  else if name = "key" then
    if opts.key.isSome then .error (.duplicate name)
    else .ok { opts with key := some value }
  else .error (.unknownOption name)

/-- The body of the option loop. -/
def readOption (spec : String) (opts : ListenOptions) (opt : String) :
    Except ListenError ListenOptions :=
  if opt = "" then .error (.emptyOption spec)
  else match splitOnce '=' opt with
    | none => .error (.malformedOption opt)
    | some (name, value) =>
        if value = "" then .error (.emptyValue name) else setOption opts name value

/-- The option loop. -/
def readOptions (spec : String) (opts : ListenOptions) :
    List String → Except ListenError ListenOptions
  | [] => .ok opts
  | opt :: rest =>
      match readOption spec opts opt with
      | .ok opts => readOptions spec opts rest
      | .error e => .error e

/-- Cert implies termination; a lone half is a mistake. -/
def tlsMode (opts : ListenOptions) : Except ListenError TlsMode :=
  match opts.cert, opts.key with
  | some cert, some key => .ok (.terminate cert key)
  | none, none => .ok .passthrough
  | some _, none => .error .certWithoutKey
  | none, some _ => .error .keyWithoutCert

/-- The defaults, and the combinations that contradict themselves. -/
def assemble {Addr : Type} (service : String) (addr : Addr) (opts : ListenOptions) (tls : TlsMode) :
    Except ListenError (ListenSpec Addr) :=
  let proto := opts.proto.getD .auto
  let route := opts.route.getD .connection
  if proto = .raw ∧ route = .request then .error .rawRequest
  else if proto = .raw ∧ tls.isTerminate then .error .rawTerminate
  else if route = .request ∧ tls.isTerminate then .error .requestTerminate
  else .ok { service, addr, proto, tls, route }

/-- `ListenSpec::from_str`. -/
def fromStr {Addr : Type} (parseAddr : String → Option Addr) (spec : String) :
    Except ListenError (ListenSpec Addr) :=
  match splitOnce '/' spec with
  | none => .error (.noAddress spec)
  | some (service, rest) =>
      match validateServiceName service with
      | .error e => .error (.service e)
      | .ok () =>
          let parts := splitChar ',' rest
          let addrPart := parts.headD ""
          match parseAddr addrPart with
          | none => .error (.address addrPart)
          | some addr => do
              let opts ← readOptions spec ⟨none, none, none, none⟩ parts.tail
              let tls ← tlsMode opts
              assemble service addr opts tls

end ListenSpec

end ZenohBridge
