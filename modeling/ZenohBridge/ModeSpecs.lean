import ZenohBridge.HostSpellings
import ZenohBridge.SpecDisplay

/-!
# The specs of the single modes

Every mode of the bridge has a spec grammar of its own: a service and an address, with a DNS
label between them for an HTTP export, or a URL after the service for a WebSocket export. The
runners of the listeners still read the first of them. For the exports `BackendSpec::from_str`
took over, with `@` in front of the host; what the older parsers accept it accepts with the same
parts.

The parsers differ in where they split and in the order of their checks. Each of them is
reduced to the conditions under which it succeeds, and these are compared.
-/

namespace ZenohBridge

/-- Why the spec of a single mode is refused. -/
inductive ModeSpecError where
  | format (expected : String)
  | service (reason : ServiceNameError)
  | host (spec : String) (reason : HostError)
  | address (side text : String)
  | urlScheme
  | emptyService
  deriving DecidableEq, Repr

section Parsers

variable (m : LowercaseMapping) {Addr : Type} (parseAddr : String → Option Addr)

/-- A service and an address with one `/` between them. -/
def parseServiceAddr (expected side spec : String) : Except ModeSpecError (String × Addr) :=
  match splitChar '/' spec with
  | [service, addr] =>
      match validateServiceName service with
      | .error e => .error (.service e)
      | .ok () =>
          match parseAddr addr with
          | some a => .ok (service, a)
          | none => .error (.address side addr)
  | _ => .error (.format expected)

/-- `parse_import_spec`. -/
def parseImportSpec (spec : String) : Except ModeSpecError (String × Addr) :=
  parseServiceAddr parseAddr "service_name/listen_addr" "listen" spec

/-- `parse_export_spec`. -/
def parseExportSpec (spec : String) : Except ModeSpecError (String × Addr) :=
  parseServiceAddr parseAddr "service_name/backend_addr" "backend" spec

/-- `parse_http_export_spec`. -/
def parseHttpExportSpec (spec : String) : Except ModeSpecError (String × String × Addr) :=
  match splitChar '/' spec with
  | [service, dns, addr] =>
      match validateServiceName service with
      | .error e => .error (.service e)
      | .ok () =>
          match specHostKey m dns with
          | .error e => .error (.host spec e)
          | .ok key =>
              match parseAddr addr with
              | some a => .ok (service, key, a)
              | none => .error (.address "backend" addr)
  | _ => .error (.format "service_name/dns/backend_addr")

/-- `parse_ws_export_spec`. -/
def parseWsExportSpec (spec : String) : Except ModeSpecError (String × String) :=
  match splitOnce '/' spec with
  | none => .error (.format "service_name/ws://host:port")
  | some (service, url) =>
      match validateServiceName service with
      | .error e => .error (.service e)
      | .ok () =>
          if !startsWith url "ws://" && !startsWith url "wss://" then .error .urlScheme
          else if service = "" then .error .emptyService
          else .ok (service, url)

end Parsers

section Accepted

variable {m : LowercaseMapping} {Addr : Type} {parseAddr : String → Option Addr}
  {s d a u : String}

theorem splitChar_pair (hs : '/' ∉ s.toList) (ha : '/' ∉ a.toList) :
    splitChar '/' (s ++ "/" ++ a) = [s, a] := by
  rw [splitChar_append (b := a) (by simp) hs, splitChar_of_notMem ha]

theorem splitChar_triple (hs : '/' ∉ s.toList) (hd : '/' ∉ d.toList) (ha : '/' ∉ a.toList) :
    splitChar '/' (s ++ "/" ++ d ++ "/" ++ a) = [s, d, a] := by
  rw [splitChar_append (b := d ++ "/" ++ a) (by simp) hs, splitChar_pair hd ha]

/-- What a service and an address are accepted as. -/
theorem parseServiceAddr_eq_ok_iff {expected side service : String} {addr : Addr}
    (hs : '/' ∉ s.toList) (ha : '/' ∉ a.toList) :
    parseServiceAddr parseAddr expected side (s ++ "/" ++ a) = .ok (service, addr) ↔
      s = service ∧ validateServiceName s = .ok () ∧ parseAddr a = some addr := by
  simp only [parseServiceAddr, splitChar_pair hs ha]
  cases validateServiceName s with
  | error e => simp
  | ok valid => cases parseAddr a <;> simp

theorem parseHttpExportSpec_eq_ok_iff {service host : String} {addr : Addr}
    (hs : '/' ∉ s.toList) (hd : '/' ∉ d.toList) (ha : '/' ∉ a.toList) :
    parseHttpExportSpec m parseAddr (s ++ "/" ++ d ++ "/" ++ a) = .ok (service, host, addr) ↔
      (s = service ∧ validateServiceName s = .ok () ∧ specHostKey m d = .ok host) ∧
        parseAddr a = some addr := by
  simp only [parseHttpExportSpec, splitChar_triple hs hd ha]
  cases validateServiceName s with
  | error e => simp
  | ok valid =>
      cases specHostKey m d with
      | error e => simp
      | ok key => cases parseAddr a <;> simp [and_assoc]

theorem parseWsExportSpec_eq_ok_iff {service url : String} (hs : '/' ∉ s.toList) :
    parseWsExportSpec (s ++ "/" ++ u) = .ok (service, url) ↔
      s = service ∧ validateServiceName s = .ok () ∧
        (startsWith u "ws://" || startsWith u "wss://") = true ∧ u = url := by
  have hsplit : splitOnce '/' (s ++ "/" ++ u) = some (s, u) := splitOnce_append (by simp) hs
  simp only [parseWsExportSpec, hsplit]
  cases hvalid : validateServiceName s with
  | error e => simp
  | ok valid =>
      have hne : s ≠ "" := (validateServiceName_ok hvalid).1
      cases startsWith u "ws://" <;> cases startsWith u "wss://" <;> simp [hne]

/-- A host with `@` has no key. -/
theorem notMem_of_specHostKey {key : String} (h : specHostKey m d = .ok key) : '@' ∉ d.toList := by
  have hok := specHostKey_ok h
  have hkey : '@' ∉ key.toList := (routingKey_ok_iff.mp hok).1.notMem (by decide)
  rw [← mem_toLowercase_iff (m := m) (isNarrow_of_routingKey hok) (by decide) (by decide)]
  obtain htext | htext := toLowercase_of_specHostKey h
  · rwa [htext]
  · simpa [htext] using hkey

theorem specHostKey_ne_empty {key : String} (h : specHostKey m d = .ok key) :
    d ≠ "" ∧ key ≠ "" := by
  have hkey : key ≠ "" := (routingKey_ok (specHostKey_ok h)).1
  refine ⟨?_, hkey⟩
  rintro rfl
  have hlower : m.toLowercase "" = "" := m.toLowercase_of_isPlain isPlain_empty
  obtain htext | htext := toLowercase_of_specHostKey h
  · exact hkey (htext.symm.trans hlower)
  · have hlist := congrArg String.toList (htext.symm.trans hlower)
    simp at hlist

namespace BackendSpec

/-- What a head and a target are accepted as. -/
theorem fromStr_eq_ok_iff {head target : String} {b : BackendSpec Addr}
    (hhead : '/' ∉ head.toList) :
    fromStr m parseAddr (head ++ "/" ++ target) = .ok b ↔
      (parseHead m (head ++ "/" ++ target) head = .ok (b.service, b.host) ∧
        validateServiceName b.service = .ok ()) ∧
      b.host ≠ some "" ∧ parseTarget parseAddr target = .ok b.target :=
  fromStr_eq_ok_iff_of_split (splitOnce_append (by simp) hhead)

/-- A head with `@`: the service has none, because the first one ends it, and a host with a
second one has no key. -/
theorem parseHead_at_iff {spec service host : String} :
    parseHead m spec (s ++ "@" ++ d) = .ok (service, some host) ∧
        validateServiceName service = .ok () ↔
      s = service ∧ validateServiceName s = .ok () ∧ specHostKey m d = .ok host := by
  by_cases hat : '@' ∈ s.toList
  · constructor
    · rintro ⟨hparse, -⟩
      obtain ⟨before, after, hs, hbefore⟩ := List.eq_append_cons_of_mem hat
      have hsplit : splitOnce '@' (s ++ "@" ++ d) =
          some (.ofList before, .ofList after ++ "@" ++ d) :=
        splitOnce_append (by simp [hs]) (by simpa using hbefore)
      simp only [parseHead, hsplit] at hparse
      split at hparse
      · cases hparse
      · split at hparse
        · rename_i hkey
          exact absurd (by simp) (notMem_of_specHostKey hkey)
        · cases hparse
    · rintro ⟨-, hvalid, -⟩
      exact absurd hat (notMem_service hvalid (by decide))
  · have hsplit : splitOnce '@' (s ++ "@" ++ d) = some (s, d) := splitOnce_append (by simp) hat
    simp only [parseHead, hsplit]
    cases hkey : specHostKey m d with
    | error e => split <;> simp
    | ok key =>
        rw [if_neg (specHostKey_ne_empty hkey).1]
        constructor
        · rintro ⟨hparts, hvalid⟩
          cases hparts
          exact ⟨rfl, hvalid, rfl⟩
        · rintro ⟨rfl, hvalid, hhost⟩
          cases hhost
          exact ⟨rfl, hvalid⟩

theorem parseHead_of_noAt {spec service : String} (hs : '@' ∉ s.toList) :
    parseHead m spec s = .ok (service, none) ↔ s = service := by
  simp [parseHead, splitOnce_of_notMem hs]

theorem parseTarget_tcp_iff {addr : Addr} (ha : '/' ∉ a.toList) :
    parseTarget parseAddr a = .ok (.tcp addr) ↔ parseAddr a = some addr := by
  have hws : startsWith a "ws://" = false := startsWith_of_noSlash ha (by decide)
  have hwss : startsWith a "wss://" = false := startsWith_of_noSlash ha (by decide)
  simp only [parseTarget, hws, hwss]
  cases parseAddr a <;> simp

theorem parseTarget_ws_iff {url : String} :
    parseTarget parseAddr u = .ok (.ws url) ↔
      (startsWith u "ws://" || startsWith u "wss://") = true ∧ u = url := by
  simp only [parseTarget]
  split
  · rename_i hws
    simp [hws]
  · rename_i hws
    cases parseAddr u <;> simp [hws]

end BackendSpec

end Accepted

/-- The specs of the single export modes and the `--backend` specs that replace them are
accepted together, with the same service, host and target. -/
theorem export_grammars_agree (m : LowercaseMapping) {Addr : Type}
    (parseAddr : String → Option Addr) :
    (∀ s d a, '/' ∉ s.toList → '/' ∉ d.toList → '/' ∉ a.toList → ∀ service host addr,
      (parseHttpExportSpec m parseAddr (s ++ "/" ++ d ++ "/" ++ a) = .ok (service, host, addr) ↔
        BackendSpec.fromStr m parseAddr (s ++ "@" ++ d ++ "/" ++ a) =
          .ok ⟨service, some host, .tcp addr⟩)) ∧
    (∀ s a, '/' ∉ s.toList → '/' ∉ a.toList → '@' ∉ s.toList → ∀ service addr,
      (parseExportSpec parseAddr (s ++ "/" ++ a) = .ok (service, addr) ↔
        BackendSpec.fromStr m parseAddr (s ++ "/" ++ a) = .ok ⟨service, none, .tcp addr⟩)) ∧
    (∀ s u, '/' ∉ s.toList → '@' ∉ s.toList → ∀ service url,
      (parseWsExportSpec (s ++ "/" ++ u) = .ok (service, url) ↔
        BackendSpec.fromStr m parseAddr (s ++ "/" ++ u) = .ok ⟨service, none, .ws url⟩)) := by
  refine ⟨?_, ?_, ?_⟩
  · intro s d a hs hd ha service host addr
    have hhead : '/' ∉ (s ++ "@" ++ d).toList := by simp [hs, hd]
    rw [parseHttpExportSpec_eq_ok_iff hs hd ha, BackendSpec.fromStr_eq_ok_iff hhead,
      BackendSpec.parseHead_at_iff, BackendSpec.parseTarget_tcp_iff ha]
    constructor
    · rintro ⟨hparts, haddr⟩
      refine ⟨hparts, ?_, haddr⟩
      simpa using (specHostKey_ne_empty hparts.2.2).2
    · rintro ⟨hparts, -, haddr⟩
      exact ⟨hparts, haddr⟩
  · intro s a hs ha hat service addr
    rw [parseExportSpec, parseServiceAddr_eq_ok_iff hs ha, BackendSpec.fromStr_eq_ok_iff hs,
      BackendSpec.parseHead_of_noAt hat, BackendSpec.parseTarget_tcp_iff ha]
    constructor
    · rintro ⟨rfl, hvalid, haddr⟩
      exact ⟨⟨rfl, hvalid⟩, by simp, haddr⟩
    · rintro ⟨⟨rfl, hvalid⟩, -, haddr⟩
      exact ⟨rfl, hvalid, haddr⟩
  · intro s u hs hat service url
    rw [parseWsExportSpec_eq_ok_iff hs, BackendSpec.fromStr_eq_ok_iff hs,
      BackendSpec.parseHead_of_noAt hat, BackendSpec.parseTarget_ws_iff]
    constructor
    · rintro ⟨rfl, hvalid, hurl⟩
      exact ⟨⟨rfl, hvalid⟩, by simp, hurl⟩
    · rintro ⟨⟨rfl, hvalid⟩, -, hurl⟩
      exact ⟨rfl, hvalid, hurl⟩

theorem export_grammars_agree_samples :
    parseHttpExportSpec .narrow parseAnyV4 "web/Api.example/0.0.0.0:8443" =
        .ok ("web", "api.example", ()) ∧
      parseExportSpec parseAnyV4 "web/0.0.0.0:8443" = .ok ("web", ()) ∧
      parseWsExportSpec "chat/ws://u@h/a" = .ok ("chat", "ws://u@h/a") := by
  obtain ⟨hhttp, htcp, hws⟩ := export_grammars_agree .narrow parseAnyV4
  refine ⟨?_, ?_, ?_⟩
  · exact (hhttp "web" "Api.example" "0.0.0.0:8443" (by decide) (by decide) (by decide) _ _ _).mpr
      rfl
  · exact (htcp "web" "0.0.0.0:8443" (by decide) (by decide) (by decide) _ _).mpr rfl
  · exact (hws "chat" "ws://u@h/a" (by decide) (by decide) _ _).mpr rfl

end ZenohBridge
