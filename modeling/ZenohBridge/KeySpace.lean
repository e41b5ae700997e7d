import ZenohBridge.Foundation.KeyExpr
import ZenohBridge.Dns
import ZenohBridge.Election

/-!
# The layout of the keys

All keys of a service share one hierarchy. A scope is the service, or one host of it:
`{service}` or `{service}/{host}`. Under a scope stand the keys of its clients
(`tx`, `rx`, `clients`, `error`), the claims of its exporters and its availability token.

The import side and the export side format these keys on their own, in four places and
with two conventions for the optional host. Here every key is brought to one form, the
list of its segments, and the questions about keys are answered on segments.
-/

namespace ZenohBridge

/-- `scoped_key`: the import side's keys, with the host as a segment of its own. -/
def scopedKey (service : String) (dns : Option String) (tail : String) : String :=
  match dns with
  | some dns => service ++ "/" ++ dns ++ "/" ++ tail
  | none => service ++ "/" ++ tail

/-- `dns_part` and `dns_suffix`: the host with its separator, or nothing. -/
def dnsPart (dns : Option String) : String := (dns.map fun d => "/" ++ d).getD ""

/-- The keys of one client. -/
inductive KeyKind where
  | tx
  | rx
  | clients
  | error
  deriving DecidableEq, Repr

/-- The word of the layout that stands for a kind. -/
def KeyKind.word : KeyKind → String
  | .tx => "tx"
  | .rx => "rx"
  | .clients => "clients"
  | .error => "error"

/-- The keys of `bridge_import_connection`. -/
def importKey (service : String) (dns : Option String) (kind : KeyKind) (clientId : String) :
    String :=
  scopedKey service dns (kind.word ++ "/" ++ clientId)

/-- A key with the host already joined to the service. -/
def partKey (service part : String) (kind : KeyKind) (clientId : String) : String :=
  service ++ part ++ "/" ++ kind.word ++ "/" ++ clientId

/-- `rx_key`, `tx_key` and `liveliness_key` of `run_exchange`. -/
def exchangeKey (service : String) (dns : Option String) (kind : KeyKind) (clientId : String) :
    String :=
  partKey service (dnsPart dns) kind clientId

/-- `sub_key` (tx) and `pub_key` (rx) of `handle_client_bridge`. -/
def clientBridgeKey (service : String) (dns : Option String) (kind : KeyKind) (clientId : String) :
    String :=
  partKey service (dnsPart dns) kind clientId

/-- `error_key` and `clients_key` of `run_client`. -/
def runClientKey (service : String) (dns : Option String) (kind : KeyKind) (clientId : String) :
    String :=
  partKey service (dnsPart dns) kind clientId

/-- The client id that `serve_active` takes from the key of a liveliness sample. -/
def observedClient (key : String) : Option String :=
  if lastSegment key = "" then none else some (lastSegment key)

/-- `liveliness_key` of `run_export_loop`: the tokens of all clients of a scope. -/
def livelinessKey (service : String) (dns : Option String) : String :=
  match dns with
  | some dns => service ++ "/" ++ dns ++ "/clients/*"
  | none => service ++ "/clients/*"

/-- `service_key` of `run_export_loop`: the availability token. -/
def serviceKey (service : String) (dns : Option String) : String :=
  match dns with
  | some dns => service ++ "/" ++ dns ++ "/available"
  | none => service ++ "/available"

/-- The scope that `run_export_loop` hands to the election. -/
def scopeKey (service : String) (dns : Option String) : String :=
  match dns with
  | some dns => service ++ "/" ++ dns
  | none => service

/-- The claims that an exporter of a scope watches. -/
def claimWatch (scope : String) : String := scope ++ "/exporter-claim/*"

/-- The pattern matches the key; `*` stands for exactly one segment. -/
def KeyMatches (pattern key : String) : Prop :=
  KeyExpr.Matches '/' '*' pattern.toList key.toList

/-- The key under a scope with the given segments. -/
def layout (service : String) (dns : Option String) (tail : List String) : List (List Char) :=
  (service :: dns.toList ++ tail).map String.toList

/-- The key is made of these segments. -/
def Segmented (key : String) (service : String) (dns : Option String) (tail : List String) : Prop :=
  key.toList = KeyExpr.join '/' (layout service dns tail)

section Layout

variable (service : String) (dns : Option String)

theorem importKey_segmented (kind : KeyKind) (clientId : String) :
    Segmented (importKey service dns kind clientId) service dns [kind.word, clientId] := by
  cases dns <;>
    simp [Segmented, importKey, scopedKey, layout, KeyExpr.join, List.intercalate]

theorem partKey_segmented (kind : KeyKind) (clientId : String) :
    Segmented (partKey service (dnsPart dns) kind clientId) service dns
      [kind.word, clientId] := by
  cases dns <;>
    simp [Segmented, partKey, dnsPart, layout, KeyExpr.join, List.intercalate]

theorem livelinessKey_segmented :
    Segmented (livelinessKey service dns) service dns ["clients", "*"] := by
  cases dns <;> simp [Segmented, livelinessKey, layout, KeyExpr.join, List.intercalate]

theorem serviceKey_segmented : Segmented (serviceKey service dns) service dns ["available"] := by
  cases dns <;> simp [Segmented, serviceKey, layout, KeyExpr.join, List.intercalate]

theorem claimKey_segmented (claim : String) :
    Segmented (claimKey (scopeKey service dns) claim) service dns ["exporter-claim", claim] := by
  cases dns <;>
    simp [Segmented, claimKey, scopeKey, layout, KeyExpr.join, List.intercalate]

theorem claimWatch_segmented :
    Segmented (claimWatch (scopeKey service dns)) service dns ["exporter-claim", "*"] := by
  cases dns <;>
    simp [Segmented, claimWatch, scopeKey, layout, KeyExpr.join, List.intercalate]

end Layout

/-- A text without the separator of the segments. -/
def Bare (s : String) : Prop := '/' ∉ s.toList

instance (s : String) : Decidable (Bare s) := inferInstanceAs (Decidable (¬ _))

theorem bare_pair {s t : String} (hs : Bare s) (ht : Bare t) : ∀ x ∈ [s, t], Bare x := by
  intro x hx
  simp only [List.mem_cons, List.not_mem_nil, or_false] at hx
  obtain rfl | rfl := hx
  · exact hs
  · exact ht

/-- A segment that is neither cut nor read as the wildcard. -/
structure Literal (s : String) : Prop where
  bare : Bare s
  ne_star : s ≠ "*"

theorem Literal.of_chars {s : String} {ok : Char → Bool} (h : ∀ c ∈ s.toList, ok c = true)
    (hslash : ok '/' = false) (hstar : ok '*' = false) : Literal s := by
  constructor
  · intro hmem
    rw [h _ hmem] at hslash
    cases hslash
  · rintro rfl
    have hmem : '*' ∈ "*".toList := by decide
    rw [h _ hmem] at hstar
    cases hstar

theorem service_literal {name : String} (h : validateServiceName name = .ok ()) : Literal name :=
  .of_chars (validateServiceName_ok h).2 (by decide) (by decide)

theorem key_literal {m : LowercaseMapping} {host key : String} (h : routingKey m host = .ok key) :
    Literal key :=
  .of_chars (routingKey_ok h).2 (by decide) (by decide)

/-- The segments of a key can be read back when none of them holds the separator. -/
theorem layout_plain {service : String} {dns : Option String} {tail : List String}
    (hservice : Bare service) (hdns : ∀ k, dns = some k → Bare k) (htail : ∀ t ∈ tail, Bare t) :
    KeyExpr.Plain '/' (layout service dns tail) := by
  constructor
  · simp [layout]
  · intro segment hsegment
    simp only [layout, List.mem_map, List.cons_append, List.mem_cons, List.mem_append,
      Option.mem_toList] at hsegment
    obtain ⟨text, rfl | hmem | hmem, rfl⟩ := hsegment
    · exact hservice
    · exact hdns text hmem
    · exact htail text hmem

/-- Under tails of one length the segments determine the service and the host. -/
theorem layout_inj {service service' : String} {dns dns' : Option String} {tail tail' : List String}
    (h : layout service dns tail = layout service' dns' tail') (hlen : tail.length = tail'.length) :
    service = service' ∧ dns = dns' ∧ tail = tail' := by
  have hlist := (List.map_injective_iff.mpr fun _ _ => String.toList_injective) h
  have hparts := List.append_inj' (List.cons.inj hlist).2 hlen
  have hdns : dns = dns' := by simpa using congrArg List.head? hparts.1
  exact ⟨(List.cons.inj hlist).1, hdns, hparts.2⟩

/-- Keys with the same segments are the same key. -/
theorem Segmented.eq {key key' service : String} {dns : Option String} {tail : List String}
    (h : Segmented key service dns tail) (h' : Segmented key' service dns tail) : key = key' :=
  String.toList_injective (h.trans h'.symm)

/-- The last segment of a key is read back from it. -/
theorem Segmented.lastSegment {key service word id : String} {dns : Option String}
    (h : Segmented key service dns [word, id]) (hid : Bare id) : lastSegment key = id := by
  obtain ⟨front, hfront⟩ : ∃ front, key.toList = front ++ '/' :: id.toList := by
    cases dns with
    | none =>
        use service.toList ++ '/' :: word.toList
        exact h.trans (by simp [layout, KeyExpr.join, List.intercalate])
    | some host =>
        use service.toList ++ '/' :: host.toList ++ '/' :: word.toList
        exact h.trans (by simp [layout, KeyExpr.join, List.intercalate])
  apply String.toList_injective
  rw [ZenohBridge.lastSegment, String.toList_ofList, hfront]
  exact KeyExpr.lastSegment_append hid front

/-- A service name with an optional host key that `accepts` gives for some host. -/
@[ext] structure Scope (accepts : String → Except HostError String) where
  service : String
  dns : Option String
  service_valid : validateServiceName service = .ok ()
  dns_valid : ∀ k, dns = some k → ∃ host, accepts host = .ok k

/-- A client id, as far as the keys depend on it. -/
@[ext] structure ClientId where
  text : String
  bare : Bare text

section Rendezvous

variable {m : LowercaseMapping}

theorem Scope.dns_literal (A : Scope (routingKey m)) {k : String} (h : A.dns = some k) :
    Literal k := by
  obtain ⟨host, hhost⟩ := A.dns_valid k h
  exact key_literal hhost

theorem KeyKind.word_bare (kind : KeyKind) : Bare kind.word := by
  cases kind <;> simp [Bare, word]

theorem KeyKind.word_injective : Function.Injective KeyKind.word := by
  intro kind kind' h
  cases kind <;> cases kind' <;> first | rfl | simp [word] at h

theorem Scope.client_plain (A : Scope (routingKey m)) (kind : KeyKind) (id : ClientId) :
    KeyExpr.Plain '/' (layout A.service A.dns [kind.word, id.text]) := by
  apply layout_plain (service_literal A.service_valid).bare
  · intro k hk
    exact (A.dns_literal hk).bare
  · exact bare_pair kind.word_bare id.bare

/-- The export side reads back the id that the import side put into its token. -/
theorem observedClient_importKey (A : Scope (routingKey m)) (id : ClientId) :
    observedClient (importKey A.service A.dns .clients id.text) =
      if id.text = "" then none else some id.text := by
  rw [observedClient, (importKey_segmented A.service A.dns .clients id.text).lastSegment id.bare]

/-- A key built from the observed id is the key built from the id itself. -/
theorem map_observedClient (A : Scope (routingKey m)) (id : ClientId) {build : String → String}
    {key : String} (h : build id.text = key) :
    (observedClient (importKey A.service A.dns .clients id.text)).map build =
      if id.text = "" then none else some key := by
  rw [observedClient_importKey]
  by_cases hid : id.text = ""
  · simp [hid]
  · simp [hid, h]

/-- Two client keys agree on their segments only if the service, the host, the kind and the
client are the same. -/
theorem layout_injective {A B : Scope (routingKey m)} {kind kind' : KeyKind} {id id' : ClientId}
    (h : layout A.service A.dns [kind.word, id.text] = layout B.service B.dns [kind'.word, id'.text]) :
    A = B ∧ kind = kind' ∧ id = id' := by
  obtain ⟨hservice, hdns, htail⟩ := layout_inj h rfl
  have hwords := List.cons.inj htail
  refine ⟨Scope.ext hservice hdns, KeyKind.word_injective hwords.1, ?_⟩
  exact ClientId.ext (List.cons.inj hwords.2).1

/-- The import side's keys, however they are formatted, are the export side's keys for the
client that it observes, and no two clients, kinds or scopes share a key. -/
theorem keys_rendezvous (m : LowercaseMapping) :
    (∀ (A : Scope (routingKey m)) (kind : KeyKind) (id : ClientId),
      exchangeKey A.service A.dns kind id.text = importKey A.service A.dns kind id.text ∧
      (observedClient (importKey A.service A.dns .clients id.text)).map
          (clientBridgeKey A.service A.dns kind) =
        (if id.text = "" then none else some (importKey A.service A.dns kind id.text)) ∧
      (observedClient (importKey A.service A.dns .clients id.text)).map
          (runClientKey A.service A.dns kind) =
        (if id.text = "" then none else some (importKey A.service A.dns kind id.text))) ∧
    Function.Injective fun key : Scope (routingKey m) × KeyKind × ClientId =>
      importKey key.1.service key.1.dns key.2.1 key.2.2.text := by
  constructor
  · intro A kind id
    have hkey : partKey A.service (dnsPart A.dns) kind id.text =
        importKey A.service A.dns kind id.text :=
      (partKey_segmented ..).eq (importKey_segmented ..)
    exact ⟨hkey, map_observedClient A id hkey, map_observedClient A id hkey⟩
  · rintro ⟨A, kind, id⟩ ⟨B, kind', id'⟩ h
    have hsegments := (KeyExpr.join_inj (A.client_plain kind id) (B.client_plain kind' id')).mp <|
      calc
        KeyExpr.join '/' (layout A.service A.dns [kind.word, id.text])
          = (importKey A.service A.dns kind id.text).toList := (importKey_segmented ..).symm
        _ = (importKey B.service B.dns kind' id'.text).toList := congrArg String.toList h
        _ = KeyExpr.join '/' (layout B.service B.dns [kind'.word, id'.text]) :=
          importKey_segmented ..
    obtain ⟨rfl, rfl, rfl⟩ := layout_injective hsegments
    rfl

end Rendezvous

section Interference

variable {m : LowercaseMapping}

/-- `Uuid::as_simple`: hexadecimal digits without hyphens. -/
structure SimpleUuid where
  text : String
  simple : text.toList.length = 32 ∧ ∀ c ∈ text.toList, c ∈ "0123456789abcdef".toList

/-- The client ids of the import side: the accept loop mints one for each connection, and
`run_exchange` one for each request of a connection. -/
inductive MintedId where
  | accepted (websocket : Bool) (uuid : SimpleUuid)
  | request (uuid : SimpleUuid) (requestNum : Nat) (fresh : SimpleUuid)

def MintedId.text : MintedId → String
  | .accepted websocket uuid => (if websocket then "wsclient_" else "client_") ++ uuid.text
  | .request uuid requestNum fresh =>
      "client_" ++ uuid.text ++ ":r" ++ requestNum.repr ++ "_" ++ fresh.text

/-- The liveliness token that the import side declares for a client. -/
def clientToken (service : String) (dns : Option String) : MintedId → String
  | .accepted websocket uuid =>
      importKey service dns .clients (MintedId.accepted websocket uuid).text
  | .request uuid requestNum fresh =>
      exchangeKey service dns .clients (MintedId.request uuid requestNum fresh).text

theorem SimpleUuid.bare (uuid : SimpleUuid) : Bare uuid.text := by
  intro hmem
  exact absurd (uuid.simple.2 _ hmem) (by decide)

theorem MintedId.bare (id : MintedId) : Bare id.text := by
  cases id with
  | accepted websocket uuid =>
      have hseed : Bare (if websocket then "wsclient_" else "client_") := by
        cases websocket <;> simp [Bare]
      simp only [Bare, text, String.toList_append, List.mem_append, not_or]
      exact ⟨hseed, uuid.bare⟩
  | request uuid requestNum fresh =>
      have hnum : '/' ∉ requestNum.repr.toList := by
        rw [Nat.toList_repr]
        intro hmem
        exact absurd (Nat.isDigit_of_mem_toDigits (by decide) (by decide) hmem) (by decide)
      simp only [Bare, text, String.toList_append, List.mem_append, not_or]
      exact ⟨⟨⟨⟨⟨by decide, uuid.bare⟩, by decide⟩, hnum⟩, by decide⟩, fresh.bare⟩

theorem clientToken_segmented (service : String) (dns : Option String) (id : MintedId) :
    Segmented (clientToken service dns id) service dns ["clients", id.text] := by
  cases id with
  | accepted websocket uuid => exact importKey_segmented service dns .clients _
  | request uuid requestNum fresh => exact partKey_segmented service dns .clients _

theorem Scope.spec_literal (A : Scope (specHostKey m)) {k : String} (h : A.dns = some k) :
    Literal k := by
  obtain ⟨host, hhost⟩ := A.dns_valid k h
  exact key_literal (specHostKey_ok hhost)

theorem Scope.plain (A : Scope (specHostKey m)) {tail : List String} (h : ∀ t ∈ tail, Bare t) :
    KeyExpr.Plain '/' (layout A.service A.dns tail) := by
  apply layout_plain (service_literal A.service_valid).bare
  · intro k hk
    exact (A.spec_literal hk).bare
  · exact h

/-- Whether a pattern of one scope matches a key of another is decided on the segments. -/
theorem matches_iff {A B : Scope (specHostKey m)} {key pattern : String} {tail wild : List String}
    (hkey : Segmented key A.service A.dns tail) (hpattern : Segmented pattern B.service B.dns wild)
    (htail : ∀ t ∈ tail, Bare t) (hwild : ∀ t ∈ wild, Bare t) :
    KeyMatches pattern key ↔ B.service = A.service ∧
      List.Forall₂ (fun p k => p = "*" ∨ p = k) (B.dns.toList ++ wild) (A.dns.toList ++ tail) := by
  have hstar : ∀ p k : String, (p.toList = ['*'] ∨ p.toList = k.toList) ↔ (p = "*" ∨ p = k) := by
    intro p k
    have hp : p.toList = ['*'] ↔ p = "*" := @String.toList_inj p "*"
    rw [hp, String.toList_inj]
  rw [KeyMatches, hkey, hpattern, KeyExpr.matches_join (B.plain hwild) (A.plain htail)]
  simp only [layout, List.forall₂_map_left_iff, List.forall₂_map_right_iff, hstar,
    List.cons_append, List.forall₂_cons, (service_literal B.service_valid).ne_star, false_or]

/-- A watch over the two-segment tails of a word sees those of its own scope and word. -/
theorem watch_matches_iff {A B : Scope (specHostKey m)} {key pattern word word' x : String}
    (hkey : Segmented key A.service A.dns [word, x])
    (hpattern : Segmented pattern B.service B.dns [word', "*"])
    (hword : Bare word) (hx : Bare x) (hword' : Literal word') :
    KeyMatches pattern key ↔ A = B ∧ word = word' := by
  have htail : ∀ t ∈ [word, x], Bare t := bare_pair hword hx
  have hwild : ∀ t ∈ [word', "*"], Bare t := bare_pair hword'.bare (by decide)
  rw [matches_iff hkey hpattern htail hwild, Scope.ext_iff]
  cases hA : A.dns with
  | none =>
      cases hB : B.dns with
      | none => simp [hword'.ne_star, eq_comm]
      | some k => simp
  | some h =>
      cases hB : B.dns with
      | none => simp
      | some k => simp [hword'.ne_star, (B.spec_literal hB).ne_star, eq_comm, and_assoc]

/-- The same watch sees an availability token only if the watch is the bare one of a
service and the token that of a host named like the watched word. -/
theorem watch_matches_available_iff {A B : Scope (specHostKey m)} {pattern word : String}
    (hpattern : Segmented pattern B.service B.dns [word, "*"]) (hword : Literal word) :
    KeyMatches pattern (serviceKey A.service A.dns) ↔
      A.service = B.service ∧ B.dns = none ∧ A.dns = some word := by
  have htail : ∀ t ∈ ["available"], Bare t := by decide
  have hwild : ∀ t ∈ [word, "*"], Bare t := bare_pair hword.bare (by decide)
  rw [matches_iff (serviceKey_segmented A.service A.dns) hpattern htail hwild]
  cases hA : A.dns with
  | none => cases hB : B.dns <;> simp
  | some h =>
      cases hB : B.dns with
      | none => simp [hword.ne_star, eq_comm]
      | some k => simp

/-- The watches of the exporters of `B` see exactly the tokens meant for them, as far as the
tokens of `A` are concerned. -/
structure Separate (A B : Scope (specHostKey m)) : Prop where
  clients : ∀ id : MintedId,
    KeyMatches (livelinessKey B.service B.dns) (clientToken A.service A.dns id) ↔ A = B
  claims : ∀ claim : ClaimName,
    KeyMatches (claimWatch (scopeKey B.service B.dns))
      (claimKey (scopeKey A.service A.dns) claim.segment) ↔ A = B
  available_client : ¬ KeyMatches (livelinessKey B.service B.dns) (serviceKey A.service A.dns)
  available_claim :
    ¬ KeyMatches (claimWatch (scopeKey B.service B.dns)) (serviceKey A.service A.dns)
  claim_client : ∀ claim : ClaimName,
    ¬ KeyMatches (livelinessKey B.service B.dns)
      (claimKey (scopeKey A.service A.dns) claim.segment)
  client_claim : ∀ id : MintedId,
    ¬ KeyMatches (claimWatch (scopeKey B.service B.dns)) (clientToken A.service A.dns id)

/-- `A` is a host of the service `B`, and its host key is a word of the layout that the
watches of `B` name. -/
def NamesLayoutWord (A B : Scope (specHostKey m)) : Prop :=
  A.service = B.service ∧ B.dns = none ∧ (A.dns = some "clients" ∨ A.dns = some "exporter-claim")

theorem clients_literal : Literal "clients" := ⟨by decide, by decide⟩

theorem exporterClaim_literal : Literal "exporter-claim" := ⟨by decide, by decide⟩

/-- The tokens of two scopes are kept apart unless one is named like the layout. -/
theorem separate_iff_not_namesLayoutWord (A B : Scope (specHostKey m)) :
    Separate A B ↔ ¬ NamesLayoutWord A B := by
  have hclients := clients_literal
  have hclaim := exporterClaim_literal
  have hclientWatch := livelinessKey_segmented B.service B.dns
  have hclaimWatch := claimWatch_segmented B.service B.dns
  constructor
  · rintro h ⟨hservice, hbare, hword | hword⟩
    · exact h.available_client
        ((watch_matches_available_iff hclientWatch hclients).mpr ⟨hservice, hbare, hword⟩)
    · exact h.available_claim
        ((watch_matches_available_iff hclaimWatch hclaim).mpr ⟨hservice, hbare, hword⟩)
  · intro h
    constructor
    · intro id
      have hid := clientToken_segmented A.service A.dns id
      simpa using watch_matches_iff hid hclientWatch hclients.bare id.bare hclients
    · intro claim
      have hkey := claimKey_segmented A.service A.dns claim.segment
      simpa using watch_matches_iff hkey hclaimWatch hclaim.bare claim.slash_not_mem hclaim
    · rw [watch_matches_available_iff hclientWatch hclients]
      rintro ⟨hservice, hbare, hword⟩
      exact h ⟨hservice, hbare, Or.inl hword⟩
    · rw [watch_matches_available_iff hclaimWatch hclaim]
      rintro ⟨hservice, hbare, hword⟩
      exact h ⟨hservice, hbare, Or.inr hword⟩
    · intro claim
      have hkey := claimKey_segmented A.service A.dns claim.segment
      simp [watch_matches_iff hkey hclientWatch hclaim.bare claim.slash_not_mem hclients]
    · intro id
      have hid := clientToken_segmented A.service A.dns id
      simp [watch_matches_iff hid hclaimWatch hclients.bare id.bare hclaim]

/-- The host `clients` of a service announces itself as a client of the service's default
backend. -/
theorem separate_fails_for_host_clients :
    ∃ A B : Scope (specHostKey .narrow),
      A.service = "web" ∧ A.dns = some "clients" ∧ B.service = "web" ∧ B.dns = none ∧
      KeyMatches (livelinessKey B.service B.dns) (serviceKey A.service A.dns) ∧
      ¬ Separate A B := by
  have hservice : validateServiceName "web" = .ok () := by decide +kernel
  have hhost : specHostKey .narrow "clients" = .ok "clients" := by decide +kernel
  let A : Scope (specHostKey .narrow) :=
    ⟨"web", some "clients", hservice, by rintro k ⟨⟩; exact ⟨"clients", hhost⟩⟩
  let B : Scope (specHostKey .narrow) := ⟨"web", none, hservice, by rintro k ⟨⟩⟩
  have hmatch : KeyMatches (livelinessKey B.service B.dns) (serviceKey A.service A.dns) :=
    (watch_matches_available_iff (livelinessKey_segmented B.service B.dns)
      clients_literal).mpr ⟨rfl, rfl, rfl⟩
  exact ⟨A, B, rfl, rfl, rfl, rfl, hmatch, fun h => h.available_client hmatch⟩

end Interference

end ZenohBridge
