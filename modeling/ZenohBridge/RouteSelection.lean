import ZenohBridge.KeySpace
import ZenohBridge.Multiroute
import ZenohBridge.Spec

/-!
# Route selection

A live backend announces itself by the availability token of its scope. `resolve_backend`
asks for the token of the requested host and for that of the service, both at once, and
decides for the host, for the service's default backend or for nobody.

A probe can be answered, fail, or run into its timeout, which counts as "not alive". The
loop over the two probes sees them in the order in which they complete.
-/

namespace ZenohBridge

/-- How the query behind a liveliness probe ends. -/
inductive ProbeEnd where
  | completed
  | failed
  | timedOut
  deriving DecidableEq, Repr

/-- The failure that `token_alive` reports. -/
inductive ResolveError where
  | queryFailed
  deriving DecidableEq, Repr

/-- `token_alive`: a probe that is not answered in time says "not alive". -/
def tokenAlive (announced : List String) (key : String) : ProbeEnd → Except ResolveError Bool
  | .completed => .ok (decide (key ∈ announced))
  | .failed => .error .queryFailed
  | .timedOut => .ok false

/-- Which of the two concurrent probes completes first. -/
inductive CompletionOrder where
  | hostFirst
  | defaultFirst
  deriving DecidableEq, Repr

/-- The `select!` loop: the answer of the host probe, and that of the default probe if the
loop saw it first. -/
def probeBoth (order : CompletionOrder) (host default : Except ResolveError Bool) :
    Except ResolveError (Bool × Option Bool) :=
  match order with
  | .hostFirst => do
      let h ← host
      return (h, none)
  | .defaultFirst => do
      let d ← default
      let h ← host
      return (h, some d)

/-- `resolve_backend`. -/
def resolveBackend (announced : List String) (service : String) (dns : Option String)
    (hostEnd defaultEnd : ProbeEnd) (order : CompletionOrder) : Except ResolveError BackendRoute :=
  let default := tokenAlive announced (service ++ "/available") defaultEnd
  match dns with
  | none => do
      let alive ← default
      return if alive then .default else .unavailable
  | some dns => do
      let host := tokenAlive announced (service ++ "/" ++ dns ++ "/available") hostEnd
      let (hostAlive, defaultDone) ← probeBoth order host default
      if hostAlive then return .host
      else
        let alive ← match defaultDone with
          | some d => pure d
          | none => default
        return if alive then .default else .unavailable

section Answer

variable {announced : List String} {service dns : String}

/-- A live host is the answer, unless the default probe was seen to fail before. -/
theorem resolveBackend_host (h : service ++ "/" ++ dns ++ "/available" ∈ announced)
    (defaultEnd : ProbeEnd) (order : CompletionOrder) :
    resolveBackend announced service (some dns) .completed defaultEnd order =
      if defaultEnd = .failed ∧ order = .defaultFirst then .error .queryFailed else .ok .host := by
  cases order with
  | hostFirst => simp [resolveBackend, probeBoth, tokenAlive, h, bind, Except.bind, pure, Except.pure]
  | defaultFirst =>
      cases defaultEnd <;>
        simp [resolveBackend, probeBoth, tokenAlive, h, bind, Except.bind, pure, Except.pure]

/-- Without the host the default probe decides, in either order. -/
theorem resolveBackend_default (h : service ++ "/" ++ dns ++ "/available" ∉ announced)
    (order : CompletionOrder) :
    resolveBackend announced service (some dns) .completed .completed order =
      .ok (if service ++ "/available" ∈ announced then .default else .unavailable) := by
  cases order <;>
    simp [resolveBackend, probeBoth, tokenAlive, h, bind, Except.bind, pure, Except.pure]

end Answer

section Selection

variable {Addr : Type} {m : LowercaseMapping} {parseAddr : String → Option Addr}

/-- The availability tokens of the live backends. -/
def announcedKeys (live : List (BackendSpec Addr)) : List String :=
  live.map fun b => serviceKey b.service b.host

/-- A live backend serves this scope. -/
def Serves (live : List (BackendSpec Addr)) (service : String) (dns : Option String) : Prop :=
  ∃ b ∈ live, b.service = service ∧ b.host = dns

instance (live : List (BackendSpec Addr)) (service : String) (dns : Option String) :
    Decidable (Serves live service dns) :=
  inferInstanceAs (Decidable (∃ b ∈ live, _))

/-- Where the live backends say that a host belongs. -/
def announcedRoute (live : List (BackendSpec Addr)) (service key : String) : BackendRoute :=
  if Serves live service (some key) then .host
  else if Serves live service none then .default
  else .unavailable

/-- Every live backend comes from an accepted spec. -/
def Accepted (m : LowercaseMapping) (parseAddr : String → Option Addr)
    (live : List (BackendSpec Addr)) : Prop :=
  ∀ b ∈ live, ∃ spec, BackendSpec.fromStr m parseAddr spec = .ok b

theorem available_plain {service : String} {dns : Option String} (hservice : Literal service)
    (hdns : ∀ k, dns = some k → Literal k) :
    KeyExpr.Plain '/' (layout service dns ["available"]) := by
  apply layout_plain hservice.bare
  · intro k hk
    exact (hdns k hk).bare
  · decide

/-- A token is announced exactly when a live backend serves its scope. -/
theorem mem_announcedKeys_iff {live : List (BackendSpec Addr)} (hlive : Accepted m parseAddr live)
    {service : String} {dns : Option String} (hservice : Literal service)
    (hdns : ∀ k, dns = some k → Literal k) :
    serviceKey service dns ∈ announcedKeys live ↔ Serves live service dns := by
  rw [announcedKeys, List.mem_map]
  constructor
  · rintro ⟨b, hb, hkey⟩
    obtain ⟨spec, hspec⟩ := hlive b hb
    obtain ⟨hname, hhost⟩ := BackendSpec.fromStr_ok hspec
    have hplain : KeyExpr.Plain '/' (layout b.service b.host ["available"]) := by
      apply available_plain (service_literal hname)
      intro k hk
      obtain ⟨text, htext⟩ := hhost k hk
      exact key_literal (specHostKey_ok htext)
    have hsegments := (KeyExpr.join_inj hplain (available_plain hservice hdns)).mp <|
      calc
        KeyExpr.join '/' (layout b.service b.host ["available"])
          = (serviceKey b.service b.host).toList := (serviceKey_segmented ..).symm
        _ = (serviceKey service dns).toList := congrArg String.toList hkey
        _ = KeyExpr.join '/' (layout service dns ["available"]) := serviceKey_segmented ..
    obtain ⟨heq, heq', -⟩ := layout_inj hsegments rfl
    exact ⟨b, hb, heq, heq'⟩
  · rintro ⟨b, hb, rfl, rfl⟩
    exact ⟨b, hb, rfl⟩

/-- The answer is what the live backends announce, and a live host is found whatever comes
of the default probe. -/
def RouteFollows (live : List (BackendSpec Addr)) (service key : String) (defaultEnd : ProbeEnd)
    (order : CompletionOrder) : Prop :=
  let answer :=
    resolveBackend (announcedKeys live) service (some key) .completed defaultEnd order
  (defaultEnd = .completed → answer = .ok (announcedRoute live service key)) ∧
    (Serves live service (some key) → answer = .ok .host)

/-- The default probe fails while the loop still waits for the answer about a live host. -/
def FailsBeforeHost (live : List (BackendSpec Addr)) (service key : String)
    (defaultEnd : ProbeEnd) (order : CompletionOrder) : Prop :=
  Serves live service (some key) ∧ defaultEnd = .failed ∧ order = .defaultFirst

/-- The route follows the announced backends unless the default probe fails first. -/
theorem routeFollows_iff {live : List (BackendSpec Addr)} (hlive : Accepted m parseAddr live)
    {service host key : String} (hservice : validateServiceName service = .ok ())
    (hkey : routingKey m host = .ok key) (defaultEnd : ProbeEnd) (order : CompletionOrder) :
    RouteFollows live service key defaultEnd order ↔
      ¬ FailsBeforeHost live service key defaultEnd order := by
  have hhost : service ++ "/" ++ key ++ "/available" ∈ announcedKeys live ↔
      Serves live service (some key) := by
    change serviceKey service (some key) ∈ _ ↔ _
    apply mem_announcedKeys_iff hlive (service_literal hservice)
    rintro k ⟨⟩
    exact key_literal hkey
  have hdefault : service ++ "/available" ∈ announcedKeys live ↔ Serves live service none := by
    change serviceKey service none ∈ _ ↔ _
    apply mem_announcedKeys_iff hlive (service_literal hservice)
    rintro k ⟨⟩
  by_cases hserves : Serves live service (some key)
  · simp only [RouteFollows, FailsBeforeHost, resolveBackend_host (hhost.mpr hserves),
      announcedRoute, hserves, if_true, true_and, forall_const]
    split <;> simp_all
  · have hdead := fun h => hserves (hhost.mp h)
    have hroute : RouteFollows live service key defaultEnd order := by
      constructor
      · rintro rfl
        rw [resolveBackend_default hdead]
        simp only [announcedRoute, if_neg hserves, hdefault]
      · exact fun h => absurd h hserves
    exact iff_of_true hroute fun h => hserves h.1

/-- The backend of `--backend 'web@api.local/10.0.0.1:80'`, with its address kept as text. -/
def apiBackend : BackendSpec String := ⟨"web", some "api.local", .tcp "10.0.0.1:80"⟩

theorem apiBackend_accepted : Accepted .narrow some [apiBackend] := by
  intro b hb
  rw [List.mem_singleton] at hb
  subst hb
  use "web@API.local/10.0.0.1:80"
  rfl

/-- A browser's `Host` finds the live host, although the default probe fails after it. -/
theorem routeFollows_when_default_fails_late :
    routingKey .narrow "api.local:8080" = .ok "api.local" ∧
      RouteFollows [apiBackend] "web" "api.local" .failed .hostFirst := by
  have hkey : routingKey .narrow "api.local:8080" = .ok "api.local" := by decide +kernel
  have hservice : validateServiceName "web" = .ok () := by decide +kernel
  refine ⟨hkey, (routeFollows_iff apiBackend_accepted hservice hkey .failed .hostFirst).mpr ?_⟩
  rintro ⟨-, -, ⟨⟩⟩

/-- The default probe of a service without a default backend fails first: the live host is
not chosen, the connection is refused. -/
theorem routeFollows_fails_when_default_fails_first :
    Serves [apiBackend] "web" (some "api.local") ∧
      resolveBackend (announcedKeys [apiBackend]) "web" (some "api.local") .completed .failed
        .defaultFirst = .error .queryFailed ∧
      ¬ RouteFollows [apiBackend] "web" "api.local" .failed .defaultFirst := by
  have hserves : Serves [apiBackend] "web" (some "api.local") := by decide +kernel
  have herror : resolveBackend (announcedKeys [apiBackend]) "web" (some "api.local") .completed
      .failed .defaultFirst = .error .queryFailed := rfl
  refine ⟨hserves, herror, fun h => ?_⟩
  have hhost := h.2 hserves
  rw [herror] at hhost
  cases hhost

end Selection

end ZenohBridge
