import ZenohBridge.Args
import ZenohBridge.ExchangeEnds
import ZenohBridge.HeadParser
import ZenohBridge.RequestMessages

/-!
# The response cap

`run_exchange` counts the bytes that it writes to the client and compares them with
`max_response_size` before it writes a body chunk or trailers. A response head is written
without the comparison, and interim heads may come before the final one. So the cap is kept
exactly as long as every head fits what is left of it.
-/

namespace ZenohBridge

open Execution

/-- The cap is kept by every exchange but one that has switched protocols, which can only be
that of the current request. -/
def Control.CapKept (cfg : MultirouteConfig) (c : Control) : Prop :=
  ∀ n, ¬(n = c.requestNum ∧ c.switched = true) →
    (bytesFor n c.written).length ≤ cfg.maxResponseSize

/-- A response head that is now written fits what is left of the cap. A write that fails is not
counted. -/
def HeadFits {P : HttpProxyParser Octet} (cfg : MultirouteConfig) (s : Multiroute P)
    (a : MultirouteAction) : Prop :=
  ∀ carry head rest, s.phase = .events carry → s.events = .responseHead head :: rest →
    a = .write true → s.exchange.bytesWritten + head.raw.length ≤ cfg.maxResponseSize

namespace Multiroute

variable {P : HttpProxyParser Octet} {cfg : MultirouteConfig} {s s' : Multiroute P}
  {a : MultirouteAction}

/-- What the exchange writes is a head, or fits the cap. -/
theorem relayed_fits {x : Exchange} {e : HttpEvent Octet} {raw : Octets}
    (h : Multiroute.relayed cfg x e = some raw) :
    (∃ head, e = .responseHead head ∧ raw = head.raw) ∨
      x.bytesWritten + raw.length ≤ cfg.maxResponseSize := by
  cases e with
  | responseHead head => exact .inl ⟨head, rfl, (Option.some.inj h).symm⟩
  | body dir raw' | trailers dir raw' =>
      cases dir with
      | initiator => cases h
      | responder =>
          simp only [Multiroute.relayed, overshoots, decide_eq_true_eq] at h
          split at h
          · cases h
          · rename_i hfits
            obtain rfl := Option.some.inj h
            exact .inr (Nat.le_of_not_lt hfits)
  | requestHead head => cases h
  | endMessage dir => cases h
  | switchProtocols => cases h

/-- An event that needs no await writes nothing. -/
theorem handleEvent_written (cfg : MultirouteConfig) (carry : List (HttpEvent Octet))
    (e : HttpEvent Octet) (rest : List (HttpEvent Octet)) (s : Multiroute P) :
    (s.handleEvent cfg carry e rest).log.written = s.log.written := by
  unfold handleEvent
  split
  · rfl
  split
  · rfl
  split
  · rfl
  split
  · rfl
  · rfl

/-- In the event loop the written bytes grow by what the front event relays. -/
theorem relayed_of_grows {carry rest : List (HttpEvent Octet)} {e : HttpEvent Octet} {raw : Octets}
    (phase : s.phase = .events carry) (events : s.events = e :: rest)
    (h : s.step cfg a = some s')
    (grows : s'.log.written = s.log.written ++ [(s.requestNum, raw)]) :
    Multiroute.relayed cfg s.exchange e = some raw ∧ a = .write true := by
  have hnot : s.log.written ≠ s.log.written ++ [(s.requestNum, raw)] := by simp
  simp only [step, phase, stepEvents, events] at h
  split at h
  · obtain rfl := Option.some.inj h
    exact absurd grows hnot
  · obtain rfl := Option.some.inj h
    exact absurd grows hnot
  · rename_i raw' _ hrelay
    obtain rfl := Option.some.inj h
    have hraw : raw' = raw := by simpa [wrote] using grows
    exact ⟨hraw ▸ hrelay, rfl⟩
  · obtain rfl := Option.some.inj h
    exact absurd grows hnot
  · obtain rfl := Option.some.inj h
    rw [handleEvent_written] at grows
    exact absurd grows hnot
  · cases h

/-- What the counter says about the written bytes. -/
structure CapInv (cfg : MultirouteConfig) (s : Multiroute P) : Prop where
  kept : s.control.CapKept cfg
  numbered : ∀ w ∈ s.control.written, w.1 ≤ s.control.requestNum
  idle : s.phase.kind = .between ∨ s.phase.kind = .dispatch → s.control.switched = false
  dispatch : s.phase.kind = .dispatch → bytesFor s.control.requestNum s.control.written = []
  running : s.phase.kind = .running → s.control.switched = false ∧
    s.control.bytesWritten = (bytesFor s.control.requestNum s.control.written).length
  splicing : s.phase.kind = .splicing → s.control.switched = true

theorem capInv_init (cfg : MultirouteConfig) (P : HttpProxyParser Octet) :
    CapInv cfg (init P) where
  kept := fun _ _ => Nat.zero_le _
  numbered := fun w hw => by cases hw
  idle := fun _ => rfl
  dispatch := fun h => by cases h
  running := fun h => by cases h
  splicing := fun h => by cases h

/-- A step that keeps the part of the handler and the control. -/
theorem CapInv.same (h : CapInv cfg s) (hkind : s'.phase.kind = s.phase.kind)
    (hc : s'.control = s.control) : CapInv cfg s' := by
  constructor
  · rw [hc]
    exact h.kept
  · rw [hc]
    exact h.numbered
  · rw [hc, hkind]
    exact h.idle
  · rw [hc, hkind]
    exact h.dispatch
  · rw [hc, hkind]
    exact h.running
  · rw [hc, hkind]
    exact h.splicing

/-- Between the exchanges nothing is known but the flag. -/
theorem CapInv.of_between (hkind : s'.phase.kind = .between) (kept : s'.control.CapKept cfg)
    (numbered : ∀ w ∈ s'.control.written, w.1 ≤ s'.control.requestNum)
    (switched : s'.control.switched = false) : CapInv cfg s' := by
  refine ⟨kept, numbered, fun _ => switched, ?_, ?_, ?_⟩ <;> simp [hkind]

theorem CapInv.of_running (hkind : s'.phase.kind = .running) (kept : s'.control.CapKept cfg)
    (numbered : ∀ w ∈ s'.control.written, w.1 ≤ s'.control.requestNum)
    (switched : s'.control.switched = false)
    (counter : s'.control.bytesWritten =
      (bytesFor s'.control.requestNum s'.control.written).length) : CapInv cfg s' := by
  refine ⟨kept, numbered, ?_, ?_, fun _ => ⟨switched, counter⟩, ?_⟩ <;> simp [hkind]

/-- After the loop only the cap itself matters. -/
theorem CapInv.of_finished (hkind : s'.phase.kind = .finished) (kept : s'.control.CapKept cfg)
    (numbered : ∀ w ∈ s'.control.written, w.1 ≤ s'.control.requestNum) : CapInv cfg s' := by
  refine ⟨kept, numbered, ?_, ?_, ?_, ?_⟩ <;> simp [hkind]

theorem CapInv.of_splicing (hkind : s'.phase.kind = .splicing) (kept : s'.control.CapKept cfg)
    (numbered : ∀ w ∈ s'.control.written, w.1 ≤ s'.control.requestNum)
    (switched : s'.control.switched = true) : CapInv cfg s' := by
  refine ⟨kept, numbered, ?_, ?_, ?_, fun _ => switched⟩ <;> simp [hkind]

/-- Bytes written under another number do not count. -/
theorem bytesFor_append_other {n k : Nat} (hne : n ≠ k) (written : List (Nat × Octets))
    (data : List Octets) :
    bytesFor n (written ++ data.map fun d => (k, d)) = bytesFor n written := by
  rw [bytesFor_append]
  have hnone : bytesFor n (data.map fun d => (k, d)) = [] := by
    simp [bytesFor, hne.symm]
  rw [hnone, List.append_nil]

/-- The bytes of a front event that are written. -/
theorem CapInv.relay (h : CapInv cfg s) {carry rest : List (HttpEvent Octet)}
    {e : HttpEvent Octet} {raw : Octets} (phase : s.phase = .events carry)
    (events : s.events = e :: rest) (hs : s.step cfg a = some s')
    (after : s'.phase = .events carry)
    (change : s'.control = { s.control with
      keepAlive := (noteClose s.exchange e).keepAlive
      bytesWritten := s.exchange.bytesWritten + raw.length
      written := s.log.written ++ [(s.requestNum, raw)] })
    (fits : HeadFits cfg s a) : CapInv cfg s' := by
  have hkind : s.phase.kind = .running := by rw [phase]; rfl
  obtain ⟨hswitched, hcounter⟩ := h.running hkind
  obtain ⟨hrelay, rfl⟩ := relayed_of_grows phase events hs (congrArg Control.written change)
  have hcap : s.exchange.bytesWritten + raw.length ≤ cfg.maxResponseSize := by
    obtain ⟨head, rfl, rfl⟩ | hfits := relayed_fits hrelay
    · exact fits carry head rest phase events rfl
    · exact hfits
  have hlength : (bytesFor s.requestNum (s.log.written ++ [(s.requestNum, raw)])).length =
      s.exchange.bytesWritten + raw.length := by
    have hcount : s.exchange.bytesWritten = (bytesFor s.requestNum s.log.written).length := hcounter
    rw [bytesFor_append, List.length_append, hcount]
    simp [bytesFor]
  apply CapInv.of_running (by rw [after]; rfl)
  · rw [change]
    intro n hn
    by_cases hcur : n = s.requestNum
    · subst hcur
      exact hlength ▸ hcap
    · have hold := h.kept n fun hboth => hcur hboth.1
      have hsame : bytesFor n (s.log.written ++ [(s.requestNum, raw)]) = bytesFor n s.log.written :=
        bytesFor_append_other hcur s.log.written [raw]
      exact hsame ▸ hold
  · rw [change]
    have hnew : [(s.requestNum, raw)] = [raw].map fun d => (s.requestNum, d) := rfl
    rw [hnew]
    exact mem_numbered h.numbered
  · rw [change]
    exact hswitched
  · rw [change]
    exact hlength.symm

/-- A step whose written head fits the cap keeps the invariant. -/
theorem CapInv.step (h : CapInv cfg s) (fits : HeadFits cfg s a) (hs : s.step cfg a = some s') :
    CapInv cfg s' := by
  cases step_course hs with
  | waits before after same => exact h.same (after.trans before.symm) same
  | leaves before after outcome answers change =>
      apply CapInv.of_finished (by rw [after]; rfl)
      · rw [change]
        exact h.kept
      · rw [change]
        exact h.numbered
  | routes head before after change =>
      have hidle := h.idle (.inl (by rw [before]; rfl))
      have hfresh : bytesFor (s.requestNum + 1) s.log.written = [] := by
        rw [bytesFor, List.flatMap_eq_nil_iff]
        intro w hw
        have hle : w.1 ≤ s.requestNum := h.numbered w hw
        exact if_neg (by omega)
      constructor
      · rw [change]
        intro n _
        exact h.kept n fun hboth => by simp [hidle] at hboth
      · rw [change]
        intro w hw
        exact Nat.le_succ_of_le (h.numbered w hw)
      · rw [change]
        exact fun _ => hidle
      · rw [change]
        exact fun _ => hfresh
      · simp [after, MultiroutePhase.kind]
      · simp [after, MultiroutePhase.kind]
  | refuses head dns before action after change =>
      apply CapInv.of_between (by rw [after]; rfl)
      · rw [change]
        exact h.kept
      · rw [change]
        exact h.numbered
      · rw [change]
        exact h.idle (.inr (by rw [before]; rfl))
  | prepares before after same => exact h.same (after.trans before.symm) same
  | starts head dns before after change =>
      have hkind : s.phase.kind = .dispatch := by rw [before]; rfl
      have hidle := h.idle (.inr hkind)
      apply CapInv.of_running (by rw [after]; rfl)
      · rw [change]
        intro n _
        exact h.kept n fun hboth => by simp [hidle] at hboth
      · rw [change]
        exact h.numbered
      · rw [change]
      · rw [change]
        exact (congrArg List.length (h.dispatch hkind)).symm
  | loops before after quiet same => exact h.same (after.trans before.symm) same
  | relays carry e rest raw before events side notEnd after change =>
      exact h.relay before events hs after change fits
  | completes carry rest before events after change =>
      apply CapInv.of_finished (by rw [after]; rfl)
      · rw [change]
        exact h.kept
      · rw [change]
        exact h.numbered
  | degrades ending answers before after bad silent change =>
      apply CapInv.of_finished (by rw [after]; rfl)
      · rw [change]
        exact h.kept
      · rw [change]
        exact h.numbered
  | switches before after change =>
      have hrunning := h.running before
      apply CapInv.of_splicing after
      · rw [change]
        intro n _
        exact h.kept n fun hboth => by simp [hrunning.1] at hboth
      · rw [change]
        exact h.numbered
      · rw [change]
  | breaks before after change =>
      apply CapInv.of_finished (by rw [after]; rfl)
      · rw [change]
        exact h.kept
      · rw [change]
        exact h.numbered
  | splices before after data change =>
      have hswitched := h.splicing before
      have hkept : s'.control.CapKept cfg := by
        rw [change]
        intro n hn
        have hne : n ≠ s.requestNum := fun hcur => hn ⟨hcur, hswitched⟩
        have hold := h.kept n fun hboth => hne hboth.1
        have hsame := bytesFor_append_other hne s.log.written data
        exact hsame ▸ hold
      have hnumbered : ∀ w ∈ s'.control.written, w.1 ≤ s'.control.requestNum := by
        rw [change]
        exact mem_numbered h.numbered
      obtain after | after := after
      · apply CapInv.of_splicing after hkept hnumbered
        rw [change]
        exact hswitched
      · exact CapInv.of_finished (by rw [after]; rfl) hkept hnumbered
  | returns before back =>
      have hkept : s'.control.CapKept cfg := by
        rw [back.change]
        exact h.kept
      have hnumbered : ∀ w ∈ s'.control.written, w.1 ≤ s'.control.requestNum := by
        rw [back.change]
        exact h.numbered
      obtain after | ⟨after, hswitched, -⟩ := back.after
      · exact CapInv.of_finished (by rw [after]; rfl) hkept hnumbered
      · apply CapInv.of_between (by rw [after]; rfl) hkept hnumbered
        rw [back.change]
        exact hswitched

/-- A head that does not fit the cap overshoots it. -/
theorem CapInv.overshot (h : CapInv cfg s) (hbad : ¬HeadFits cfg s a)
    (hs : s.step cfg a = some s') : ¬s'.control.CapKept cfg := by
  simp only [HeadFits, not_forall] at hbad
  obtain ⟨carry, head, rest, phase, events, rfl, hover⟩ := hbad
  obtain ⟨hswitched, hcounter⟩ := h.running (by rw [phase]; rfl)
  simp only [Multiroute.step, phase, stepEvents, events, forwarded, Multiroute.relayed] at hs
  obtain rfl := Option.some.inj hs
  intro hkept
  have hcur : ¬(s.requestNum = s.requestNum ∧
      (noteClose s.exchange (.responseHead head)).switched = true) := by
    rintro ⟨-, hboth⟩
    rw [noteClose_eq] at hboth
    exact absurd (hswitched.symm.trans hboth) (by decide)
  have hcap : (bytesFor s.requestNum (s.log.written ++ [(s.requestNum, head.raw)])).length ≤
      cfg.maxResponseSize := hkept s.requestNum hcur
  have hcount : s.exchange.bytesWritten = (bytesFor s.requestNum s.log.written).length := hcounter
  rw [bytesFor_append, List.length_append, ← hcount] at hcap
  simp only [bytesFor, List.flatMap_cons, List.flatMap_nil, if_true, List.append_nil] at hcap
  exact hover hcap

/-- In every run of a connection, for every parser and every sequence of events, the bytes
written in each exchange that did not switch stay within the cap exactly when every response
head that is written fits what is left of it. -/
theorem capKept_iff_headFits (cfg : MultirouteConfig) (P : HttpProxyParser Octet)
    (schedule : List MultirouteAction) :
    Always (step cfg) (fun s => s.control.CapKept cfg) (init P) schedule ↔
      Along (step cfg) (HeadFits cfg) (init P) schedule :=
  always_iff_along (fun _ _ => True) (fun _ h => h.kept)
    (fun _ _ _ h _ hok hs => h.step hok hs)
    (fun _ _ _ h _ hbad hs => h.overshot hbad hs)
    (capInv_init cfg P) (along_of_labels (fun _ _ => trivial) _)

/-- What the checks do ensure: for accepted arguments a head within `max_header_size` fits as
long as nothing was written before it. -/
theorem headFits_of_first {m : LowercaseMapping} {Addr : Type} {parseAddr : String → Option Addr}
    {tlsTermination : Bool} {logOptions : Except String Unit} {args : Args}
    (hvalid : args.validate m parseAddr tlsTermination logOptions = .ok ())
    (hheads : ∀ carry head rest, s.phase = .events carry → s.events = .responseHead head :: rest →
      head.raw.length ≤ args.maxHeaderSize ∧ s.exchange.bytesWritten = 0) :
    HeadFits args.multirouteConfig s a := by
  intro carry head rest phase events _
  obtain ⟨hlength, hzero⟩ := hheads carry head rest phase events
  calc
    s.exchange.bytesWritten + head.raw.length = head.raw.length := by rw [hzero, Nat.zero_add]
    _ ≤ args.maxHeaderSize := hlength
    _ ≤ args.maxResponseSize := (Args.validate_minima hvalid).maxResponseSize

/-- Without interim heads the cap is kept in every run. -/
theorem capKept_of_single_heads {m : LowercaseMapping} {Addr : Type}
    {parseAddr : String → Option Addr} {tlsTermination : Bool} {logOptions : Except String Unit}
    {args : Args} (hvalid : args.validate m parseAddr tlsTermination logOptions = .ok ())
    (P : HttpProxyParser Octet) {schedule : List MultirouteAction}
    (hheads : Along (step args.multirouteConfig) (fun s _ => ∀ carry head rest,
      s.phase = .events carry → s.events = .responseHead head :: rest →
      head.raw.length ≤ args.maxHeaderSize ∧ s.exchange.bytesWritten = 0) (init P) schedule) :
    Always (step args.multirouteConfig) (fun s => s.control.CapKept args.multirouteConfig)
      (init P) schedule := by
  refine always_of_along (I := CapInv args.multirouteConfig) ?_ (capInv_init _ P) hheads
    |>.mono fun _ h => h.kept
  intro s a s' h hfirst hs
  exact h.step (headFits_of_first hvalid hfirst) hs

/-- The bytes of a head event. -/
def headLength : HttpEvent Octet → Nat
  | .requestHead head => head.raw.length
  | .responseHead head => head.raw.length
  | _ => 0

/-- Every head event of the parser is at most `limit` bytes. -/
def HeadsWithin (limit : Nat) (s : Multiroute P) : Prop :=
  ∀ e ∈ s.log.drained, headLength e ≤ limit

instance (limit : Nat) (s : Multiroute P) : Decidable (HeadsWithin limit s) :=
  inferInstanceAs (Decidable (∀ e ∈ s.log.drained, headLength e ≤ limit))

/-- A response head of 600 bytes. -/
def longHead (status : String) : List UInt8 :=
  wire "HTTP/1.1 " ++ wire status ++ wire " x\r\nL: " ++ List.replicate 577 120 ++ wire "\r\n\r\n"

/-- The smallest sizes that the checks accept. -/
def smallArgs : Args :=
  { Args.default with
    listen := ["api/0.0.0.0:8080,route=request"]
    bufferSize := 1024
    maxHeaderSize := 1024
    maxResponseSize := 1024 }

theorem smallArgs_valid : smallArgs.validate .narrow
    (fun s => if s = "0.0.0.0:8080" then some () else none) false (.ok ()) = .ok () := by rfl

/-- A request, an interim head and a final head of 600 bytes each. -/
def interimSchedule : List MultirouteAction :=
  [.tick, .read (wire "GET / HTTP/1.1\r\nHost:a\r\n\r\n"), .tick, .route (.ok "a") .host,
    .setupDone true, .publish true, .tick, .tick, .tick,
    .sample (longHead "103" ++ longHead "204"), .tick, .write true, .write true]

/-- The two heads have 1200 bytes together, and the cap is 1024. -/
theorem capKept_fails_on_interim_head :
    ¬∀ (m : LowercaseMapping) (Addr : Type) (parseAddr : String → Option Addr)
      (tlsTermination : Bool) (logOptions : Except String Unit) (args : Args)
      (P : HttpProxyParser Octet) (schedule : List MultirouteAction),
      args.validate m parseAddr tlsTermination logOptions = .ok () →
      Always (step args.multirouteConfig) (HeadsWithin args.maxHeaderSize) (init P) schedule →
      Always (step args.multirouteConfig) (fun s => s.control.CapKept args.multirouteConfig)
        (init P) schedule := by
  intro hall
  have hkept := hall .narrow Unit _ false (.ok ()) smallArgs (headParser 4096) interimSchedule
    smallArgs_valid (by decide +kernel)
  have hrun : (exec (step smallArgs.multirouteConfig) (init (headParser 4096))
      interimSchedule).map (fun s => (s.exchange.switched, (bytesFor 1 s.log.written).length)) =
        some (false, 1200) := by
    decide +kernel
  obtain ⟨t, ht, hlast⟩ := Option.map_eq_some_iff.mp hrun
  obtain ⟨hswitched, hlength⟩ := Prod.mk.inj hlast
  have hcap : (bytesFor 1 t.log.written).length ≤ 1024 := by
    apply hkept.last ht
    rintro ⟨-, hboth⟩
    exact absurd (hswitched.symm.trans hboth) (by decide)
  omega

end Multiroute

end ZenohBridge
