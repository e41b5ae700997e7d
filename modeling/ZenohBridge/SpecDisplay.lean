import ZenohBridge.HostKeys
import ZenohBridge.Spec

/-!
# Displayed specs

Specs are displayed in error messages that users copy. What `Display` writes for a parsed spec
parses back to the same spec, although the separators may occur in certificate paths and
WebSocket URLs.

The text of a socket address is a parameter like its parser.
-/

namespace ZenohBridge

section Separators

variable {sep : Char} {s a b : String}

theorem splitChar_of_notMem (h : sep ∉ s.toList) : splitChar sep s = [s] := by
  simp [splitChar, List.splitOn_eq_singleton h]

theorem splitChar_append (hs : s.toList = a.toList ++ sep :: b.toList) (ha : sep ∉ a.toList) :
    splitChar sep s = a :: splitChar sep b := by
  simp [splitChar, hs, List.splitOn_append_cons_self_of_not_mem ha]

theorem notMem_of_mem_splitOn {text part : List Char} (h : part ∈ text.splitOn sep) :
    sep ∉ part := by
  induction text generalizing part with
  | nil => simp_all
  | cons c rest ih =>
      rw [List.splitOn_cons_eq_if_modifyHead] at h
      split at h
      · obtain rfl | h := List.mem_cons.mp h
        · simp
        · exact ih h
      · rename_i hne
        have hc : sep ≠ c := by
          rintro rfl
          simp at hne
        cases hparts : rest.splitOn sep with
        | nil => exact absurd hparts (List.splitOn_ne_nil sep rest)
        | cons first more =>
            rw [hparts] at h ih
            obtain rfl | h := List.mem_cons.mp h
            · simp [hc, ih List.mem_cons_self]
            · exact ih (List.mem_cons_of_mem _ h)

/-- No part of a split text has the separator. -/
theorem notMem_of_mem_splitChar (h : a ∈ splitChar sep s) : sep ∉ a.toList := by
  obtain ⟨part, hpart, rfl⟩ := List.mem_map.mp h
  rw [String.toList_ofList]
  exact notMem_of_mem_splitOn hpart

theorem notMem_service {service : String} (h : validateServiceName service = .ok ()) {c : Char}
    (hc : isServiceChar c = false) : c ∉ service.toList := by
  intro hmem
  have hvalid := (validateServiceName_ok h).2 c hmem
  rw [hc] at hvalid
  cases hvalid

end Separators

namespace ListenSpec

variable {Addr : Type}

/-- `Display for ListenSpec`. -/
def display (addrText : Addr → String) (s : ListenSpec Addr) : String :=
  s.service ++ "/" ++ addrText s.addr ++
    (if s.proto = .raw then ",proto=raw" else "") ++
    (match s.tls with
      | .passthrough => ""
      | .terminate cert key => ",cert=" ++ cert ++ ",key=" ++ key) ++
    (if s.route = .request then ",route=request" else "")

theorem map_eq_ok {ε α β : Type} {x : Except ε α} {f : α → β} {b : β} (h : x.map f = .ok b) :
    ∃ a, x = .ok a ∧ b = f a := by
  cases x with
  | error e => cases h
  | ok a =>
      cases h
      exact ⟨a, rfl, rfl⟩

/-- A path that an option value can hold. -/
structure IsPath (p : String) : Prop where
  nonempty : p ≠ ""
  noComma : ',' ∉ p.toList

/-- What is known of the paths read so far. -/
def PathsOk (opts : ListenOptions) : Prop :=
  ∀ p, opts.cert = some p ∨ opts.key = some p → IsPath p

theorem PathsOk.setOption {opts opts' : ListenOptions} {name value : String} (h : PathsOk opts)
    (hvalue : IsPath value) (hset : setOption opts name value = .ok opts') : PathsOk opts' := by
  simp only [ListenSpec.setOption] at hset
  split at hset
  · split at hset
    · cases hset
    · obtain ⟨proto, -, rfl⟩ := map_eq_ok hset
      exact h
  · split at hset
    · split at hset
      · cases hset
      · obtain ⟨route, -, rfl⟩ := map_eq_ok hset
        exact h
    · split at hset
      · split at hset
        · cases hset
        · cases hset
          rintro p (hp | hp)
          · obtain rfl := Option.some.inj hp
            exact hvalue
          · exact h p (.inr hp)
      · split at hset
        · split at hset
          · cases hset
          · cases hset
            rintro p (hp | hp)
            · exact h p (.inl hp)
            · obtain rfl := Option.some.inj hp
              exact hvalue
        · cases hset

theorem PathsOk.readOption {spec opt : String} {opts opts' : ListenOptions} (h : PathsOk opts)
    (hopt : ',' ∉ opt.toList) (hread : readOption spec opts opt = .ok opts') : PathsOk opts' := by
  simp only [ListenSpec.readOption] at hread
  split at hread
  · cases hread
  · split at hread
    · cases hread
    · rename_i name value hsplit
      split at hread
      · cases hread
      · rename_i hvalue
        apply h.setOption ⟨hvalue, ?_⟩ hread
        intro hmem
        apply hopt
        simp [(splitOnce_eq_some_iff.mp hsplit).1, hmem]

theorem PathsOk.readOptions {spec : String} {parts : List String} {opts opts' : ListenOptions}
    (h : PathsOk opts) (hparts : ∀ opt ∈ parts, ',' ∉ opt.toList)
    (hread : readOptions spec opts parts = .ok opts') : PathsOk opts' := by
  induction parts generalizing opts with
  | nil =>
      cases hread
      exact h
  | cons opt rest ih =>
      simp only [ListenSpec.readOptions] at hread
      split at hread
      · rename_i next hopt
        apply ih (h.readOption (hparts opt List.mem_cons_self) hopt) _ hread
        intro x hx
        exact hparts x (List.mem_cons_of_mem _ hx)
      · cases hread

/-- What every parsed spec satisfies. -/
structure WellFormed (s : ListenSpec Addr) : Prop where
  service : validateServiceName s.service = .ok ()
  paths : ∀ cert key, s.tls = .terminate cert key → IsPath cert ∧ IsPath key
  rawRequest : ¬(s.proto = .raw ∧ s.route = .request)
  rawTerminate : ¬(s.proto = .raw ∧ s.tls.isTerminate = true)
  requestTerminate : ¬(s.route = .request ∧ s.tls.isTerminate = true)

theorem tlsMode_paths {opts : ListenOptions} {tls : TlsMode} (h : PathsOk opts)
    (htls : tlsMode opts = .ok tls) :
    ∀ cert key, tls = .terminate cert key → IsPath cert ∧ IsPath key := by
  rintro cert key rfl
  simp only [tlsMode] at htls
  split at htls
  · rename_i hcert hkey
    cases htls
    exact ⟨h _ (.inl hcert), h _ (.inr hkey)⟩
  all_goals cases htls

theorem assemble_wellFormed {service : String} {addr : Addr} {opts : ListenOptions} {tls : TlsMode}
    {s : ListenSpec Addr} (h : assemble service addr opts tls = .ok s)
    (hservice : validateServiceName service = .ok ())
    (hpaths : ∀ cert key, tls = .terminate cert key → IsPath cert ∧ IsPath key) :
    WellFormed s := by
  simp only [assemble] at h
  split at h
  · cases h
  · split at h
    · cases h
    · split at h
      · cases h
      · cases h
        constructor <;> assumption

/-- A parsed spec is well-formed. -/
theorem wellFormed_of_fromStr {parseAddr : String → Option Addr} {spec : String}
    {s : ListenSpec Addr} (h : fromStr parseAddr spec = .ok s) : WellFormed s := by
  simp only [fromStr] at h
  split at h
  · cases h
  · rename_i service rest _
    split at h
    · cases h
    · rename_i hservice
      split at h
      · cases h
      · cases hopts : readOptions spec ⟨none, none, none, none⟩ (splitChar ',' rest).tail with
        | error e =>
            rw [hopts] at h
            cases h
        | ok opts =>
            have hpaths : PathsOk opts := by
              apply PathsOk.readOptions _ _ hopts
              · simp [PathsOk]
              · intro opt hopt
                exact notMem_of_mem_splitChar (List.mem_of_mem_tail hopt)
            cases htls : tlsMode opts with
            | error e =>
                simp only [hopts, htls, bind, Except.bind] at h
                cases h
            | ok tls =>
                simp only [hopts, htls, bind, Except.bind] at h
                exact assemble_wellFormed h hservice (tlsMode_paths hpaths htls)

/-! ### The displayed spec -/

variable {parseAddr : String → Option Addr} {addrText : Addr → String}

/-- A spec with its options as a list. -/
theorem fromStr_of_parts {service rest : String} {addr : Addr} {options : List String}
    (hservice : validateServiceName service = .ok ())
    (hparse : parseAddr (addrText addr) = some addr)
    (hparts : splitChar ',' rest = addrText addr :: options) :
    fromStr parseAddr (service ++ "/" ++ rest) =
      (do
        let opts ← readOptions (service ++ "/" ++ rest) ⟨none, none, none, none⟩ options
        let tls ← tlsMode opts
        assemble service addr opts tls) := by
  have hsplit : splitOnce '/' (service ++ "/" ++ rest) = some (service, rest) :=
    splitOnce_append (by simp) (notMem_service hservice (by decide))
  simp only [fromStr, hsplit, hservice, hparts, List.headD_cons, List.tail_cons, hparse]

theorem readOption_of_split {spec opt : String} {opts : ListenOptions} (name value : String)
    (hopt : opt = name ++ "=" ++ value) (hname : '=' ∉ name.toList) (hvalue : value ≠ "") :
    readOption spec opts opt = setOption opts name value := by
  have hsplit : splitOnce '=' opt = some (name, value) := splitOnce_append (by simp [hopt]) hname
  have hne : opt ≠ "" := by
    rintro rfl
    simpa using congrArg String.toList hopt
  simp only [readOption, if_neg hne, hsplit, if_neg hvalue]

theorem readOption_proto {spec : String} {opts : ListenOptions} (h : opts.proto = none) :
    readOption spec opts "proto=raw" = .ok { opts with proto := some .raw } := by
  rw [readOption_of_split "proto" "raw" (by simp) (by decide) (by decide)]
  simp [setOption, parseProto, h, Except.map]

theorem readOption_route {spec : String} {opts : ListenOptions} (h : opts.route = none) :
    readOption spec opts "route=request" = .ok { opts with route := some .request } := by
  rw [readOption_of_split "route" "request" (by simp) (by decide) (by decide)]
  simp [setOption, parseRoute, h, Except.map]

theorem readOption_cert {spec cert : String} {opts : ListenOptions} (h : opts.cert = none)
    (hcert : IsPath cert) :
    readOption spec opts ("cert=" ++ cert) = .ok { opts with cert := some cert } := by
  rw [readOption_of_split "cert" cert (by simp) (by decide) hcert.nonempty]
  simp [setOption, h]

theorem readOption_key {spec key : String} {opts : ListenOptions} (h : opts.key = none)
    (hkey : IsPath key) :
    readOption spec opts ("key=" ++ key) = .ok { opts with key := some key } := by
  rw [readOption_of_split "key" key (by simp) (by decide) hkey.nonempty]
  simp [setOption, h]

/-- The options that `Display` writes. -/
def optionTexts (s : ListenSpec Addr) : List String :=
  (if s.proto = .raw then ["proto=raw"] else []) ++
    (match s.tls with
      | .passthrough => []
      | .terminate cert key => ["cert=" ++ cert, "key=" ++ key]) ++
    (if s.route = .request then ["route=request"] else [])

/-- A text and options after commas. -/
def joinOptions (text : String) : List String → String
  | [] => text
  | opt :: rest => text ++ "," ++ joinOptions opt rest

theorem splitChar_joinOptions {text : String} {options : List String} (htext : ',' ∉ text.toList)
    (h : ∀ opt ∈ options, ',' ∉ opt.toList) :
    splitChar ',' (joinOptions text options) = text :: options := by
  induction options generalizing text with
  | nil => exact splitChar_of_notMem htext
  | cons opt rest ih =>
      rw [joinOptions, splitChar_append (b := joinOptions opt rest) (by simp) htext,
        ih (h opt List.mem_cons_self) fun x hx => h x (List.mem_cons_of_mem _ hx)]

theorem display_eq_joinOptions (s : ListenSpec Addr) :
    s.display addrText = s.service ++ "/" ++ joinOptions (addrText s.addr) s.optionTexts := by
  obtain ⟨service, addr, proto, tls, route⟩ := s
  cases proto <;> cases tls <;> cases route <;>
    simp [display, optionTexts, joinOptions, ← String.toList_inj]

theorem WellFormed.noComma {s : ListenSpec Addr} (hs : WellFormed s) :
    ∀ opt ∈ s.optionTexts, ',' ∉ opt.toList := by
  intro opt hopt
  simp only [optionTexts, List.mem_append] at hopt
  obtain (hopt | hopt) | hopt := hopt
  · split at hopt
    · simp_all
    · cases hopt
  · split at hopt
    · cases hopt
    · rename_i cert key htls
      obtain ⟨hcert, hkey⟩ := hs.paths cert key htls
      simp only [List.mem_cons, List.not_mem_nil, or_false] at hopt
      obtain rfl | rfl := hopt
      · simp [hcert.noComma]
      · simp [hkey.noComma]
  · split at hopt
    · simp_all
    · cases hopt

/-- A well-formed spec is read back from its text. -/
theorem fromStr_display (hparse : ∀ a, parseAddr (addrText a) = some a)
    (hcomma : ∀ a, ',' ∉ (addrText a).toList) {s : ListenSpec Addr} (hs : WellFormed s) :
    fromStr parseAddr (s.display addrText) = .ok s := by
  rw [display_eq_joinOptions, fromStr_of_parts hs.service (hparse s.addr)
    (splitChar_joinOptions (hcomma s.addr) hs.noComma)]
  obtain ⟨service, addr, proto, tls, route⟩ := s
  -- the four combinations that do not contradict themselves
  cases tls with
  | terminate cert key =>
      obtain ⟨hcert, hkey⟩ := hs.paths cert key rfl
      cases proto with
      | raw => exact absurd ⟨rfl, rfl⟩ hs.rawTerminate
      | auto =>
          cases route with
          | request => exact absurd ⟨rfl, rfl⟩ hs.requestTerminate
          | connection =>
              simp [optionTexts, readOptions, readOption_cert, readOption_key, hcert, hkey,
                tlsMode, assemble, TlsMode.isTerminate, bind, Except.bind]
  | passthrough =>
      cases proto with
      | auto =>
          cases route with
          | connection =>
              simp [optionTexts, readOptions, tlsMode, assemble, bind, Except.bind]
          | request =>
              simp [optionTexts, readOptions, readOption_route, tlsMode, assemble,
                TlsMode.isTerminate, bind, Except.bind]
      | raw =>
          cases route with
          | request => exact absurd ⟨rfl, rfl⟩ hs.rawRequest
          | connection =>
              simp [optionTexts, readOptions, readOption_proto, tlsMode, assemble,
                TlsMode.isTerminate, bind, Except.bind]

end ListenSpec

namespace BackendSpec

variable {Addr : Type}

/-- `Display for BackendSpec`. -/
def display (addrText : Addr → String) (b : BackendSpec Addr) : String :=
  (match b.host with
    | some host => b.service ++ "@" ++ host
    | none => b.service) ++
  (match b.target with
    | .tcp addr => "/" ++ addrText addr
    | .ws url => "/" ++ url)

/-- The part of the text before the target. -/
def headText (b : BackendSpec Addr) : String :=
  match b.host with
  | some host => b.service ++ "@" ++ host
  | none => b.service

/-- The text of the target. -/
def targetText (addrText : Addr → String) (b : BackendSpec Addr) : String :=
  match b.target with
  | .tcp addr => addrText addr
  | .ws url => url

theorem display_eq (addrText : Addr → String) (b : BackendSpec Addr) :
    b.display addrText = b.headText ++ "/" ++ b.targetText addrText := by
  obtain ⟨service, host, target⟩ := b
  cases host <;> cases target <;>
    simp [display, headText, targetText, String.append_assoc]

variable {m : LowercaseMapping} {parseAddr : String → Option Addr} {addrText : Addr → String}

/-- A target that was parsed is a URL or an address. -/
theorem parseTarget_ws {text url : String} (h : parseTarget parseAddr text = .ok (.ws url)) :
    parseTarget parseAddr url = .ok (.ws url) := by
  simp only [parseTarget] at h ⊢
  split at h
  · rename_i hws
    cases h
    rw [if_pos hws]
  · split at h
    · cases h
    · cases h

theorem startsWith_of_noSlash {text start : String} (htext : '/' ∉ text.toList)
    (hstart : '/' ∈ start.toList) : startsWith text start = false := by
  rw [startsWith, Bool.eq_false_iff]
  intro h
  exact htext ((List.isPrefixOf_iff_prefix.mp h).subset hstart)

theorem parseTarget_addrText (hparse : ∀ a, parseAddr (addrText a) = some a)
    (hslash : ∀ a, '/' ∉ (addrText a).toList) (addr : Addr) :
    parseTarget parseAddr (addrText addr) = .ok (.tcp addr) := by
  have hws : startsWith (addrText addr) "ws://" = false :=
    startsWith_of_noSlash (hslash addr) (by decide)
  have hwss : startsWith (addrText addr) "wss://" = false :=
    startsWith_of_noSlash (hslash addr) (by decide)
  simp [parseTarget, hws, hwss, hparse]

/-- What every parsed spec satisfies. -/
structure WellFormed (parseAddr : String → Option Addr) (b : BackendSpec Addr) : Prop where
  service : validateServiceName b.service = .ok ()
  host : ∀ k, b.host = some k → IsRoutingKey k
  target : ∃ text, parseTarget parseAddr text = .ok b.target

theorem parseTarget_of_fromStr {spec : String} {b : BackendSpec Addr}
    (h : fromStr m parseAddr spec = .ok b) :
    ∃ text, parseTarget parseAddr text = .ok b.target := by
  obtain ⟨head, target, hsplit⟩ := exists_split_of_fromStr h
  exact ⟨target, ((fromStr_eq_ok_iff_of_split hsplit).mp h).2.2⟩

/-- A parsed spec is well-formed. -/
theorem wellFormed_of_fromStr {spec : String} {b : BackendSpec Addr}
    (h : fromStr m parseAddr spec = .ok b) : WellFormed parseAddr b := by
  obtain ⟨hservice, hhost⟩ := fromStr_ok h
  refine ⟨hservice, ?_, parseTarget_of_fromStr h⟩
  intro k hk
  obtain ⟨name, hname⟩ := hhost k hk
  exact (routingKey_ok_iff.mp (specHostKey_ok hname)).1

/-- The host key is a fixpoint, so the head of the text gives the same service and host. -/
theorem WellFormed.parseHead {b : BackendSpec Addr} (hb : WellFormed parseAddr b) (spec : String) :
    parseHead m spec b.headText = .ok (b.service, b.host) := by
  have hat : '@' ∉ b.service.toList := notMem_service hb.service (by decide)
  obtain ⟨service, host, target⟩ := b
  cases host with
  | none => simp only [BackendSpec.parseHead, headText, splitOnce_of_notMem hat]
  | some key =>
      have hkey : IsRoutingKey key := hb.host key rfl
      have hsplit : splitOnce '@' (service ++ "@" ++ key) = some (service, key) :=
        splitOnce_append (by simp) hat
      simp only [BackendSpec.parseHead, headText, hsplit, if_neg hkey.nonempty, hkey.specHostKey]

theorem WellFormed.noSlash {b : BackendSpec Addr} (hb : WellFormed parseAddr b) :
    '/' ∉ b.headText.toList := by
  have hservice : '/' ∉ b.service.toList := notMem_service hb.service (by decide)
  obtain ⟨service, host, target⟩ := b
  cases host with
  | none => exact hservice
  | some key =>
      have hkey : '/' ∉ key.toList := (hb.host key rfl).notMem (by decide)
      simpa [headText] using ⟨hservice, hkey⟩

theorem WellFormed.parseTarget {b : BackendSpec Addr} (hb : WellFormed parseAddr b)
    (hparse : ∀ a, parseAddr (addrText a) = some a) (hslash : ∀ a, '/' ∉ (addrText a).toList) :
    parseTarget parseAddr (b.targetText addrText) = .ok b.target := by
  obtain ⟨text, htext⟩ := hb.target
  obtain ⟨service, host, target⟩ := b
  cases target with
  | tcp addr => exact parseTarget_addrText hparse hslash addr
  | ws url => exact parseTarget_ws htext

/-- A well-formed spec is read back from its text. -/
theorem fromStr_display (hparse : ∀ a, parseAddr (addrText a) = some a)
    (hslash : ∀ a, '/' ∉ (addrText a).toList) {b : BackendSpec Addr} (hb : WellFormed parseAddr b) :
    fromStr m parseAddr (b.display addrText) = .ok b := by
  have hsplit : splitOnce '/' (b.display addrText) = some (b.headText, b.targetText addrText) :=
    splitOnce_append (by simp [display_eq]) hb.noSlash
  have hhost : b.host ≠ some "" := by
    intro h
    exact (hb.host "" h).nonempty rfl
  simp only [fromStr, hsplit, hb.parseHead, hb.service, if_neg hhost,
    hb.parseTarget hparse hslash, bind, Except.bind, pure, Except.pure]

end BackendSpec

/-- What `Display` writes for a parsed spec parses back to it. -/
theorem displayed_specs_parse_back (m : LowercaseMapping) {Addr : Type}
    (parseAddr : String → Option Addr) (addrText : Addr → String)
    (hparse : ∀ a, parseAddr (addrText a) = some a)
    (htext : ∀ a, ',' ∉ (addrText a).toList ∧ '/' ∉ (addrText a).toList) :
    (∀ spec s, ListenSpec.fromStr parseAddr spec = .ok s →
      ListenSpec.fromStr parseAddr (s.display addrText) = .ok s) ∧
    (∀ spec b, BackendSpec.fromStr m parseAddr spec = .ok b →
      BackendSpec.fromStr m parseAddr (b.display addrText) = .ok b) := by
  constructor
  · intro spec s hs
    exact ListenSpec.fromStr_display hparse (fun a => (htext a).1)
      (ListenSpec.wellFormed_of_fromStr hs)
  · intro spec b hb
    exact BackendSpec.fromStr_display hparse (fun a => (htext a).2)
      (BackendSpec.wellFormed_of_fromStr hb)

/-- A parser for one address. -/
def parseAnyV4 (s : String) : Option Unit := if s = "0.0.0.0:8443" then some () else none

theorem displayed_specs_parse_back_samples :
    (∃ s, ListenSpec.fromStr parseAnyV4 "web/0.0.0.0:8443,key=/p/k.pem,cert=/p/a=b.pem" = .ok s ∧
      ListenSpec.fromStr parseAnyV4 (s.display fun _ => "0.0.0.0:8443") = .ok s) ∧
    (∃ b, BackendSpec.fromStr .narrow parseAnyV4 "chat@[2001:DB8::1]/ws://u@h/a,b" = .ok b ∧
      BackendSpec.fromStr .narrow parseAnyV4 (b.display fun _ => "0.0.0.0:8443") = .ok b) := by
  obtain ⟨hlisten, hbackend⟩ := displayed_specs_parse_back .narrow parseAnyV4
    (fun _ => "0.0.0.0:8443") (fun _ => rfl) (fun _ => by decide)
  have hs : ListenSpec.fromStr parseAnyV4 "web/0.0.0.0:8443,key=/p/k.pem,cert=/p/a=b.pem" =
      .ok ⟨"web", (), .auto, .terminate "/p/a=b.pem" "/p/k.pem", .connection⟩ := by rfl
  have hb : BackendSpec.fromStr .narrow parseAnyV4 "chat@[2001:DB8::1]/ws://u@h/a,b" =
      .ok ⟨"chat", some "2001:db8::1", .ws "ws://u@h/a,b"⟩ := by rfl
  exact ⟨⟨_, hs, hlisten _ _ hs⟩, ⟨_, hb, hbackend _ _ hb⟩⟩

end ZenohBridge
