import ZenohBridge.Foundation.Execution
import ZenohBridge.ModeSpecs

/-!
# Listeners

The options of a `--listen` spec fill four slots, each at most once. An option either names a
value for one slot or is refused, and which of the two does not depend on what was read before
it. Two settings commute, because a slot that is filled twice refuses the spec in either order.

A listener is dispatched on its parsed options, and the mode runner reads service and address a
second time, from a text written for it. The validation of the parser leaves exactly the
combinations that the dispatcher has an arm for.
-/

namespace ZenohBridge

open Execution

/-- One slot of a `--listen` spec with the value that an option gives it. -/
inductive ListenSetting where
  | proto (mode : ProtoMode)
  | route (mode : RouteMode)
  | cert (path : String)
  | key (path : String)
  deriving DecidableEq, Repr

namespace ListenSetting

/-- The setting that a name and a value spell. -/
def ofPair (name value : String) : Option ListenSetting :=
  if name = "proto" then (ListenSpec.parseProto value).toOption.map .proto
  else if name = "route" then (ListenSpec.parseRoute value).toOption.map .route
  else if name = "cert" then some (.cert value)
  else if name = "key" then some (.key value)
  else none

/-- The setting that an option spells, whatever was read before it. -/
def ofOption (opt : String) : Option ListenSetting :=
  match splitOnce '=' opt with
  | none => none
  | some (name, value) => if value = "" then none else ofPair name value

/-- A slot is filled once. -/
def put (opts : ListenOptions) : ListenSetting → Option ListenOptions
  | .proto mode => if opts.proto.isSome then none else some { opts with proto := some mode }
  | .route mode => if opts.route.isSome then none else some { opts with route := some mode }
  | .cert path => if opts.cert.isSome then none else some { opts with cert := some path }
  | .key path => if opts.key.isSome then none else some { opts with key := some path }

/-- Two settings are put in either order with the same result. -/
theorem put_commute (x y : ListenSetting) : Commute put x y := by
  rintro ⟨proto, route, cert, key⟩
  cases x <;> cases y <;> cases proto <;> cases route <;> cases cert <;> cases key <;> rfl

end ListenSetting

namespace ListenSpec

open ListenSetting

/-- What the option loop does with one option, up to the text of its errors. -/
def takeOption (opts : ListenOptions) (opt : String) : Option ListenOptions :=
  (ofOption opt).bind (put opts)

theorem toOption_bind {ε α β : Type} (x : Except ε α) (f : α → Except ε β) :
    (x >>= f).toOption = x.toOption.bind fun a => (f a).toOption := by
  cases x <;> rfl

theorem setOption_toOption (opts : ListenOptions) (name value : String) :
    (setOption opts name value).toOption = (ofPair name value).bind (put opts) := by
  obtain ⟨proto, route, cert, key⟩ := opts
  simp only [setOption, ofPair]
  split
  · cases parseProto value <;> cases proto <;> rfl
  · split
    · cases parseRoute value <;> cases route <;> rfl
    · split
      · cases cert <;> rfl
      · split
        · cases key <;> rfl
        · rfl

/-- An option is refused, or it puts the setting that it spells. -/
theorem readOption_toOption (spec : String) (opts : ListenOptions) (opt : String) :
    (readOption spec opts opt).toOption = takeOption opts opt := by
  by_cases hempty : opt = ""
  · subst hempty
    rfl
  cases hsplit : splitOnce '=' opt with
  | none =>
      simp only [readOption, if_neg hempty, takeOption, ofOption, hsplit]
      rfl
  | some pair =>
      obtain ⟨name, value⟩ := pair
      simp only [readOption, if_neg hempty, takeOption, ofOption, hsplit]
      by_cases hvalue : value = ""
      · simp only [if_pos hvalue]
        rfl
      · simp only [if_neg hvalue]
        exact setOption_toOption opts name value

/-- The option loop is a run of `takeOption`. -/
theorem readOptions_toOption (spec : String) (opts : ListenOptions) (parts : List String) :
    (readOptions spec opts parts).toOption = exec takeOption opts parts := by
  induction parts generalizing opts with
  | nil => rfl
  | cons opt rest ih =>
      rw [exec, ← readOption_toOption spec, readOptions]
      cases readOption spec opts opt with
      | error e => rfl
      | ok next => exact ih next

/-- Options commute: both are refused, or their settings are put in either order. -/
theorem takeOption_commute (opt opt' : String) : Commute takeOption opt opt' := by
  intro opts
  simp only [takeOption]
  cases hopt : ofOption opt with
  | none => cases ofOption opt' <;> simp
  | some x =>
      cases hopt' : ofOption opt' with
      | none => simp
      | some y => exact put_commute x y opts

variable {Addr : Type} {parseAddr : String → Option Addr}

/-- What a text with a `/` is read as, up to the text of its errors. -/
theorem fromStr_toOption {spec service rest : String}
    (h : splitOnce '/' spec = some (service, rest)) :
    (fromStr parseAddr spec).toOption =
      (validateServiceName service).toOption.bind fun _ =>
        (parseAddr ((splitChar ',' rest).headD "")).bind fun addr =>
          (exec takeOption ⟨none, none, none, none⟩ (splitChar ',' rest).tail).bind fun opts =>
            (tlsMode opts >>= fun tls => assemble service addr opts tls).toOption := by
  simp only [fromStr, h]
  cases validateServiceName service with
  | error e => rfl
  | ok valid =>
      cases parseAddr ((splitChar ',' rest).headD "") with
      | none => rfl
      | some addr => exact (toOption_bind _ _).trans (by rw [readOptions_toOption]; rfl)

theorem exists_splitOnce {sep : Char} {s : String} (h : sep ∈ s.toList) :
    ∃ a b, splitOnce sep s = some (a, b) := by
  obtain ⟨before, after, hs, hbefore⟩ := List.eq_append_cons_of_mem h
  exact ⟨.ofList before, .ofList after,
    splitOnce_append (by simpa using hs) (by simpa using hbefore)⟩

theorem splitOnce_append_right {sep : Char} {s t a b : String}
    (h : splitOnce sep s = some (a, b)) : splitOnce sep (s ++ t) = some (a, b ++ t) := by
  obtain ⟨hs, ha⟩ := splitOnce_eq_some_iff.mp h
  exact splitOnce_append (by simp [hs]) ha

/-- The options follow the text, whatever the text is. -/
theorem joinOptions_append (a b : String) (options : List String) :
    joinOptions (a ++ b) options = a ++ joinOptions b options := by
  cases options with
  | nil => rfl
  | cons opt rest => simp [joinOptions, String.append_assoc]

/-- The first `/` of a text is where it was, whatever options follow. -/
theorem splitOnce_joinOptions {text service rest : String} (options : List String)
    (h : splitOnce '/' text = some (service, rest)) :
    splitOnce '/' (joinOptions text options) = some (service, joinOptions rest options) := by
  have hjoin : ∀ s, joinOptions s options = s ++ joinOptions "" options := by
    intro s
    rw [← joinOptions_append, String.append_empty]
  rw [hjoin text, hjoin rest]
  exact splitOnce_append_right h

/-- Joined options are split again, each of them on its own commas too. -/
theorem splitChar_joinOptions_flatMap (text : String) (options : List String) :
    splitChar ',' (joinOptions text options) =
      splitChar ',' text ++ options.flatMap (splitChar ',') := by
  induction options generalizing text with
  | nil => simp [joinOptions]
  | cons opt rest ih =>
      have hcomma : (joinOptions text (opt :: rest)).toList =
          text.toList ++ ',' :: (joinOptions opt rest).toList := by
        simp [joinOptions]
      calc splitChar ',' (joinOptions text (opt :: rest))
          = splitChar ',' text ++ splitChar ',' (joinOptions opt rest) := by
            simp only [splitChar, hcomma, List.splitOn_append_cons_self, List.map_append]
        _ = splitChar ',' text ++ (opt :: rest).flatMap (splitChar ',') := by
            rw [ih, List.flatMap_cons]

end ListenSpec

/-- The options of a `--listen` spec are order-free. -/
theorem listen_options_order_free {Addr : Type} (parseAddr : String → Option Addr)
    (service addr : String) {options options' : List String} (hperm : options.Perm options') :
    (ListenSpec.fromStr parseAddr
        (ListenSpec.joinOptions (service ++ "/" ++ addr) options)).toOption =
      (ListenSpec.fromStr parseAddr
        (ListenSpec.joinOptions (service ++ "/" ++ addr) options')).toOption := by
  have hslash : '/' ∈ (service ++ "/" ++ addr).toList := by simp
  obtain ⟨first, rest, hsplit⟩ := ListenSpec.exists_splitOnce hslash
  rw [ListenSpec.fromStr_toOption (ListenSpec.splitOnce_joinOptions options hsplit),
    ListenSpec.fromStr_toOption (ListenSpec.splitOnce_joinOptions options' hsplit)]
  obtain ⟨addrPart, parts, hparts⟩ : ∃ addrPart parts, splitChar ',' rest = addrPart :: parts :=
    List.exists_cons_of_ne_nil (by simp [splitChar])
  simp only [ListenSpec.splitChar_joinOptions_flatMap, hparts, List.cons_append, List.headD_cons,
    List.tail_cons]
  -- the options written in the address part are read first in both orders
  have hexec : exec ListenSpec.takeOption ⟨none, none, none, none⟩
        (parts ++ options.flatMap (splitChar ',')) =
      exec ListenSpec.takeOption ⟨none, none, none, none⟩
        (parts ++ options'.flatMap (splitChar ',')) :=
    exec_perm ((hperm.flatMap_right _).append_left parts)
      (fun a _ b _ => ListenSpec.takeOption_commute a b) _
  rw [hexec]

theorem listen_options_order_free_samples :
    let read := fun options => (ListenSpec.fromStr parseAnyV4
      (ListenSpec.joinOptions ("web" ++ "/" ++ "0.0.0.0:8443") options)).toOption
    read ["key=/p/k.pem", "cert=/p/c.pem"] = read ["cert=/p/c.pem", "key=/p/k.pem"] ∧
      read ["proto=tcp", "key="] = read ["key=", "proto=tcp"] :=
  ⟨listen_options_order_free parseAnyV4 "web" "0.0.0.0:8443" (.swap _ _ _),
    listen_options_order_free parseAnyV4 "web" "0.0.0.0:8443" (.swap _ _ _)⟩

/-! ### Dispatch -/

/-- The mode runners of a listener. -/
inductive ModeRunner where
  | raw
  | auto
  | multiroute
  | httpsTerminate (cert key : String)
  deriving DecidableEq, Repr

/-- The options that a mode runner stands for. -/
def ModeRunner.options : ModeRunner → ProtoMode × TlsMode × RouteMode
  | .raw => (.raw, .passthrough, .connection)
  | .auto => (.auto, .passthrough, .connection)
  | .multiroute => (.auto, .passthrough, .request)
  | .httpsTerminate cert key => (.auto, .terminate cert key, .connection)

section Dispatch

variable {Addr : Type} (addrText : Addr → String)

/-- The canonical text that the mode runners consume. -/
def ListenSpec.modeSpec (s : ListenSpec Addr) : String := s.service ++ "/" ++ addrText s.addr

/-- `run_listener_with_readiness`: the mode runner that is started, and the text it is given.
The fourth arm is there in builds with the `tls-termination` feature only. -/
def runListener (tlsTermination : Bool) (s : ListenSpec Addr) :
    Except String (ModeRunner × String) :=
  match s.proto, s.tls, s.route, tlsTermination with
  | .raw, .passthrough, .connection, _ => .ok (.raw, s.modeSpec addrText)
  | .auto, .passthrough, .connection, _ => .ok (.auto, s.modeSpec addrText)
  | .auto, .passthrough, .request, _ => .ok (.multiroute, s.modeSpec addrText)
  | .auto, .terminate cert key, .connection, true =>
      .ok (.httpsTerminate cert key, s.modeSpec addrText)
  | _, _, _, _ => .error ("unsupported --listen option combination: " ++ s.display addrText)

/-- A well-formed spec has an arm of its own. -/
theorem ListenSpec.WellFormed.runListener {s : ListenSpec Addr} (hs : s.WellFormed) :
    ∃ mode, runListener addrText true s = .ok (mode, s.modeSpec addrText) ∧
      mode.options = (s.proto, s.tls, s.route) := by
  obtain ⟨service, addr, proto, tls, route⟩ := s
  cases tls with
  | passthrough =>
      cases proto with
      | auto =>
          cases route with
          | connection => exact ⟨.auto, rfl, rfl⟩
          | request => exact ⟨.multiroute, rfl, rfl⟩
      | raw =>
          cases route with
          | connection => exact ⟨.raw, rfl, rfl⟩
          | request => exact absurd ⟨rfl, rfl⟩ hs.rawRequest
  | terminate cert key =>
      cases proto with
      | raw => exact absurd ⟨rfl, rfl⟩ hs.rawTerminate
      | auto =>
          cases route with
          | connection => exact ⟨.httpsTerminate cert key, rfl, rfl⟩
          | request => exact absurd ⟨rfl, rfl⟩ hs.requestTerminate

end Dispatch

/-- An accepted listener is dispatched to the mode runner that its options describe, and the
runner reads the service and the address of the spec back. -/
theorem accepted_listeners_dispatch {Addr : Type} (parseAddr : String → Option Addr)
    (addrText : Addr → String) (hparse : ∀ a, parseAddr (addrText a) = some a)
    (hslash : ∀ a, '/' ∉ (addrText a).toList) {spec : String} {s : ListenSpec Addr}
    (h : ListenSpec.fromStr parseAddr spec = .ok s) :
    ∃ mode text, runListener addrText true s = .ok (mode, text) ∧
      mode.options = (s.proto, s.tls, s.route) ∧
      parseImportSpec parseAddr text = .ok (s.service, s.addr) := by
  have hs : s.WellFormed := ListenSpec.wellFormed_of_fromStr h
  obtain ⟨mode, hrun, hmode⟩ := hs.runListener addrText
  refine ⟨mode, s.modeSpec addrText, hrun, hmode, ?_⟩
  have hservice : '/' ∉ s.service.toList := notMem_service hs.service (by decide)
  exact (parseServiceAddr_eq_ok_iff hservice (hslash s.addr)).mpr ⟨rfl, hs.service, hparse s.addr⟩

theorem accepted_listeners_dispatch_terminate :
    ∃ mode text, runListener (fun _ => "0.0.0.0:8443") true
        ⟨"web", (), .auto, .terminate "/p/c.pem" "/p/k.pem", .connection⟩ = .ok (mode, text) ∧
      mode.options = (.auto, .terminate "/p/c.pem" "/p/k.pem", .connection) ∧
      parseImportSpec parseAnyV4 text = .ok ("web", ()) := by
  have hspec : ListenSpec.fromStr parseAnyV4 "web/0.0.0.0:8443,key=/p/k.pem,cert=/p/c.pem" =
      .ok ⟨"web", (), .auto, .terminate "/p/c.pem" "/p/k.pem", .connection⟩ := by rfl
  exact accepted_listeners_dispatch parseAnyV4 (fun _ => "0.0.0.0:8443") (fun _ => rfl)
    (fun _ => by decide) hspec

end ZenohBridge
