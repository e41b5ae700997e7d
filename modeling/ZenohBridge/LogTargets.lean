import ZenohBridge.Args
import ZenohBridge.SpecDisplay

/-!
# Log targets

`LogTarget::from_str` reads a sink, with its value after `=`, and options after commas, each
`name=value`. An option is given at most once, and only to the sink that knows it. The texts
that are accepted as a target are few, and they are listed here. A refusal quotes what it is
about.

## Implementation notes

A path is the text it was made from. The level is not looked at when the options are resolved.
-/

namespace ZenohBridge

open Args (bind_ok)
open ListenSpec (joinOptions splitChar_joinOptions)

/-- How often a file rolls over. -/
inductive Rotation where
  | never
  | daily
  | hourly
  | minutely
  deriving DecidableEq, Repr

/-- `Rotation::as_str`. -/
def Rotation.asStr : Rotation → String
  | .never => "never"
  | .daily => "daily"
  | .hourly => "hourly"
  | .minutely => "minutely"

inductive Facility where
  | daemon
  | user
  | local0
  | local1
  | local2
  | local3
  | local4
  | local5
  | local6
  | local7
  deriving DecidableEq, Repr

/-- `Facility::as_str`. -/
def Facility.asStr : Facility → String
  | .daemon => "daemon"
  | .user => "user"
  | .local0 => "local0"
  | .local1 => "local1"
  | .local2 => "local2"
  | .local3 => "local3"
  | .local4 => "local4"
  | .local5 => "local5"
  | .local6 => "local6"
  | .local7 => "local7"

/-- One `--log-target` sink. -/
inductive LogTarget where
  | stdout
  | stderr
  | file (path : String) (rotation : Rotation)
  | journald
  | syslog (ident : String) (facility : Facility)
  deriving DecidableEq, Repr

/-- Why a target is refused. -/
inductive LogTargetError where
  | emptyOption (spec : String)
  | malformedOption (opt : String)
  | emptyValue (name : String)
  | duplicate (name : String)
  | takesNoValue (kind : String)
  | takesNoOptions (kind name : String)
  | noPath
  | invalidRotation (got : String)
  | unknownFileOption (name : String)
  | syslogValue
  | nulIdent
  | invalidFacility (got : String)
  | unknownSyslogOption (name : String)
  | unknownTarget (kind : String)
  deriving DecidableEq, Repr

/-- The piece of the spec that an error is about. -/
def LogTargetError.piece : LogTargetError → String
  | .emptyOption text | .malformedOption text => text
  | .emptyValue name | .duplicate name => name ++ "="
  | .takesNoOptions _ name | .unknownFileOption name | .unknownSyslogOption name => name ++ "="
  | .takesNoValue kind | .unknownTarget kind => kind
  | .noPath => "file"
  | .invalidRotation got | .invalidFacility got => got
  | .syslogValue => "syslog"
  | .nulIdent => "ident"

/-- What an error says before and after that piece. -/
def LogTargetError.around : LogTargetError → String × String
  | .emptyOption _ => ("empty option in --log-target '", "' (trailing or doubled comma?)")
  | .malformedOption _ => ("invalid --log-target option '", "': expected 'key=value'")
  | .emptyValue _ => ("--log-target option '", "' has an empty value")
  | .duplicate _ => ("duplicate --log-target option '", "'")
  | .takesNoValue _ => ("--log-target ", " takes no value")
  | .takesNoOptions kind _ => ("--log-target " ++ kind ++ " takes no options (got '", "')")
  | .noPath =>
      ("--log-target ", " requires a path: 'file=PATH[,rotation=daily|hourly|minutely|never]'")
  | .invalidRotation _ =>
      ("invalid rotation '", "': expected 'never', 'daily', 'hourly', or 'minutely'")
  | .unknownFileOption _ => ("unknown --log-target file option '", "' (known: rotation=)")
  | .syslogValue => ("--log-target ", " takes no value (did you mean ',ident=...'?)")
  | .nulIdent => ("syslog ", " must not contain a NUL byte")
  | .invalidFacility _ =>
      ("invalid syslog facility '", "': expected 'daemon', 'user', or 'local0'..'local7'")
  | .unknownSyslogOption _ =>
      ("unknown --log-target syslog option '", "' (known: ident=, facility=)")
  | .unknownTarget _ =>
      ("unknown --log-target '", "' (known: stdout, stderr, file=PATH, journald, syslog)")

/-- The text of an error. -/
def LogTargetError.message (e : LogTargetError) : String := e.around.1 ++ e.piece ++ e.around.2

namespace LogTarget

/-- `DEFAULT_SYSLOG_IDENT`. -/
def defaultSyslogIdent : String := "zenoh-bridge-tcp"

/-- `Display for LogTarget`. -/
def display : LogTarget → String
  | .stdout => "stdout"
  | .stderr => "stderr"
  | .file path rotation =>
      "file=" ++ path ++ (if rotation = .never then "" else ",rotation=" ++ rotation.asStr)
  | .journald => "journald"
  | .syslog ident facility =>
      "syslog" ++ (if ident = defaultSyslogIdent then "" else ",ident=" ++ ident) ++
        (if facility = .daemon then "" else ",facility=" ++ facility.asStr)

/-- Options with their values, in the order in which they were given. -/
abbrev Options := List (String × String)

/-- The option loop, whatever the sink. -/
def readOptions (spec : String) (opts : Options) : List String → Except LogTargetError Options
  | [] => .ok opts
  | opt :: parts =>
      if opt = "" then .error (.emptyOption spec)
      else match splitOnce '=' opt with
        | none => .error (.malformedOption opt)
        | some (name, value) =>
            if value = "" then .error (.emptyValue name)
            else if name ∈ opts.map Prod.fst then .error (.duplicate name)
            else readOptions spec (opts ++ [(name, value)]) parts

/-- `reject_extra`. -/
def rejectExtra (opts : Options) (kind : String) : Except LogTargetError Unit :=
  match opts with
  | (name, _) :: _ => .error (.takesNoOptions kind name)
  | [] => .ok ()

/-- The value of `rotation=`. -/
def parseRotation (value : String) : Except LogTargetError Rotation :=
  if value = "never" then .ok .never
  else if value = "daily" then .ok .daily
  else if value = "hourly" then .ok .hourly
  else if value = "minutely" then .ok .minutely
  else .error (.invalidRotation value)

/-- The options of a file. -/
def fileOptions (rotation : Rotation) : Options → Except LogTargetError Rotation
  | [] => .ok rotation
  | (name, value) :: opts =>
      if name = "rotation" then do
        let rotation ← parseRotation value
        fileOptions rotation opts
      else .error (.unknownFileOption name)

/-- The value of `facility=`. -/
def parseFacility (value : String) : Except LogTargetError Facility :=
  if value = "daemon" then .ok .daemon
  else if value = "user" then .ok .user
  else if value = "local0" then .ok .local0
  else if value = "local1" then .ok .local1
  else if value = "local2" then .ok .local2
  else if value = "local3" then .ok .local3
  else if value = "local4" then .ok .local4
  else if value = "local5" then .ok .local5
  else if value = "local6" then .ok .local6
  else if value = "local7" then .ok .local7
  else .error (.invalidFacility value)

/-- The options of the system log. -/
def syslogOptions (ident : String) (facility : Facility) :
    Options → Except LogTargetError (String × Facility)
  | [] => .ok (ident, facility)
  | (name, value) :: opts =>
      if name = "ident" then
        if '\x00' ∈ value.toList then .error .nulIdent else syslogOptions value facility opts
      else if name = "facility" then do
        let facility ← parseFacility value
        syslogOptions ident facility opts
      else .error (.unknownSyslogOption name)

/-- What a sink makes of its value and its options. -/
def assemble (kind : String) (value : Option String) (opts : Options) :
    Except LogTargetError LogTarget :=
  if kind = "stdout" ∨ kind = "stderr" then
    if value.isSome then .error (.takesNoValue kind)
    else do
      rejectExtra opts kind
      return if kind = "stdout" then .stdout else .stderr
  else if kind = "file" then
    match value.filter (· ≠ "") with
    | none => .error .noPath
    | some path => do
        let rotation ← fileOptions .never opts
        return .file path rotation
  else if kind = "journald" then
    if value.isSome then .error (.takesNoValue "journald")
    else do
      rejectExtra opts "journald"
      return .journald
  else if kind = "syslog" then
    if value.isSome then .error .syslogValue
    else do
      let (ident, facility) ← syslogOptions defaultSyslogIdent .daemon opts
      return .syslog ident facility
  else .error (.unknownTarget kind)

/-- The sink and its value. -/
def splitHead (head : String) : String × Option String :=
  match splitOnce '=' head with
  | some (kind, value) => (kind, some value)
  | none => (head, none)

/-- `LogTarget::from_str`. -/
def fromStr (spec : String) : Except LogTargetError LogTarget := do
  let parts := splitChar ',' spec
  let (kind, value) := splitHead (parts.headD "")
  let opts ← readOptions spec [] parts.tail
  assemble kind value opts

/-- The sink of a target and its value. -/
def head : LogTarget → String × Option String
  | .stdout => ("stdout", none)
  | .stderr => ("stderr", none)
  | .file path _ => ("file", some path)
  | .journald => ("journald", none)
  | .syslog _ _ => ("syslog", none)

def headText (t : LogTarget) : String :=
  match t.head with
  | (kind, none) => kind
  | (kind, some value) => kind ++ "=" ++ value

def optionText (opt : String × String) : String := opt.1 ++ "=" ++ opt.2

/-- The options that make a target of its sink. A default can be left out. -/
def optionLists : LogTarget → List Options
  | .stdout | .stderr | .journald => [[]]
  | .file _ rotation =>
      [("rotation", rotation.asStr)] :: if rotation = .never then [[]] else []
  | .syslog ident facility =>
      [[("ident", ident), ("facility", facility.asStr)],
          [("facility", facility.asStr), ("ident", ident)]] ++
        (if ident = defaultSyslogIdent then [[("facility", facility.asStr)]] else []) ++
        (if facility = .daemon then [[("ident", ident)]] else []) ++
        if ident = defaultSyslogIdent ∧ facility = .daemon then [[]] else []

/-- The texts of a target. -/
def spellings (t : LogTarget) : List String :=
  t.optionLists.map fun opts => joinOptions t.headText (opts.map optionText)

/-- The values of a target that can be written. -/
def WellFormed : LogTarget → Prop
  | .stdout | .stderr | .journald => True
  | .file path _ => path ≠ "" ∧ ',' ∉ path.toList
  | .syslog ident _ => ident ≠ "" ∧ ',' ∉ ident.toList ∧ '\x00' ∉ ident.toList

section Options

variable {spec value kind : String} {opts all : Options} {parts : List String}

theorem optionText_toList (opt : String × String) :
    (optionText opt).toList = opt.1.toList ++ '=' :: opt.2.toList := by
  simp [optionText]

theorem optionText_of_split {opt name value : String} (h : splitOnce '=' opt = some (name, value)) :
    opt = optionText (name, value) := by
  rw [← String.toList_inj, optionText_toList]
  exact (splitOnce_eq_some_iff.mp h).1

theorem optionText_ne_empty (opt : String × String) : optionText opt ≠ "" := by
  intro h
  have hlist := optionText_toList opt
  rw [h] at hlist
  simp at hlist

/-- The options that the loop accepts. -/
structure Accepted (opts more : Options) : Prop where
  name : ∀ opt ∈ more, '=' ∉ opt.1.toList
  value : ∀ opt ∈ more, opt.2 ≠ ""
  once : ((opts ++ more).map Prod.fst).Nodup

theorem Accepted.cons {name value : String} {more : Options} (hname : '=' ∉ name.toList)
    (hvalue : value ≠ "") (h : Accepted (opts ++ [(name, value)]) more) :
    Accepted opts ((name, value) :: more) := by
  refine ⟨?_, ?_, ?_⟩
  · exact List.forall_mem_cons.mpr ⟨hname, h.name⟩
  · exact List.forall_mem_cons.mpr ⟨hvalue, h.value⟩
  · have honce := h.once
    rwa [List.append_assoc, List.singleton_append] at honce

theorem Accepted.tail {name value : String} {more : Options}
    (h : Accepted opts ((name, value) :: more)) : Accepted (opts ++ [(name, value)]) more := by
  refine ⟨?_, ?_, ?_⟩
  · exact (List.forall_mem_cons.mp h.name).2
  · exact (List.forall_mem_cons.mp h.value).2
  · have honce := h.once
    rwa [List.append_cons] at honce

theorem Accepted.notMem {name value : String} {more : Options}
    (h : Accepted opts ((name, value) :: more)) : name ∉ opts.map Prod.fst := by
  intro hmem
  have honce := h.once
  rw [List.map_append, List.nodup_append] at honce
  exact honce.2.2 name hmem name List.mem_cons_self rfl

/-- The loop takes exactly the texts of options that have a value and different names. -/
theorem readOptions_eq_ok_iff (hnodup : (opts.map Prod.fst).Nodup) :
    readOptions spec opts parts = .ok all ↔
      ∃ more, all = opts ++ more ∧ parts = more.map optionText ∧ Accepted opts more := by
  induction parts generalizing opts with
  | nil =>
      constructor
      · intro h
        cases h
        refine ⟨[], (List.append_nil _).symm, rfl, ⟨by simp, by simp, ?_⟩⟩
        rwa [List.append_nil]
      · rintro ⟨more, rfl, hparts, -⟩
        rw [List.map_eq_nil_iff.mp hparts.symm, List.append_nil]
        rfl
  | cons part parts ih =>
      constructor
      · intro h
        simp only [readOptions] at h
        split at h
        · cases h
        split at h
        · cases h
        next name value hsplit =>
        split at h
        · cases h
        next hvalue =>
        split at h
        · cases h
        next hname =>
        have hnodup' : ((opts ++ [(name, value)]).map Prod.fst).Nodup := by
          rw [List.map_append, List.nodup_append]
          refine ⟨hnodup, by simp, fun a ha b hb heq => hname ?_⟩
          obtain rfl : b = name := List.mem_singleton.mp hb
          exact heq ▸ ha
        obtain ⟨more, rfl, rfl, haccepted⟩ := (ih hnodup').mp h
        refine ⟨(name, value) :: more, ?_, ?_, haccepted.cons ?_ hvalue⟩
        · rw [List.append_assoc, List.singleton_append]
        · rw [List.map_cons, ← optionText_of_split hsplit]
        · exact (splitOnce_eq_some_iff.mp hsplit).2
      · rintro ⟨more, rfl, hparts, haccepted⟩
        cases more with
        | nil => cases hparts
        | cons opt more =>
            obtain ⟨name, value⟩ := opt
            obtain ⟨rfl, rfl⟩ := List.cons.inj hparts
            have hname : '=' ∉ name.toList := haccepted.name _ List.mem_cons_self
            have hvalue : value ≠ "" := haccepted.value _ List.mem_cons_self
            have hsplit : splitOnce '=' (optionText (name, value)) = some (name, value) :=
              splitOnce_append (optionText_toList _) hname
            have hnodup' : ((opts ++ [(name, value)]).map Prod.fst).Nodup := by
              have honce := haccepted.tail.once
              rw [List.map_append] at honce
              exact (List.nodup_append.mp honce).1
            simp only [readOptions, if_neg (optionText_ne_empty _), hsplit, if_neg hvalue,
              if_neg haccepted.notMem]
            rw [ih hnodup']
            exact ⟨more, by rw [List.append_assoc, List.singleton_append], rfl, haccepted.tail⟩

theorem readOptions_nil_eq_ok_iff :
    readOptions spec [] parts = .ok all ↔ parts = all.map optionText ∧ Accepted [] all := by
  have hnodup : (([] : Options).map Prod.fst).Nodup := List.nodup_nil
  rw [readOptions_eq_ok_iff hnodup]
  constructor
  · rintro ⟨more, rfl, h⟩
    exact h
  · intro h
    exact ⟨all, rfl, h⟩

theorem parseRotation_eq_ok_iff {rotation : Rotation} :
    parseRotation value = .ok rotation ↔ value = rotation.asStr := by
  constructor
  · intro h
    unfold parseRotation at h
    repeat' split at h
    all_goals first | (cases h; assumption) | cases h
  · rintro rfl
    cases rotation <;> rfl

theorem parseFacility_eq_ok_iff {facility : Facility} :
    parseFacility value = .ok facility ↔ value = facility.asStr := by
  constructor
  · intro h
    unfold parseFacility at h
    repeat' split at h
    all_goals first | (cases h; assumption) | cases h
  · rintro rfl
    cases facility <;> rfl

/-- The options of a file are its rotation, or none. -/
theorem fileOptions_eq_ok_iff (hnodup : (opts.map Prod.fst).Nodup) {rotation : Rotation} :
    fileOptions .never opts = .ok rotation ↔
      opts = [("rotation", rotation.asStr)] ∨ opts = [] ∧ rotation = .never := by
  constructor
  · intro h
    cases opts with
    | nil =>
        cases h
        exact .inr ⟨rfl, rfl⟩
    | cons opt opts =>
        obtain ⟨name, value⟩ := opt
        simp only [fileOptions] at h
        split at h
        · next hname =>
            subst hname
            obtain ⟨first, hvalue, hrest⟩ := bind_ok h
            rw [parseRotation_eq_ok_iff.mp hvalue]
            cases opts with
            | nil =>
                cases hrest
                exact .inl rfl
            | cons opt opts =>
                obtain ⟨name, value⟩ := opt
                have hne : name ≠ "rotation" := by
                  rintro rfl
                  simp at hnodup
                rw [fileOptions, if_neg hne] at hrest
                cases hrest
        · cases h
  · rintro (rfl | ⟨rfl, rfl⟩)
    · rw [fileOptions, if_pos rfl, parseRotation_eq_ok_iff.mpr rfl]
      rfl
    · rfl

/-- The options of the system log, read from any values. -/
theorem syslogOptions_names {ident ident' : String} {facility facility' : Facility}
    (h : syslogOptions ident facility opts = .ok (ident', facility')) :
    ∀ opt ∈ opts, opt.1 = "ident" ∨ opt.1 = "facility" := by
  induction opts generalizing ident facility with
  | nil => simp
  | cons opt opts ih =>
      obtain ⟨name, value⟩ := opt
      simp only [syslogOptions] at h
      split at h
      · next hname =>
          split at h
          · cases h
          · exact List.forall_mem_cons.mpr ⟨.inl hname, ih h⟩
      split at h
      · next hname =>
          obtain ⟨next', -, hrest⟩ := bind_ok h
          exact List.forall_mem_cons.mpr ⟨.inr hname, ih hrest⟩
      · cases h

theorem syslogOptions_ident {ident facility} {result : String × Facility}
    (h : syslogOptions ident facility (("ident", value) :: opts) = .ok result) :
    '\x00' ∉ value.toList ∧ syslogOptions value facility opts = .ok result := by
  simp only [syslogOptions, if_true] at h
  split at h
  · cases h
  · next hnul => exact ⟨hnul, h⟩

theorem syslogOptions_facility {ident facility} {result : String × Facility}
    (h : syslogOptions ident facility (("facility", value) :: opts) = .ok result) :
    ∃ given, value = given.asStr ∧ syslogOptions ident given opts = .ok result := by
  have hname : "facility" ≠ "ident" := by decide
  simp only [syslogOptions, if_neg hname, if_true] at h
  obtain ⟨given, hvalue, hrest⟩ := bind_ok h
  exact ⟨given, parseFacility_eq_ok_iff.mp hvalue, hrest⟩

/-- Options of the system log with different names are at most one of each. -/
theorem syslog_options_cases (hnodup : (opts.map Prod.fst).Nodup)
    (h : ∀ opt ∈ opts, opt.1 = "ident" ∨ opt.1 = "facility") :
    opts = [] ∨ (∃ v, opts = [("ident", v)]) ∨ (∃ v, opts = [("facility", v)]) ∨
      (∃ v w, opts = [("ident", v), ("facility", w)]) ∨
      ∃ v w, opts = [("facility", v), ("ident", w)] := by
  obtain _ | ⟨⟨a, v⟩, _ | ⟨⟨b, w⟩, _ | ⟨⟨c, x⟩, rest⟩⟩⟩ := opts
  · exact .inl rfl
  · obtain rfl | rfl : a = "ident" ∨ a = "facility" := h (a, v) List.mem_cons_self
    · exact .inr (.inl ⟨v, rfl⟩)
    · exact .inr (.inr (.inl ⟨v, rfl⟩))
  · have hne : a ≠ b := by
      rintro rfl
      simp at hnodup
    obtain rfl | rfl : a = "ident" ∨ a = "facility" := h (a, v) (by simp)
    · obtain rfl | rfl : b = "ident" ∨ b = "facility" := h (b, w) (by simp)
      · exact absurd rfl hne
      · exact .inr (.inr (.inr (.inl ⟨v, w, rfl⟩)))
    · obtain rfl | rfl : b = "ident" ∨ b = "facility" := h (b, w) (by simp)
      · exact .inr (.inr (.inr (.inr ⟨v, w, rfl⟩)))
      · exact absurd rfl hne
  · -- two of three names are the same
    have ha : a = "ident" ∨ a = "facility" := h (a, v) (by simp)
    have hb : b = "ident" ∨ b = "facility" := h (b, w) (by simp)
    have hc : c = "ident" ∨ c = "facility" := h (c, x) (by simp)
    simp only [List.map_cons, List.nodup_cons, List.mem_cons, not_or] at hnodup
    obtain ⟨⟨hab, hac, -⟩, ⟨hbc, -⟩, -⟩ := hnodup
    grind

theorem mem_optionLists_syslog {ident : String} {facility : Facility} :
    opts ∈ (LogTarget.syslog ident facility).optionLists ↔
      opts = [("ident", ident), ("facility", facility.asStr)] ∨
      opts = [("facility", facility.asStr), ("ident", ident)] ∨
      (ident = defaultSyslogIdent ∧ opts = [("facility", facility.asStr)]) ∨
      (facility = .daemon ∧ opts = [("ident", ident)]) ∨
      ident = defaultSyslogIdent ∧ facility = .daemon ∧ opts = [] := by
  simp only [optionLists, List.mem_append, List.mem_cons, List.not_mem_nil, or_false,
    List.mem_ite_nil_right, and_assoc, or_assoc]

theorem noNul_defaultSyslogIdent : '\x00' ∉ defaultSyslogIdent.toList := by decide +kernel

/-- The options of the system log are at most one of each, in any order. -/
theorem syslogOptions_eq_ok_iff (hnodup : (opts.map Prod.fst).Nodup) {ident : String}
    {facility : Facility} :
    syslogOptions defaultSyslogIdent .daemon opts = .ok (ident, facility) ↔
      opts ∈ (LogTarget.syslog ident facility).optionLists ∧ '\x00' ∉ ident.toList := by
  have hname : "facility" ≠ "ident" := by decide
  rw [mem_optionLists_syslog]
  constructor
  · intro h
    obtain rfl | ⟨v, rfl⟩ | ⟨v, rfl⟩ | ⟨v, w, rfl⟩ | ⟨v, w, rfl⟩ :=
      syslog_options_cases hnodup (syslogOptions_names h)
    · cases h
      exact ⟨.inr (.inr (.inr (.inr ⟨rfl, rfl, rfl⟩))), noNul_defaultSyslogIdent⟩
    · obtain ⟨hnul, hrest⟩ := syslogOptions_ident h
      cases hrest
      exact ⟨.inr (.inr (.inr (.inl ⟨rfl, rfl⟩))), hnul⟩
    · obtain ⟨given, rfl, hrest⟩ := syslogOptions_facility h
      cases hrest
      exact ⟨.inr (.inr (.inl ⟨rfl, rfl⟩)), noNul_defaultSyslogIdent⟩
    · obtain ⟨hnul, hrest⟩ := syslogOptions_ident h
      obtain ⟨given, rfl, hend⟩ := syslogOptions_facility hrest
      cases hend
      exact ⟨.inl rfl, hnul⟩
    · obtain ⟨given, rfl, hrest⟩ := syslogOptions_facility h
      obtain ⟨hnul, hend⟩ := syslogOptions_ident hrest
      cases hend
      exact ⟨.inr (.inl rfl), hnul⟩
  · have hvalue : parseFacility facility.asStr = .ok facility := parseFacility_eq_ok_iff.mpr rfl
    rintro ⟨rfl | rfl | ⟨rfl, rfl⟩ | ⟨rfl, rfl⟩ | ⟨rfl, rfl, rfl⟩, hnul⟩
    · simp only [syslogOptions, if_true, if_neg hnul, if_neg hname, hvalue]
      rfl
    · simp only [syslogOptions, if_true, if_neg hnul, if_neg hname, hvalue]
      rfl
    · simp only [syslogOptions, if_true, if_neg hname, hvalue]
      rfl
    · simp only [syslogOptions, if_true, if_neg hnul]
    · rfl

/-- What the sinks themselves ask of their values. -/
def Sane : LogTarget → Prop
  | .stdout | .stderr | .journald => True
  | .file path _ => path ≠ ""
  | .syslog ident _ => '\x00' ∉ ident.toList

theorem rejectExtra_bind_eq_ok_iff {t t' : LogTarget} :
    (rejectExtra opts kind >>= fun _ => (pure t : Except LogTargetError LogTarget)) = .ok t' ↔
      opts = [] ∧ t' = t := by
  cases opts with
  | nil =>
      constructor
      · intro h
        cases h
        exact ⟨rfl, rfl⟩
      · rintro ⟨-, rfl⟩
        rfl
  | cons opt opts =>
      constructor
      · intro h
        cases h
      · rintro ⟨h, -⟩
        cases h

/-- A sink is made of its own value and options only. -/
theorem assemble_eq_ok_iff (hnodup : (opts.map Prod.fst).Nodup) {value : Option String}
    {t : LogTarget} :
    assemble kind value opts = .ok t ↔ (kind, value) = t.head ∧ opts ∈ t.optionLists ∧ t.Sane := by
  constructor
  · intro h
    simp only [assemble] at h
    split at h
    · next hkind =>
        split at h
        · cases h
        next hvalue =>
        obtain rfl : value = none := by simpa using hvalue
        obtain ⟨rfl, rfl⟩ := rejectExtra_bind_eq_ok_iff.mp h
        obtain rfl | rfl := hkind
        · exact ⟨rfl, List.mem_singleton_self _, trivial⟩
        · exact ⟨rfl, List.mem_singleton_self _, trivial⟩
    split at h
    · next hkind =>
        subst hkind
        split at h
        · cases h
        next path hpath =>
        obtain ⟨rfl, hne⟩ := Option.filter_eq_some_iff.mp hpath
        obtain ⟨rotation, hopts, hrest⟩ := bind_ok h
        cases hrest
        have hsane : path ≠ "" := by simpa using hne
        refine ⟨rfl, ?_, hsane⟩
        obtain rfl | ⟨rfl, rfl⟩ := (fileOptions_eq_ok_iff hnodup).mp hopts
        · exact List.mem_cons_self
        · exact List.mem_cons_of_mem _ (List.mem_singleton_self _)
    split at h
    · next hkind =>
        subst hkind
        split at h
        · cases h
        next hvalue =>
        obtain rfl : value = none := by simpa using hvalue
        obtain ⟨rfl, rfl⟩ := rejectExtra_bind_eq_ok_iff.mp h
        exact ⟨rfl, List.mem_singleton_self _, trivial⟩
    split at h
    · next hkind =>
        subst hkind
        split at h
        · cases h
        next hvalue =>
        obtain rfl : value = none := by simpa using hvalue
        obtain ⟨⟨ident, facility⟩, hopts, hrest⟩ := bind_ok h
        cases hrest
        exact ⟨rfl, (syslogOptions_eq_ok_iff hnodup).mp hopts⟩
    · cases h
  · rintro ⟨hhead, hopts, hsane⟩
    cases t with
    | stdout | stderr | journald =>
        cases hhead
        obtain rfl := List.mem_singleton.mp hopts
        rfl
    | file path rotation =>
        cases hhead
        have hread : fileOptions .never opts = .ok rotation := by
          rw [fileOptions_eq_ok_iff hnodup]
          simpa [optionLists, and_comm] using hopts
        have hne : path ≠ "" := hsane
        have hpath : (some path).filter (· ≠ "") = some path := by simpa using hne
        have hkind : ¬("file" = "stdout" ∨ "file" = "stderr") := by decide
        rw [assemble, if_neg hkind, if_pos rfl, hpath]
        dsimp only
        rw [hread]
        rfl
    | syslog ident facility =>
        cases hhead
        have hread := (syslogOptions_eq_ok_iff hnodup).mpr ⟨hopts, hsane⟩
        simp only [assemble, hread]
        rfl

end Options

section Spellings

variable {spec : String} {opts : Options} {t : LogTarget}

theorem splitHead_headText : splitHead t.headText = t.head := by
  cases t with
  | stdout | stderr | journald => rfl
  | syslog ident facility =>
      have hhead : splitHead "syslog" = ("syslog", none) := by decide
      exact hhead
  | file path rotation =>
      have hsplit : splitOnce '=' ("file" ++ "=" ++ path) = some ("file", path) :=
        splitOnce_append (by simp) (by decide)
      simp only [headText, head, splitHead, hsplit]

theorem headText_of_splitHead {text : String} (h : splitHead text = t.head) :
    text = t.headText := by
  simp only [splitHead] at h
  split at h
  · next kind value hsplit =>
      have htext := (splitOnce_eq_some_iff.mp hsplit).1
      rw [headText, ← h, ← String.toList_inj, htext]
      simp
  · rw [headText, ← h]

theorem joinOptions_toList (first : String) (rest : List String) :
    (joinOptions first rest).toList = [','].intercalate ((first :: rest).map String.toList) := by
  induction rest generalizing first with
  | nil => simp [joinOptions]
  | cons opt rest ih =>
      have hcomma : ",".toList = [','] := by decide
      rw [joinOptions, String.toList_append, String.toList_append, ih, hcomma]
      simp only [List.map_cons, List.intercalate_cons_cons]

/-- The parts of a text, joined again. -/
theorem joinOptions_splitChar {first : String} {rest : List String}
    (h : splitChar ',' spec = first :: rest) : joinOptions first rest = spec := by
  have htexts : (first :: rest).map String.toList = spec.toList.splitOn ',' := by
    rw [← h, splitChar, List.map_map]
    simp [Function.comp_def]
  rw [← String.toList_inj, joinOptions_toList, htexts, List.intercalate_splitOn]

theorem headText_file_toList (path : String) (rotation : Rotation) :
    (file path rotation).headText.toList = "file=".toList ++ path.toList := by
  simp [headText, head]

theorem noComma_headText (ht : t.WellFormed) : ',' ∉ t.headText.toList := by
  cases t with
  | stdout | stderr | journald => decide
  | syslog ident facility =>
      have hhead : ',' ∉ "syslog".toList := by decide
      exact hhead
  | file path rotation =>
      rw [headText_file_toList, List.mem_append]
      rintro (hmem | hmem)
      · exact absurd hmem (by decide)
      · exact ht.2 hmem

/-- An option of a target. -/
theorem option_of_mem (h : opts ∈ t.optionLists) {opt : String × String} (hopt : opt ∈ opts) :
    (∃ rotation : Rotation, opt = ("rotation", rotation.asStr)) ∨
      (∃ facility : Facility, opt = ("facility", facility.asStr)) ∨
      ∃ ident facility, t = .syslog ident facility ∧ opt = ("ident", ident) := by
  cases t with
  | stdout | stderr | journald =>
      obtain rfl := List.mem_singleton.mp h
      cases hopt
  | file path rotation =>
      obtain rfl | h := List.mem_cons.mp h
      · exact .inl ⟨rotation, List.mem_singleton.mp hopt⟩
      · obtain ⟨-, h⟩ := List.mem_ite_nil_right.mp h
        obtain rfl := List.mem_singleton.mp h
        cases hopt
  | syslog ident facility =>
      have hcases : opt = ("ident", ident) ∨ opt = ("facility", facility.asStr) := by
        obtain rfl | rfl | ⟨-, rfl⟩ | ⟨-, rfl⟩ | ⟨-, -, rfl⟩ := mem_optionLists_syslog.mp h
        all_goals simp at hopt
        · exact hopt
        · exact hopt.symm
        · exact .inr hopt
        · exact .inl hopt
      obtain rfl | rfl := hcases
      · exact .inr (.inr ⟨ident, facility, rfl, rfl⟩)
      · exact .inr (.inl ⟨facility, rfl⟩)

theorem nodup_of_mem (h : opts ∈ t.optionLists) : (opts.map Prod.fst).Nodup := by
  cases t with
  | stdout | stderr | journald =>
      obtain rfl := List.mem_singleton.mp h
      exact List.nodup_nil
  | file path rotation =>
      obtain rfl | h := List.mem_cons.mp h
      · exact List.nodup_singleton _
      · obtain ⟨-, h⟩ := List.mem_ite_nil_right.mp h
        obtain rfl := List.mem_singleton.mp h
        exact List.nodup_nil
  | syslog ident facility =>
      obtain rfl | rfl | ⟨-, rfl⟩ | ⟨-, rfl⟩ | ⟨-, -, rfl⟩ := mem_optionLists_syslog.mp h
      all_goals simp

/-- The options of a target that can be written are accepted by the loop, and stay apart. -/
theorem accepted_of_mem (ht : t.WellFormed) (h : opts ∈ t.optionLists) :
    Accepted [] opts ∧ ∀ part ∈ opts.map optionText, ',' ∉ part.toList := by
  have hgood : ∀ opt ∈ opts,
      '=' ∉ opt.1.toList ∧ opt.2 ≠ "" ∧ ',' ∉ (optionText opt).toList := by
    intro opt hopt
    obtain ⟨rotation, rfl⟩ | ⟨facility, rfl⟩ | ⟨ident, facility, rfl, rfl⟩ :=
      option_of_mem h hopt
    · cases rotation <;> decide
    · cases facility <;> decide
    · have hequals : '=' ∉ "ident".toList := by decide
      have hcomma : ',' ∉ "ident".toList := by decide
      refine ⟨hequals, ht.1, ?_⟩
      rw [optionText_toList, List.mem_append, List.mem_cons]
      rintro (hmem | hmem | hmem)
      · exact hcomma hmem
      · exact absurd hmem (by decide)
      · exact ht.2.1 hmem
  refine ⟨⟨fun opt hopt => (hgood opt hopt).1, fun opt hopt => (hgood opt hopt).2.1,
    nodup_of_mem h⟩, fun part hpart => ?_⟩
  obtain ⟨opt, hopt, rfl⟩ := List.mem_map.mp hpart
  exact (hgood opt hopt).2.2

theorem WellFormed.sane (ht : t.WellFormed) : t.Sane := by
  cases t with
  | stdout | stderr | journald => trivial
  | file path rotation => exact ht.1
  | syslog ident facility => exact ht.2.2

/-- What is read was written with the values of the target. -/
theorem wellFormed_of_read (hsane : t.Sane) (hopts : opts ∈ t.optionLists)
    (hvalues : ∀ opt ∈ opts, opt.2 ≠ "") (hfirst : ',' ∉ t.headText.toList)
    (hparts : ∀ part ∈ opts.map optionText, ',' ∉ part.toList) : t.WellFormed := by
  cases t with
  | stdout | stderr | journald => trivial
  | file path rotation =>
      refine ⟨hsane, fun hmem => hfirst ?_⟩
      rw [headText_file_toList]
      exact List.mem_append_right _ hmem
  | syslog ident facility =>
      have hident : ident = defaultSyslogIdent ∨ ("ident", ident) ∈ opts := by
        obtain rfl | rfl | ⟨hident, -⟩ | ⟨-, rfl⟩ | ⟨hident, -, -⟩ :=
          mem_optionLists_syslog.mp hopts
        · exact .inr (by simp)
        · exact .inr (by simp)
        · exact .inl hident
        · exact .inr (by simp)
        · exact .inl hident
      obtain rfl | hmem := hident
      · exact ⟨by decide, by decide, hsane⟩
      · refine ⟨hvalues _ hmem, fun hcomma => ?_, hsane⟩
        apply hparts _ (List.mem_map_of_mem hmem)
        rw [optionText_toList]
        exact List.mem_append_right _ (List.mem_cons_of_mem _ hcomma)

/-- The texts that are accepted as a target are its spellings, if it can be written at all. -/
theorem fromStr_eq_ok_iff : fromStr spec = .ok t ↔ t.WellFormed ∧ spec ∈ t.spellings := by
  constructor
  · intro h
    obtain ⟨first, rest, hparts⟩ : ∃ first rest, splitChar ',' spec = first :: rest :=
      List.exists_cons_of_ne_nil (by simp [splitChar, List.splitOn_ne_nil])
    obtain ⟨opts, hread, hassemble⟩ := bind_ok h
    rw [hparts] at hread hassemble
    obtain ⟨rfl, haccepted⟩ := readOptions_nil_eq_ok_iff.mp hread
    obtain ⟨hhead, hopts, hsane⟩ := (assemble_eq_ok_iff haccepted.once).mp hassemble
    obtain rfl : first = t.headText := headText_of_splitHead hhead
    have hcommas : ∀ part ∈ t.headText :: opts.map optionText, ',' ∉ part.toList := by
      rw [← hparts]
      exact fun part hpart => notMem_of_mem_splitChar hpart
    obtain ⟨hfirst, hrest⟩ := List.forall_mem_cons.mp hcommas
    refine ⟨wellFormed_of_read hsane hopts haccepted.value hfirst hrest, ?_⟩
    exact List.mem_map.mpr ⟨opts, hopts, joinOptions_splitChar hparts⟩
  · rintro ⟨ht, hspec⟩
    obtain ⟨opts, hopts, rfl⟩ := List.mem_map.mp hspec
    obtain ⟨haccepted, hparts⟩ := accepted_of_mem ht hopts
    have hsplit := splitChar_joinOptions (noComma_headText ht) hparts
    have hread : readOptions (joinOptions t.headText (opts.map optionText)) []
        (opts.map optionText) = .ok opts :=
      readOptions_nil_eq_ok_iff.mpr ⟨rfl, haccepted⟩
    have hassemble := (assemble_eq_ok_iff (nodup_of_mem hopts)).mpr ⟨rfl, hopts, ht.sane⟩
    simp only [fromStr, hsplit, List.headD_cons, List.tail_cons, hread, splitHead_headText]
    exact hassemble

/-- The options that `Display` writes. -/
def displayed : LogTarget → Options
  | .stdout | .stderr | .journald => []
  | .file _ rotation => if rotation = .never then [] else [("rotation", rotation.asStr)]
  | .syslog ident facility =>
      (if ident = defaultSyslogIdent then [] else [("ident", ident)]) ++
        if facility = .daemon then [] else [("facility", facility.asStr)]

theorem displayed_mem (t : LogTarget) : t.displayed ∈ t.optionLists := by
  cases t with
  | stdout | stderr | journald => exact List.mem_singleton_self _
  | file path rotation =>
      by_cases hrotation : rotation = .never
      · simp [displayed, optionLists, hrotation]
      · simp [displayed, optionLists, hrotation]
  | syslog ident facility =>
      rw [mem_optionLists_syslog]
      by_cases hident : ident = defaultSyslogIdent
      · by_cases hfacility : facility = .daemon
        · simp [displayed, hident, hfacility]
        · simp [displayed, hident, hfacility]
      · by_cases hfacility : facility = .daemon
        · simp [displayed, hident, hfacility]
        · simp [displayed, hident, hfacility]

theorem display_eq (t : LogTarget) :
    t.display = joinOptions t.headText (t.displayed.map optionText) := by
  rw [← String.toList_inj]
  cases t with
  | stdout | stderr | journald => rfl
  | file path rotation =>
      by_cases hrotation : rotation = .never
      · simp [display, displayed, hrotation, joinOptions, headText, head]
      · simp [display, displayed, hrotation, joinOptions, headText, head, optionText]
  | syslog ident facility =>
      by_cases hident : ident = defaultSyslogIdent
      · by_cases hfacility : facility = .daemon
        · simp [display, displayed, hident, hfacility, joinOptions, headText, head]
        · simp [display, displayed, hident, hfacility, joinOptions, headText, head, optionText]
      · by_cases hfacility : facility = .daemon
        · simp [display, displayed, hident, hfacility, joinOptions, headText, head, optionText]
        · simp [display, displayed, hident, hfacility, joinOptions, headText, head, optionText]

theorem display_mem_spellings (t : LogTarget) : t.display ∈ t.spellings :=
  List.mem_map.mpr ⟨t.displayed, displayed_mem t, (display_eq t).symm⟩

/-- The accepted texts are the spellings of the targets that can be written. There are at most
five of each target, the displayed one is among them, and what is displayed of an accepted text
is accepted as the same target. -/
theorem accepted_specs (spec : String) (t : LogTarget) :
    (fromStr spec = .ok t ↔ t.WellFormed ∧ spec ∈ t.spellings) ∧
      t.spellings.length ≤ 5 ∧ (fromStr spec = .ok t → fromStr t.display = .ok t) := by
  refine ⟨fromStr_eq_ok_iff, ?_, fun h => ?_⟩
  · rw [spellings, List.length_map]
    cases t with
    | stdout | stderr | journald => decide
    | file path rotation =>
        simp only [optionLists, List.length_cons]
        split <;> simp
    | syslog ident facility =>
        simp only [optionLists, List.length_append, List.length_cons, List.length_nil]
        split <;> split <;> split <;> simp
  · exact fromStr_eq_ok_iff.mpr ⟨(fromStr_eq_ok_iff.mp h).1, display_mem_spellings t⟩

end Spellings

section Refusals

variable {spec value kind : String} {opts : Options} {parts : List String} {e : LogTargetError}

/-- The error is about something in the text. -/
def About (e : LogTargetError) (text : String) : Prop := e.piece.toList <:+: text.toList

theorem about_name {name : String} (he : e.piece = name ++ "=") :
    About e (optionText (name, value)) := by
  refine ⟨[], value.toList, ?_⟩
  rw [he, optionText_toList]
  simp

theorem about_value {name : String} (he : e.piece = value) :
    About e (optionText (name, value)) := by
  refine ⟨name.toList ++ ['='], [], ?_⟩
  rw [he, optionText_toList]
  simp

theorem readOptions_error (h : readOptions spec opts parts = .error e) :
    About e spec ∨ ∃ part ∈ parts, About e part := by
  induction parts generalizing opts with
  | nil => cases h
  | cons part parts ih =>
      simp only [readOptions] at h
      split at h
      · cases h
        exact .inl List.infix_rfl
      split at h
      · cases h
        exact .inr ⟨part, List.mem_cons_self, List.infix_rfl⟩
      next name value hsplit =>
      obtain rfl := optionText_of_split hsplit
      split at h
      · cases h
        exact .inr ⟨_, List.mem_cons_self, about_name rfl⟩
      split at h
      · cases h
        exact .inr ⟨_, List.mem_cons_self, about_name rfl⟩
      · obtain hspec | ⟨part, hpart, habout⟩ := ih h
        · exact .inl hspec
        · exact .inr ⟨part, List.mem_cons_of_mem _ hpart, habout⟩

theorem bind_eq_error {ε α β : Type} {x : Except ε α} {f : α → Except ε β} {e : ε}
    (h : (x >>= f) = .error e) : x = .error e ∨ ∃ a, x = .ok a ∧ f a = .error e := by
  cases x with
  | error e' =>
      cases h
      exact .inl rfl
  | ok a => exact .inr ⟨a, rfl, h⟩

theorem parseRotation_error (h : parseRotation value = .error e) : e.piece = value := by
  unfold parseRotation at h
  repeat' split at h
  all_goals cases h
  rfl

theorem parseFacility_error (h : parseFacility value = .error e) : e.piece = value := by
  unfold parseFacility at h
  repeat' split at h
  all_goals cases h
  rfl

theorem fileOptions_error {rotation : Rotation} (h : fileOptions rotation opts = .error e) :
    ∃ opt ∈ opts, About e (optionText opt) := by
  induction opts generalizing rotation with
  | nil => cases h
  | cons opt opts ih =>
      obtain ⟨name, value⟩ := opt
      simp only [fileOptions] at h
      split at h
      · obtain hvalue | ⟨next', -, hrest⟩ := bind_eq_error h
        · exact ⟨_, List.mem_cons_self, about_value (parseRotation_error hvalue)⟩
        · obtain ⟨opt, hopt, habout⟩ := ih hrest
          exact ⟨opt, List.mem_cons_of_mem _ hopt, habout⟩
      · cases h
        exact ⟨_, List.mem_cons_self, about_name rfl⟩

theorem syslogOptions_error {ident : String} {facility : Facility}
    (h : syslogOptions ident facility opts = .error e) :
    ∃ opt ∈ opts, About e (optionText opt) := by
  induction opts generalizing ident facility with
  | nil => cases h
  | cons opt opts ih =>
      obtain ⟨name, value⟩ := opt
      have hlater : ∀ {ident facility}, syslogOptions ident facility opts = .error e →
          ∃ opt ∈ (name, value) :: opts, About e (optionText opt) := by
        intro ident facility hrest
        obtain ⟨opt, hopt, habout⟩ := ih hrest
        exact ⟨opt, List.mem_cons_of_mem _ hopt, habout⟩
      simp only [syslogOptions] at h
      split at h
      · next hname =>
          split at h
          · cases h
            refine ⟨_, List.mem_cons_self, [], '=' :: value.toList, ?_⟩
            rw [optionText_toList, hname]
            rfl
          · exact hlater h
      split at h
      · obtain hvalue | ⟨next', -, hrest⟩ := bind_eq_error h
        · exact ⟨_, List.mem_cons_self, about_value (parseFacility_error hvalue)⟩
        · exact hlater hrest
      · cases h
        exact ⟨_, List.mem_cons_self, about_name rfl⟩

theorem rejectExtra_error {t : LogTarget}
    (h : (rejectExtra opts kind >>= fun _ => (pure t : Except LogTargetError LogTarget)) =
      .error e) : ∃ opt ∈ opts, About e (optionText opt) := by
  cases opts with
  | nil => cases h
  | cons opt opts =>
      cases h
      exact ⟨opt, List.mem_cons_self, about_name rfl⟩

theorem assemble_error {value : Option String} (h : assemble kind value opts = .error e) :
    About e kind ∨ ∃ opt ∈ opts, About e (optionText opt) := by
  simp only [assemble] at h
  split at h
  · split at h
    · cases h
      exact .inl List.infix_rfl
    · exact .inr (rejectExtra_error h)
  split at h
  · next hkind =>
      split at h
      · cases h
        exact .inl (hkind ▸ List.infix_rfl)
      · obtain hopts | ⟨rotation, -, hrest⟩ := bind_eq_error h
        · exact .inr (fileOptions_error hopts)
        · cases hrest
  split at h
  · next hkind =>
      split at h
      · cases h
        exact .inl (hkind ▸ List.infix_rfl)
      · exact .inr (rejectExtra_error h)
  split at h
  · next hkind =>
      split at h
      · cases h
        exact .inl (hkind ▸ List.infix_rfl)
      · obtain hopts | ⟨result, -, hrest⟩ := bind_eq_error h
        · exact .inr (syslogOptions_error hopts)
        · cases hrest
  · cases h
    exact .inl List.infix_rfl

theorem infix_joinOptions {first part : String} {rest : List String} (h : part ∈ first :: rest) :
    part.toList <:+: (joinOptions first rest).toList := by
  induction rest generalizing first with
  | nil =>
      obtain rfl := List.mem_singleton.mp h
      exact List.infix_rfl
  | cons opt rest ih =>
      rw [joinOptions, String.toList_append]
      obtain rfl | h := List.mem_cons.mp h
      · rw [String.toList_append, List.append_assoc]
        exact (List.prefix_append _ _).isInfix
      · exact (ih h).trans (List.suffix_append _ _).isInfix

theorem kind_within (text : String) : (splitHead text).1.toList <:+: text.toList := by
  simp only [splitHead]
  split
  · next kind value hsplit =>
      rw [(splitOnce_eq_some_iff.mp hsplit).1]
      exact (List.prefix_append _ _).isInfix
  · exact List.infix_rfl

/-- An error is about a piece of the spec. -/
theorem fromStr_error (h : fromStr spec = .error e) : About e spec := by
  obtain ⟨first, rest, hparts⟩ : ∃ first rest, splitChar ',' spec = first :: rest :=
    List.exists_cons_of_ne_nil (by simp [splitChar, List.splitOn_ne_nil])
  have hwithin : ∀ part ∈ first :: rest, part.toList <:+: spec.toList := by
    intro part hpart
    rw [← joinOptions_splitChar hparts]
    exact infix_joinOptions hpart
  rw [fromStr, hparts] at h
  obtain hread | ⟨opts, hread, hassemble⟩ := bind_eq_error h
  · obtain hspec | ⟨part, hpart, habout⟩ := readOptions_error hread
    · exact hspec
    · exact habout.trans (hwithin part (List.mem_cons_of_mem _ hpart))
  · obtain ⟨hrest, -⟩ := readOptions_nil_eq_ok_iff.mp hread
    obtain hkind | ⟨opt, hopt, habout⟩ := assemble_error hassemble
    · exact hkind.trans ((kind_within first).trans (hwithin first List.mem_cons_self))
    · refine habout.trans (hwithin _ (List.mem_cons_of_mem _ ?_))
      have hmem : optionText opt ∈ opts.map optionText := List.mem_map_of_mem hopt
      rwa [← hrest] at hmem

theorem message_quotes (e : LogTargetError) : About e e.message := by
  refine ⟨e.around.1.toList, e.around.2.toList, ?_⟩
  rw [LogTargetError.message, String.toList_append, String.toList_append]

/-- A refusal is about a piece of the spec, and its message quotes it. -/
theorem refusal_quotes_piece (spec : String) (e : LogTargetError) (h : fromStr spec = .error e) :
    e.piece.toList <:+: spec.toList ∧ e.piece.toList <:+: e.message.toList :=
  ⟨fromStr_error h, message_quotes e⟩

end Refusals

end LogTarget

/-- When colours are written. -/
inductive ColorChoice where
  | auto
  | always
  | never
  deriving DecidableEq, Repr

/-- `ColorChoice::from_str`. -/
def ColorChoice.fromStr (s : String) : Except String ColorChoice :=
  if s = "auto" then .ok .auto
  else if s = "always" then .ok .always
  else if s = "never" then .ok .never
  else .error ("--log-color must be one of: auto, always, never (got '" ++ s ++ "')")

inductive LogFormat where
  | pretty
  | full
  | compact
  | json
  deriving DecidableEq, Repr

/-- `LogFormat::from_str`. -/
def LogFormat.fromStr (s : String) : Except String LogFormat :=
  if s = "pretty" ∨ s = "full" then .ok .full
  else if s = "verbose" then .ok .pretty
  else if s = "compact" then .ok .compact
  else if s = "json" then .ok .json
  else .error ("--log-format must be one of: pretty, full, verbose, compact, json (got '" ++
    s ++ "')")

structure LogOptions where
  level : String
  format : LogFormat
  color : ColorChoice
  targets : List LogTarget
  deriving DecidableEq, Repr

/-- The targets of `log_options`. -/
def logTargets (logTarget : List String) : Except String (List LogTarget) :=
  if logTarget = [] then .ok [.stdout]
  else logTarget.mapM fun s => (LogTarget.fromStr s).mapError LogTargetError.message

/-- `Args::log_options`. -/
def logOptions (logTarget : List String) (logLevel logFormat logColor : String) :
    Except String LogOptions := do
  let targets ← logTargets logTarget
  let format ← LogFormat.fromStr logFormat
  let color ← ColorChoice.fromStr logColor
  return { level := logLevel, format, color, targets }

theorem mapM_fromStr_ok {texts : List String} {targets : List LogTarget}
    (h : (texts.mapM fun s => (LogTarget.fromStr s).mapError LogTargetError.message) =
      .ok targets) :
    List.Forall₂ (fun text t => t.WellFormed ∧ text ∈ t.spellings) texts targets := by
  induction texts generalizing targets with
  | nil =>
      cases h
      exact .nil
  | cons text texts ih =>
      rw [List.mapM_cons] at h
      obtain ⟨t, ht, h⟩ := bind_ok h
      obtain ⟨rest, hrest, h⟩ := bind_ok h
      cases h
      refine .cons (LogTarget.fromStr_eq_ok_iff.mp ?_) (ih hrest)
      cases hread : LogTarget.fromStr text with
      | error e =>
          rw [hread] at ht
          cases ht
      | ok t' =>
          rw [hread] at ht
          cases ht
          rfl

theorem mapError_ok {ε ε' α : Type} {x : Except ε α} {f : ε → ε'} {a : α}
    (h : x.mapError f = .ok a) : x = .ok a := by
  cases x with
  | error e => cases h
  | ok b =>
      cases h
      rfl

/-- The last two checks. -/
theorem Args.validate_logging {Addr : Type} {m : LowercaseMapping}
    {parseAddr : String → Option Addr} {tlsTermination : Bool} {logOptions : Except String Unit}
    {args : Args} (h : args.validate m parseAddr tlsTermination logOptions = .ok ()) :
    logOptions = .ok () ∧
      args.logLevel ∈ ["trace", "debug", "info", "warn", "error", "off"] := by
  obtain ⟨_, -, h⟩ := bind_ok h
  obtain ⟨_, -, h⟩ := bind_ok h
  obtain ⟨_, -, h⟩ := bind_ok h
  obtain ⟨_, -, h⟩ := bind_ok h
  obtain ⟨_, -, h⟩ := bind_ok h
  obtain ⟨_, -, h⟩ := bind_ok h
  obtain ⟨_, -, h⟩ := bind_ok h
  obtain ⟨_, -, h⟩ := bind_ok h
  obtain ⟨_, -, h⟩ := bind_ok h
  obtain ⟨_, -, h⟩ := bind_ok h
  obtain ⟨_, -, h⟩ := bind_ok h
  obtain ⟨_, -, h⟩ := bind_ok h
  obtain ⟨_, -, h⟩ := bind_ok h
  obtain ⟨_, -, h⟩ := bind_ok h
  obtain ⟨_, -, h⟩ := bind_ok h
  obtain ⟨_, -, h⟩ := bind_ok h
  obtain ⟨_, hoptions, hlevel⟩ := bind_ok h
  exact ⟨mapError_ok hoptions, of_decide_eq_true (require_ok hlevel)⟩

theorem logOptions_ok {logTarget : List String} {logLevel logFormat logColor : String}
    {opts : LogOptions} (h : logOptions logTarget logLevel logFormat logColor = .ok opts) :
    opts.level = logLevel ∧ logTargets logTarget = .ok opts.targets := by
  obtain ⟨targets, htargets, h⟩ := bind_ok h
  obtain ⟨format, -, h⟩ := bind_ok h
  obtain ⟨color, -, h⟩ := bind_ok h
  cases h
  exact ⟨rfl, htargets⟩

/-- The check of the arguments leaves nothing for the logging surface to refuse: its options can
be built, with a level that is known and with the sinks that were named, in their order. -/
theorem logOptions_of_validate {Addr : Type} {m : LowercaseMapping}
    {parseAddr : String → Option Addr} {tlsTermination : Bool} {args : Args}
    {logTarget : List String} {logFormat logColor : String}
    (h : args.validate m parseAddr tlsTermination
      ((logOptions logTarget args.logLevel logFormat logColor).map fun _ => ()) = .ok ()) :
    ∃ opts, logOptions logTarget args.logLevel logFormat logColor = .ok opts ∧
      opts.level ∈ ["trace", "debug", "info", "warn", "error", "off"] ∧
      (logTarget = [] ∧ opts.targets = [.stdout] ∨
        List.Forall₂ (fun text t => t.WellFormed ∧ text ∈ t.spellings) logTarget
          opts.targets) := by
  obtain ⟨hoptions, hlevel⟩ := Args.validate_logging h
  cases hbuilt : logOptions logTarget args.logLevel logFormat logColor with
  | error e =>
      rw [hbuilt] at hoptions
      cases hoptions
  | ok opts =>
      obtain ⟨hsame, htargets⟩ := logOptions_ok hbuilt
      refine ⟨opts, rfl, hsame ▸ hlevel, ?_⟩
      by_cases hnone : logTarget = []
      · rw [logTargets, if_pos hnone] at htargets
        exact .inl ⟨hnone, (Except.ok.inj htargets).symm⟩
      · rw [logTargets, if_neg hnone] at htargets
        exact .inr (mapM_fromStr_ok htargets)

end ZenohBridge
