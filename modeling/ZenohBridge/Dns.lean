import Mathlib.Data.List.Basic
import Mathlib.Data.String.Basic

/-!
# Routing keys and service names

A host that a client names (`Host`, SNI, `:authority`) and a host that an operator
writes in a `--backend` spec are turned into routing keys by the same normalisation:
lower case, no IPv6 brackets, no port. A routing key becomes one segment of the Zenoh
keys, so both sides accept only characters without a meaning there.

## Implementation notes

The errors of the source are texts; here each of them is a constructor that holds what
the text names. The Unicode tables behind `str::to_lowercase` grow with every version of
Unicode, so the lower-case mapping is a parameter with the properties that all versions
share.
-/

namespace ZenohBridge

/-- The character whose lower case is an ASCII letter without being ASCII itself. -/
def kelvinSign : Char := Char.ofNat 0x212A

/-- The Unicode lower-case mapping. A character may become several, and a capital sigma
depends on the characters around it. Of the characters outside ASCII only the Kelvin sign
is mapped into ASCII as a whole. -/
structure LowercaseMapping where
  lower : (before : List Char) → Char → (after : List Char) → List Char
  ascii : ∀ before c after, c.toNat < 128 → lower before c after = [c.toLower]
  kelvin : ∀ before after, lower before kelvinSign after = ['k']
  wide : ∀ before c after, 128 ≤ c.toNat → c ≠ kelvinSign →
    ∃ d ∈ lower before c after, 128 ≤ d.toNat

namespace LowercaseMapping

/-- The lower case of the rest of a text, given what stands before it. -/
def lowerRest (m : LowercaseMapping) (before : List Char) : List Char → List Char
  | [] => []
  | c :: after => m.lower before c after ++ m.lowerRest (before ++ [c]) after

/-- `str::to_lowercase`. -/
def toLowercase (m : LowercaseMapping) (s : String) : String :=
  String.ofList (m.lowerRest [] s.toList)

/-- A mapping that changes ASCII letters and the Kelvin sign only. -/
def narrow : LowercaseMapping where
  lower _ c _ := if c = kelvinSign then ['k'] else [c.toLower]
  ascii := by
    intro _ c _ hc
    have hne : c ≠ kelvinSign := by
      rintro rfl
      exact absurd hc (by decide)
    rw [if_neg hne]
  kelvin := by
    intro _ _
    rw [if_pos rfl]
  wide := by
    intro _ c _ hc hne
    have hlower : c.toLower = c := by
      apply dif_neg
      rintro ⟨-, hle⟩
      have hval : c.toNat ≤ 90 := UInt32.le_iff_toNat_le.mp hle
      omega
    rw [if_neg hne, hlower]
    exact ⟨c, List.mem_singleton_self c, hc⟩

end LowercaseMapping

/-- `str::split_once`: what stands before and after the first occurrence. -/
def splitOnce (sep : Char) (s : String) : Option (String × String) :=
  match s.toList.span (fun c => c ≠ sep) with
  | (before, _ :: after) => some (String.ofList before, String.ofList after)
  | (_, []) => none

/-- `str::strip_prefix` for one character. -/
def stripChar (c : Char) (s : String) : Option String :=
  match s.toList with
  | [] => none
  | x :: rest => if x = c then some (String.ofList rest) else none

/-- `str::parse::<u16>`: an optional `+` and decimal digits whose value fits. -/
def parseU16 (s : String) : Option Nat :=
  let digits := match s.toList with
    | '+' :: rest => rest
    | text => text
  if digits ≠ [] ∧ digits.all Char.isDigit then
    let value := digits.foldl (fun n c => 10 * n + (c.toNat - '0'.toNat)) 0
    if value < 2 ^ 16 then some value else none
  else none

/-- `s.chars().filter(|&c| c == ':').count()`. -/
def colonCount (s : String) : Nat := s.toList.count ':'

/-- A bracketed IPv6 literal, alone or with a port: what stands between the brackets. -/
def bracketed (host : String) : Option String := do
  let rest ← stripChar '[' host
  let (inner, tail) ← splitOnce ']' rest
  if 0 < colonCount inner ∧ (tail = "" ∨ ((stripChar ':' tail).bind parseU16).isSome) then
    some inner
  else none

/-- `normalize_dns`. -/
def normalizeDns (m : LowercaseMapping) (host : String) : String :=
  let host := m.toLowercase host
  match bracketed host with
  | some inner => inner
  | none =>
      -- more than one colon: an IPv6 literal without brackets
      if 1 < colonCount host then host
      else match splitOnce ':' host with
        | some (name, port) => if (parseU16 port).isSome then name else host
        | none => host

/-- `has_explicit_port`. -/
def hasExplicitPort (host : String) : Bool :=
  match stripChar '[' host with
  | some rest =>
      (((splitOnce ']' rest).bind fun parts => stripChar ':' parts.2).bind parseU16).isSome
  | none =>
      decide (colonCount host = 1) &&
        ((splitOnce ':' host).bind fun parts => parseU16 parts.2).isSome

/-- `is_valid_key_char`. -/
def isValidKeyChar (c : Char) : Bool :=
  c.isAlphanum || c = '-' || c = '_' || c = '.' || c = ':'

/-- Why a host has no routing key. -/
inductive HostError where
  | emptyHost
  | strayColon
  | invalidChar (c : Char)
  | explicitPort (host : String)
  deriving DecidableEq, Repr

/-- `routing_key`: the key of a host that a client names. -/
def routingKey (m : LowercaseMapping) (host : String) : Except HostError String :=
  let dns := normalizeDns m host
  if dns = "" then .error .emptyHost
  else if colonCount dns = 1 then .error .strayColon
  else match dns.toList.find? fun c => !isValidKeyChar c with
    | some c => .error (.invalidChar c)
    | none => .ok dns

/-- `spec_host_key`: the key of a host that an operator writes. -/
def specHostKey (m : LowercaseMapping) (host : String) : Except HostError String :=
  if hasExplicitPort host then .error (.explicitPort host) else routingKey m host

/-- Why a service name is refused. -/
inductive ServiceNameError where
  | empty
  | invalidChar (name : String) (c : Char)
  deriving DecidableEq, Repr

/-- The characters of a service name. -/
def isServiceChar (c : Char) : Bool := c.isAlphanum || c = '-' || c = '_' || c = '.'

/-- `validate_service_name`. -/
def validateServiceName (name : String) : Except ServiceNameError Unit :=
  if name = "" then .error .empty
  else match name.toList.find? fun c => !isServiceChar c with
    | some c => .error (.invalidChar name c)
    | none => .ok ()

/-- A routing key is not empty and has valid characters only. -/
theorem routingKey_ok {m : LowercaseMapping} {host key : String} (h : routingKey m host = .ok key) :
    key ≠ "" ∧ ∀ c ∈ key.toList, isValidKeyChar c = true := by
  simp only [routingKey] at h
  split at h
  · cases h
  · rename_i hne
    split at h
    · cases h
    · split at h
      · cases h
      · rename_i hfind
        cases h
        constructor
        · exact hne
        · intro c hc
          simpa using List.find?_eq_none.mp hfind c hc

/-- The operator's key is a key that a client can name. -/
theorem specHostKey_ok {m : LowercaseMapping} {host key : String}
    (h : specHostKey m host = .ok key) : routingKey m host = .ok key := by
  simp only [specHostKey] at h
  split at h
  · cases h
  · exact h

theorem validateServiceName_ok {name : String} (h : validateServiceName name = .ok ()) :
    name ≠ "" ∧ ∀ c ∈ name.toList, isServiceChar c = true := by
  simp only [validateServiceName] at h
  split at h
  · cases h
  · rename_i hne
    split at h
    · cases h
    · rename_i hfind
      constructor
      · exact hne
      · intro c hc
        simpa using List.find?_eq_none.mp hfind c hc

end ZenohBridge
