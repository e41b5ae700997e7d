import Mathlib
import ZenohBridge.Dns

/-!
# The key space of hosts

`routing_key` and `spec_host_key` lower-case a host, unwrap brackets, strip a port and then
validate what is left. Here the composition is described once and for all: which texts are
routing keys, and which spellings of a host lead to a given key. Everything about the two
functions follows from that description.

## Implementation notes

Validation runs after lower-casing. A character outside ASCII that stays outside is never
part of a port or of the brackets, so it is still there when the validators look.
-/

namespace ZenohBridge

section Text

variable {sep c : Char} {s t a b p : String}

theorem splitOnce_of_notMem (h : sep ∉ s.toList) : splitOnce sep s = none := by
  have hall : ∀ x ∈ s.toList, decide (x ≠ sep) = true := by
    intro x hx
    have hne : x ≠ sep := fun heq => h (heq ▸ hx)
    simpa using hne
  simp only [splitOnce, List.span_eq_takeWhile_dropWhile]
  rw [List.dropWhile_eq_nil_iff.mpr hall]

theorem splitOnce_append (hs : s.toList = a.toList ++ sep :: b.toList) (ha : sep ∉ a.toList) :
    splitOnce sep s = some (a, b) := by
  have hall : ∀ x ∈ a.toList, decide (x ≠ sep) = true := by
    intro x hx
    have hne : x ≠ sep := fun heq => ha (heq ▸ hx)
    simpa using hne
  simp only [splitOnce, List.span_eq_takeWhile_dropWhile]
  rw [hs, List.takeWhile_append_of_pos hall, List.dropWhile_append_of_pos hall]
  simp

theorem splitOnce_eq_some_iff :
    splitOnce sep s = some (a, b) ↔ s.toList = a.toList ++ sep :: b.toList ∧ sep ∉ a.toList := by
  constructor
  · intro h
    by_cases hmem : sep ∈ s.toList
    · obtain ⟨before, after, hs, hbefore⟩ := List.eq_append_cons_of_mem hmem
      have hsplit : splitOnce sep s = some (.ofList before, .ofList after) :=
        splitOnce_append (by simpa using hs) (by simpa using hbefore)
      obtain ⟨rfl, rfl⟩ := Prod.mk.inj (Option.some.inj (hsplit.symm.trans h))
      simpa using ⟨hs, hbefore⟩
    · rw [splitOnce_of_notMem hmem] at h
      cases h
  · rintro ⟨hs, ha⟩
    exact splitOnce_append hs ha

theorem stripChar_eq_some_iff : stripChar c s = some t ↔ s.toList = c :: t.toList := by
  simp only [stripChar]
  split
  · simp_all
  · rename_i x rest heq
    rw [heq]
    split
    · rename_i hx
      simp [hx, ← String.toList_inj]
    · rename_i hx
      simp [hx]

@[simp] theorem colonCount_eq_zero_iff : colonCount s = 0 ↔ ':' ∉ s.toList :=
  List.count_eq_zero

/-- A text that `str::parse::<u16>` accepts. -/
def IsPort (p : String) : Prop := (parseU16 p).isSome = true

/-- The value of a text of decimal digits. -/
def decimalValue (p : String) : Nat :=
  p.toList.foldl (fun n c => 10 * n + (c.toNat - '0'.toNat)) 0

/-- A non-empty text of decimal digits whose value is at most 65535. -/
structure IsDecimalPort (p : String) : Prop where
  nonempty : p ≠ ""
  digits : ∀ c ∈ p.toList, c.isDigit = true
  bound : decimalValue p ≤ 65535

theorem isDecimalPort_iff :
    IsDecimalPort p ↔ (p.toList ≠ [] ∧ p.toList.all Char.isDigit = true) ∧
      decimalValue p < 2 ^ 16 := by
  constructor
  · intro h
    refine ⟨⟨?_, List.all_eq_true.mpr h.digits⟩, Nat.lt_succ_of_le h.bound⟩
    intro hnil
    exact h.nonempty (String.toList_inj.mp hnil)
  · rintro ⟨⟨hne, hall⟩, hlt⟩
    refine ⟨?_, List.all_eq_true.mp hall, Nat.le_of_lt_succ hlt⟩
    rintro rfl
    exact hne rfl

/-- A value behind two guards is there when both hold. -/
theorem isSome_guarded {a b : Prop} [Decidable a] [Decidable b] {value : Nat} :
    (if a then if b then some value else none else none).isSome = true ↔ a ∧ b := by
  by_cases ha : a
  · rw [if_pos ha, Option.isSome_ite]
    exact (and_iff_right ha).symm
  · rw [if_neg ha, Option.isSome_none]
    simp only [Bool.false_eq_true, ha, false_and]

theorem isPort_plus : IsPort ("+" ++ p) ↔ IsDecimalPort p := by
  have htext : ("+" ++ p).toList = '+' :: p.toList := by simp
  rw [isDecimalPort_iff]
  simp only [IsPort, parseU16, htext, decimalValue]
  exact isSome_guarded

theorem isPort_of_head (h : p.toList.head? ≠ some '+') : IsPort p ↔ IsDecimalPort p := by
  rw [isDecimalPort_iff]
  simp only [IsPort, parseU16, decimalValue]
  split
  · next rest hplus => exact absurd (congrArg List.head? hplus) h
  · exact isSome_guarded

theorem IsDecimalPort.isPort (h : IsDecimalPort p) : IsPort p := by
  apply (isPort_of_head ?_).mpr h
  intro hhead
  obtain ⟨rest, hrest⟩ := List.head?_eq_some_iff.mp hhead
  have hdigit := h.digits '+' (by simp [hrest])
  exact absurd hdigit (by decide)

/-- The integer parser takes decimal digits, with or without a plus sign. -/
theorem isPort_iff : IsPort p ↔ IsDecimalPort p ∨ ∃ q, p = "+" ++ q ∧ IsDecimalPort q := by
  constructor
  · intro h
    by_cases hhead : p.toList.head? = some '+'
    · obtain ⟨rest, hrest⟩ := List.head?_eq_some_iff.mp hhead
      have hp : p = "+" ++ String.ofList rest := by simp [← String.toList_inj, hrest]
      exact .inr ⟨_, hp, isPort_plus.mp (hp ▸ h)⟩
    · exact .inl ((isPort_of_head hhead).mp h)
  · rintro (h | ⟨q, rfl, h⟩)
    · exact h.isPort
    · exact isPort_plus.mpr h

theorem IsPort.toList_ne_nil (hp : IsPort p) : p.toList ≠ [] := by
  intro hnil
  obtain rfl : p = "" := String.toList_inj.mp hnil
  have hsome : (parseU16 "").isSome = true := hp
  exact absurd hsome (by decide)

theorem isAlpha_of_isDigit (h : c.isDigit = true) : c.isAlpha = false := by
  simp only [Char.isDigit, Char.isAlpha, Char.isUpper, Char.isLower, Bool.and_eq_true,
    decide_eq_true_eq, Bool.or_eq_false_iff, Bool.and_eq_false_iff, decide_eq_false_iff_not,
    UInt32.le_iff_toNat_le, ge_iff_le] at h ⊢
  simp at h ⊢
  omega

/-- The characters of a port. -/
theorem IsPort.chars (hp : IsPort p) : ∀ c ∈ p.toList, c.isDigit = true ∨ c = '+' := by
  intro c hc
  obtain h | ⟨q, rfl, h⟩ := isPort_iff.mp hp
  · exact .inl (h.digits c hc)
  · have hmem : c = '+' ∨ c ∈ q.toList := by simpa using hc
    exact hmem.symm.imp_left (h.digits c)

end Text

/-! ### Lower case -/

namespace LowercaseMapping

/-- The lower case of an ASCII character or the Kelvin sign. -/
def lowerChar (c : Char) : Char := if c = kelvinSign then 'k' else c.toLower

/-- A character whose lower case is ASCII. -/
def IsNarrow (c : Char) : Prop := c.toNat < 128 ∨ c = kelvinSign

variable (m : LowercaseMapping)

theorem lower_of_isNarrow {c : Char} (h : IsNarrow c) (before after : List Char) :
    m.lower before c after = [lowerChar c] := by
  by_cases hk : c = kelvinSign
  · rw [hk, m.kelvin, lowerChar, if_pos rfl]
  · rw [m.ascii _ _ _ (h.resolve_right hk), lowerChar, if_neg hk]

theorem lowerRest_of_isNarrow (before text : List Char) (h : ∀ c ∈ text, IsNarrow c) :
    m.lowerRest before text = text.map lowerChar := by
  induction text generalizing before with
  | nil => rfl
  | cons c after ih =>
      rw [lowerRest, m.lower_of_isNarrow (h c List.mem_cons_self),
        ih _ fun x hx => h x (List.mem_cons_of_mem _ hx)]
      rfl

/-- Without a wide character the lower case is taken character by character. -/
theorem toLowercase_of_isNarrow {s : String} (h : ∀ c ∈ s.toList, IsNarrow c) :
    (m.toLowercase s).toList = s.toList.map lowerChar := by
  rw [toLowercase, String.toList_ofList, m.lowerRest_of_isNarrow _ _ h]

theorem exists_wide_lowerRest (before text : List Char) {c : Char} (hc : c ∈ text)
    (h : ¬IsNarrow c) : ∃ d ∈ m.lowerRest before text, 128 ≤ d.toNat := by
  induction text generalizing before with
  | nil => cases hc
  | cons x after ih =>
      rw [lowerRest]
      obtain rfl | hc := List.mem_cons.mp hc
      · obtain ⟨hwide, hk⟩ := not_or.mp h
        obtain ⟨d, hd, hd'⟩ := m.wide before c after (Nat.le_of_not_lt hwide) hk
        exact ⟨d, List.mem_append_left _ hd, hd'⟩
      · obtain ⟨d, hd, hd'⟩ := ih _ hc
        exact ⟨d, List.mem_append_right _ hd, hd'⟩

/-- A wide character leaves a wide character in the lower case. -/
theorem exists_wide_toLowercase {s : String} {c : Char} (hc : c ∈ s.toList) (h : ¬IsNarrow c) :
    ∃ d ∈ (m.toLowercase s).toList, 128 ≤ d.toNat := by
  rw [toLowercase, String.toList_ofList]
  exact m.exists_wide_lowerRest _ _ hc h

theorem lowerChar_isUpper (c : Char) : (lowerChar c).isUpper = false := by
  rw [lowerChar]
  split
  · decide
  · exact Char.isUpper_toLower_eq_false c

theorem lowerChar_of_plain {c : Char} (h : c.toNat < 128) (hupper : c.isUpper = false) :
    lowerChar c = c := by
  have hk : c ≠ kelvinSign := by
    rintro rfl
    exact absurd h (by decide)
  rw [lowerChar, if_neg hk]
  apply Char.toLower_eq_of_not_isUpper
  simp [hupper]

/-- A text in ASCII without capitals. -/
def IsPlain (s : String) : Prop := ∀ c ∈ s.toList, c.toNat < 128 ∧ c.isUpper = false

theorem IsPlain.map_lowerChar {s : String} (h : IsPlain s) :
    s.toList.map lowerChar = s.toList := by
  conv_rhs => rw [← List.map_id s.toList]
  apply List.map_congr_left
  intro c hc
  exact lowerChar_of_plain (h c hc).1 (h c hc).2

theorem IsPlain.append {s t : String} (hs : IsPlain s) (ht : IsPlain t) : IsPlain (s ++ t) := by
  intro c hc
  obtain hc | hc := List.mem_append.mp (String.toList_append ▸ hc)
  · exact hs c hc
  · exact ht c hc

/-- A plain text is its own lower case. -/
theorem toLowercase_of_isPlain {s : String} (h : IsPlain s) : m.toLowercase s = s := by
  rw [← String.toList_inj, m.toLowercase_of_isNarrow fun c hc => .inl (h c hc).1,
    h.map_lowerChar]

/-- Plain texts around a narrow one keep their form. -/
theorem toLowercase_between {a s b : String} (ha : IsPlain a) (hs : ∀ c ∈ s.toList, IsNarrow c)
    (hb : IsPlain b) : m.toLowercase (a ++ s ++ b) = a ++ m.toLowercase s ++ b := by
  have hnarrow : ∀ c ∈ (a ++ s ++ b).toList, IsNarrow c := by
    intro c hc
    simp only [String.toList_append, List.mem_append] at hc
    obtain (hc | hc) | hc := hc
    · exact .inl (ha c hc).1
    · exact hs c hc
    · exact .inl (hb c hc).1
  rw [← String.toList_inj, m.toLowercase_of_isNarrow hnarrow]
  simp [m.toLowercase_of_isNarrow hs, ha.map_lowerChar, hb.map_lowerChar]

/-- Only letters and the Kelvin sign change. -/
theorem lowerChar_eq_iff {c d : Char} (hd : d.isAlpha = false) (hk : d ≠ kelvinSign) :
    lowerChar c = d ↔ c = d := by
  have hlower : ∀ x : Char, x.isAlpha = false → x.toLower = x := by
    intro x hx
    apply Char.toLower_eq_of_not_isUpper
    have := (Bool.or_eq_false_iff.mp hx).1
    simp [this]
  rw [lowerChar]
  constructor
  · intro h
    split at h
    · subst h
      cases hd
    · have hc : c.isAlpha = false := by
        rw [← Char.isAlpha_toLower_eq_isAlpha, h, hd]
      rw [← h, hlower c hc]
  · rintro rfl
    rw [if_neg hk, hlower c hd]

end LowercaseMapping

/-! ### Spellings of a key -/

/-- The characters of a routing key. -/
def IsKeyChar (c : Char) : Prop :=
  c.isLower = true ∨ c.isDigit = true ∨ c = '-' ∨ c = '_' ∨ c = '.' ∨ c = ':'

/-- The texts that are routing keys. -/
structure IsRoutingKey (key : String) : Prop where
  nonempty : key ≠ ""
  chars : ∀ c ∈ key.toList, IsKeyChar c
  colons : colonCount key ≠ 1

/-- The lower-case spellings of a host by its key. -/
inductive Spelling (key : String) : String → Prop where
  | bare : Spelling key key
  | brackets (h : 1 < colonCount key) : Spelling key ("[" ++ key ++ "]")
  | port (p : String) (h : colonCount key = 0) (hp : IsPort p) : Spelling key (key ++ ":" ++ p)
  | bracketsPort (p : String) (h : 1 < colonCount key) (hp : IsPort p) :
      Spelling key ("[" ++ key ++ "]:" ++ p)

/-- What `normalize_dns` makes of a text in lower case. -/
inductive Unwraps : String → String → Prop where
  | whole (text : String) : Unwraps text text
  | brackets (inner tail : String) (hcolon : 0 < colonCount inner)
      (htail : tail = "" ∨ ∃ p, tail = ":" ++ p ∧ IsPort p) :
      Unwraps ("[" ++ inner ++ "]" ++ tail) inner
  | port (name p : String) (hname : colonCount name = 0) (hp : IsPort p) :
      Unwraps (name ++ ":" ++ p) name

theorem bracketed_eq_some_iff {text inner : String} :
    bracketed text = some inner ↔
      ∃ tail, text = "[" ++ inner ++ "]" ++ tail ∧ ']' ∉ inner.toList ∧ 0 < colonCount inner ∧
        (tail = "" ∨ ∃ p, tail = ":" ++ p ∧ IsPort p) := by
  have hport : ∀ tail : String, ((stripChar ':' tail).bind parseU16).isSome = true ↔
      ∃ p, tail = ":" ++ p ∧ IsPort p := by
    intro tail
    have htail : ∀ p : String, tail = ":" ++ p ↔ stripChar ':' tail = some p := by
      intro p
      rw [stripChar_eq_some_iff, ← String.toList_inj]
      simp
    simp only [htail]
    cases stripChar ':' tail with
    | none => simp
    | some p => simp [IsPort]
  constructor
  · intro h
    obtain ⟨rest, hrest, h⟩ := Option.bind_eq_some_iff.mp h
    obtain ⟨⟨before, tail⟩, hsplit, h⟩ := Option.bind_eq_some_iff.mp h
    obtain ⟨hrest', hbefore⟩ := splitOnce_eq_some_iff.mp hsplit
    simp only at h
    split at h
    · rename_i hcond
      obtain rfl := Option.some.inj h
      refine ⟨tail, ?_, hbefore, hcond.1, hcond.2.imp_right (hport tail).mp⟩
      simp [← String.toList_inj, stripChar_eq_some_iff.mp hrest, hrest']
    · cases h
  · rintro ⟨tail, rfl, hinner, hcolon, htail⟩
    have hrest : stripChar '[' ("[" ++ inner ++ "]" ++ tail) = some (inner ++ "]" ++ tail) := by
      simp [stripChar_eq_some_iff]
    have hsplit : splitOnce ']' (inner ++ "]" ++ tail) = some (inner, tail) :=
      splitOnce_append (by simp) hinner
    simp only [bracketed, hrest, hsplit, bind, Option.bind_some]
    rw [if_pos ⟨hcolon, htail.imp_right (hport tail).mpr⟩]

theorem normalizeDns_unwraps (m : LowercaseMapping) (host : String) :
    Unwraps (m.toLowercase host) (normalizeDns m host) := by
  simp only [normalizeDns]
  split
  · rename_i inner hbr
    obtain ⟨tail, htext, -, hcolon, htail⟩ := bracketed_eq_some_iff.mp hbr
    rw [htext]
    exact .brackets inner tail hcolon htail
  · split
    · exact .whole _
    · split
      · rename_i name p hsplit
        split
        · rename_i hp
          obtain ⟨htext, hname⟩ := splitOnce_eq_some_iff.mp hsplit
          have : m.toLowercase host = name ++ ":" ++ p := by
            simp [← String.toList_inj, htext]
          rw [this]
          exact .port name p (colonCount_eq_zero_iff.mpr hname) hp
        · exact .whole _
      · exact .whole _

theorem isKeyChar_iff {c : Char} :
    IsKeyChar c ↔ isValidKeyChar c = true ∧ c.isUpper = false := by
  have hupper : c.isDigit = true ∨ c = '-' ∨ c = '_' ∨ c = '.' ∨ c = ':' → c.isUpper = false := by
    rintro (h | rfl | rfl | rfl | rfl)
    · exact (Bool.or_eq_false_iff.mp (isAlpha_of_isDigit h)).1
    all_goals decide
  have hvalid : isValidKeyChar c = true ↔ c.isUpper = true ∨ IsKeyChar c := by
    simp only [IsKeyChar, isValidKeyChar, Char.isAlphanum, Char.isAlpha, Bool.or_eq_true,
      decide_eq_true_eq, or_assoc]
  constructor
  · intro h
    refine ⟨hvalid.mpr (.inr h), ?_⟩
    obtain hlower | hother := h
    · exact Bool.eq_false_iff.mpr (Char.not_isUpper_of_isLower hlower)
    · exact hupper hother
  · rintro ⟨h, hu⟩
    exact (hvalid.mp h).resolve_left (Bool.eq_false_iff.mp hu)

/-- What survives normalisation is the key when it is valid. -/
theorem routingKey_ok_iff_normalizeDns {m : LowercaseMapping} {host key : String} :
    routingKey m host = .ok key ↔ normalizeDns m host = key ∧ key ≠ "" ∧ colonCount key ≠ 1 ∧
      ∀ c ∈ key.toList, isValidKeyChar c = true := by
  constructor
  · intro h
    obtain ⟨hne, hchars⟩ := routingKey_ok h
    simp only [routingKey] at h
    split at h
    · cases h
    · split at h
      · cases h
      · rename_i hcolons
        split at h
        · cases h
        · cases h
          exact ⟨rfl, hne, hcolons, hchars⟩
  · rintro ⟨rfl, hne, hcolons, hchars⟩
    have hfind : (normalizeDns m host).toList.find? (fun c => !isValidKeyChar c) = none := by
      apply List.find?_eq_none.mpr
      intro c hc
      simp [hchars c hc]
    simp only [routingKey]
    rw [if_neg hne, if_neg hcolons, hfind]

theorem IsPort.ascii {p : String} (hp : IsPort p) : ∀ c ∈ p.toList, c.toNat < 128 := by
  intro c hc
  obtain h | rfl := hp.chars c hc
  · simp only [Char.isDigit, Bool.and_eq_true, decide_eq_true_eq, UInt32.le_iff_toNat_le] at h
    have hle : c.toNat ≤ 57 := h.2
    omega
  · decide

/-- A wide character is never part of what is stripped. -/
theorem Unwraps.mem_of_wide {text key : String} (h : Unwraps text key) {d : Char}
    (hd : d ∈ text.toList) (hwide : 128 ≤ d.toNat) : d ∈ key.toList := by
  have hne : ∀ c : Char, c.toNat < 128 → d ≠ c := by
    rintro c hc rfl
    omega
  have hport : ∀ p : String, IsPort p → d ∉ p.toList := by
    intro p hp hmem
    exact hne d (hp.ascii d hmem) rfl
  cases h with
  | whole => exact hd
  | brackets _ tail _ htail =>
      have htail : d ∉ tail.toList := by
        obtain rfl | ⟨p, rfl, hp⟩ := htail
        · simp
        · simp [hne ':' (by decide), hport p hp]
      simpa [htail, hne '[' (by decide), hne ']' (by decide)] using hd
  | port _ p _ hp =>
      simpa [hport p hp, hne ':' (by decide)] using hd

theorem isValidKeyChar_ascii {c : Char} (h : isValidKeyChar c = true) : c.toNat < 128 := by
  simp only [isValidKeyChar, Char.isAlphanum, Char.isAlpha, Char.isUpper, Char.isLower,
    Char.isDigit, Bool.or_eq_true, Bool.and_eq_true, decide_eq_true_eq,
    UInt32.le_iff_toNat_le] at h
  obtain ((((((⟨-, h⟩ | ⟨-, h⟩) | ⟨-, h⟩) | rfl) | rfl) | rfl) | rfl) := h
  · exact Nat.lt_of_le_of_lt h (by decide)
  · exact Nat.lt_of_le_of_lt h (by decide)
  · exact Nat.lt_of_le_of_lt h (by decide)
  all_goals decide

/-- A host with a key has narrow characters only. -/
theorem isNarrow_of_routingKey {m : LowercaseMapping} {host key : String}
    (h : routingKey m host = .ok key) : ∀ c ∈ host.toList, LowercaseMapping.IsNarrow c := by
  intro c hc
  obtain ⟨rfl, -, -, hchars⟩ := routingKey_ok_iff_normalizeDns.mp h
  by_contra hwide
  obtain ⟨d, hd, hd'⟩ := m.exists_wide_toLowercase hc hwide
  have hkey := (normalizeDns_unwraps m host).mem_of_wide hd hd'
  have := isValidKeyChar_ascii (hchars d hkey)
  omega

theorem Unwraps.subset {text key : String} (h : Unwraps text key) : key.toList ⊆ text.toList := by
  intro c hc
  cases h with
  | whole => exact hc
  | brackets => simp [hc]
  | port => simp [hc]

/-- A key that is left after unwrapping is spelled by the text. -/
theorem Unwraps.spelling {text key : String} (h : Unwraps text key) (hcolons : colonCount key ≠ 1) :
    Spelling key text := by
  cases h with
  | whole => exact .bare
  | brackets _ _ hcolon htail =>
      have hmany : 1 < colonCount key := by omega
      obtain rfl | ⟨p, rfl, hp⟩ := htail
      · simpa using Spelling.brackets hmany
      · have htext : "[" ++ key ++ "]" ++ (":" ++ p) = "[" ++ key ++ "]:" ++ p := by
          simp [← String.toList_inj]
        rw [htext]
        exact .bracketsPort p hmany hp
  | port _ p hname hp => exact .port p hname hp

section Key

variable {m : LowercaseMapping} {host key : String}

theorem bracketed_of_notMem {text : String} (h : '[' ∉ text.toList) : bracketed text = none := by
  cases hbr : bracketed text with
  | none => rfl
  | some inner =>
      obtain ⟨tail, rfl, -⟩ := bracketed_eq_some_iff.mp hbr
      exact absurd (by simp) h

theorem IsPort.notMem {p : String} (hp : IsPort p) {c : Char} (hdigit : c.isDigit = false)
    (hplus : c ≠ '+') : c ∉ p.toList := by
  intro hc
  obtain h | h := hp.chars c hc
  · rw [hdigit] at h
    cases h
  · exact hplus h

theorem IsRoutingKey.notMem (hkey : IsRoutingKey key) {c : Char} (hc : isValidKeyChar c = false) :
    c ∉ key.toList := by
  intro hmem
  have hvalid := (isKeyChar_iff.mp (hkey.chars c hmem)).1
  rw [hc] at hvalid
  cases hvalid

theorem IsPort.count_colon {p : String} (hp : IsPort p) : p.toList.count ':' = 0 :=
  List.count_eq_zero.mpr (hp.notMem (by decide) (by decide))

theorem normalizeDns_of_notMem (h : ':' ∉ (m.toLowercase host).toList) :
    normalizeDns m host = m.toLowercase host := by
  have hbr : bracketed (m.toLowercase host) = none := by
    cases hbr : bracketed (m.toLowercase host) with
    | none => rfl
    | some inner =>
        obtain ⟨tail, htext, -, hcolon, -⟩ := bracketed_eq_some_iff.mp hbr
        have hinner : ':' ∈ inner.toList := List.count_pos_iff.mp hcolon
        exact absurd (by simp [htext, hinner]) h
  simp only [normalizeDns, hbr]
  split
  · rfl
  · rw [splitOnce_of_notMem h]

theorem normalizeDns_of_colons (hopen : '[' ∉ (m.toLowercase host).toList)
    (h : 1 < colonCount (m.toLowercase host)) : normalizeDns m host = m.toLowercase host := by
  simp only [normalizeDns, bracketed_of_notMem hopen, if_pos h]

theorem normalizeDns_of_brackets {inner : String} (tail : String)
    (htext : m.toLowercase host = "[" ++ inner ++ "]" ++ tail) (hclose : ']' ∉ inner.toList)
    (hcolon : 0 < colonCount inner) (htail : tail = "" ∨ ∃ p, tail = ":" ++ p ∧ IsPort p) :
    normalizeDns m host = inner := by
  have hbr : bracketed (m.toLowercase host) = some inner :=
    bracketed_eq_some_iff.mpr ⟨tail, htext, hclose, hcolon, htail⟩
  simp only [normalizeDns, hbr]

theorem normalizeDns_of_port {name p : String} (htext : m.toLowercase host = name ++ ":" ++ p)
    (hname : ':' ∉ name.toList) (hp : IsPort p) : normalizeDns m host = name := by
  have hn0 : name.toList.count ':' = 0 := List.count_eq_zero.mpr hname
  have hone : colonCount (m.toLowercase host) = 1 := by
    simp [colonCount, htext, hp.count_colon, hn0]
  have hbr : bracketed (m.toLowercase host) = none := by
    cases hbr : bracketed (m.toLowercase host) with
    | none => rfl
    | some inner =>
        obtain ⟨tail, hbrackets, -, hcolon, htail⟩ := bracketed_eq_some_iff.mp hbr
        -- the only colon is between the brackets, so the text ends with a bracket and not a port
        obtain rfl | ⟨q, rfl, -⟩ := htail
        · obtain ⟨init, x, hx⟩ := (List.eq_nil_or_concat p.toList).resolve_left hp.toList_ne_nil
          have hends : (name ++ ":" ++ p).toList.getLast? = ("[" ++ inner ++ "]").toList.getLast? := by
            rw [← htext, hbrackets]
            simp
          have hlast : x = ']' := by
            simpa [hx, List.getLast?_append, List.getLast?_cons] using hends
          exact absurd (by simp [hx, hlast]) (hp.notMem (c := ']') (by decide) (by decide))
        · rw [hbrackets] at hone
          simp only [colonCount] at hone hcolon
          simp at hone
          omega
  have hsplit : splitOnce ':' (m.toLowercase host) = some (name, p) :=
    splitOnce_append (by simp [htext]) hname
  have hsome : (parseU16 p).isSome = true := hp
  simp only [normalizeDns, hbr, hsplit, hone, if_pos hsome]
  simp

/-- `normalize_dns` finds the key in each of its spellings. -/
theorem normalizeDns_of_spelling (hkey : IsRoutingKey key) (h : Spelling key (m.toLowercase host)) :
    normalizeDns m host = key := by
  have hopen : '[' ∉ key.toList := hkey.notMem (by decide)
  have hclose : ']' ∉ key.toList := hkey.notMem (by decide)
  generalize htext : m.toLowercase host = text at h
  cases h with
  | bare =>
      by_cases hzero : colonCount key = 0
      · rw [colonCount_eq_zero_iff, ← htext] at hzero
        rw [normalizeDns_of_notMem hzero, htext]
      · have hmany : 1 < colonCount key := by
          have := hkey.colons
          omega
        rw [← htext] at hopen hmany
        rw [normalizeDns_of_colons hopen hmany, htext]
  | brackets hmany =>
      exact normalizeDns_of_brackets "" (by simpa using htext) hclose (by omega) (.inl rfl)
  | port p hzero hp => exact normalizeDns_of_port htext (colonCount_eq_zero_iff.mp hzero) hp
  | bracketsPort p hmany hp =>
      apply normalizeDns_of_brackets (":" ++ p) ?_ hclose (by omega) (.inr ⟨p, rfl, hp⟩)
      simp [htext, ← String.toList_inj]

/-- A host has a key exactly when its lower case spells a routing key. -/
theorem routingKey_ok_iff :
    routingKey m host = .ok key ↔ IsRoutingKey key ∧ Spelling key (m.toLowercase host) := by
  constructor
  · intro h
    have hnarrow := isNarrow_of_routingKey h
    obtain ⟨rfl, hne, hcolons, hchars⟩ := routingKey_ok_iff_normalizeDns.mp h
    have hunwraps := normalizeDns_unwraps m host
    refine ⟨⟨hne, ?_, hcolons⟩, hunwraps.spelling hcolons⟩
    intro c hc
    have hlower := hunwraps.subset hc
    rw [m.toLowercase_of_isNarrow hnarrow] at hlower
    obtain ⟨x, -, rfl⟩ := List.mem_map.mp hlower
    exact isKeyChar_iff.mpr ⟨hchars _ hc, LowercaseMapping.lowerChar_isUpper x⟩
  · rintro ⟨hkey, hspell⟩
    apply routingKey_ok_iff_normalizeDns.mpr
    refine ⟨normalizeDns_of_spelling hkey hspell, hkey.nonempty, hkey.colons, ?_⟩
    intro c hc
    exact (isKeyChar_iff.mp (hkey.chars c hc)).1

/-! ### The image and the fixpoints -/

/-- A routing key is its own lower case. -/
theorem IsRoutingKey.toLowercase (hkey : IsRoutingKey key) : m.toLowercase key = key := by
  apply m.toLowercase_of_isPlain
  intro c hc
  obtain ⟨hvalid, hupper⟩ := isKeyChar_iff.mp (hkey.chars c hc)
  exact ⟨isValidKeyChar_ascii hvalid, hupper⟩

theorem IsRoutingKey.hasExplicitPort (hkey : IsRoutingKey key) :
    ZenohBridge.hasExplicitPort key = false := by
  have hstrip : stripChar '[' key = none := by
    cases h : stripChar '[' key with
    | none => rfl
    | some rest =>
        have hmem : '[' ∈ key.toList := by simp [stripChar_eq_some_iff.mp h]
        exact absurd hmem (hkey.notMem (by decide))
  simp [ZenohBridge.hasExplicitPort, hstrip, hkey.colons]

/-- A routing key is a fixpoint of the client's side. -/
theorem IsRoutingKey.routingKey (hkey : IsRoutingKey key) :
    ZenohBridge.routingKey m key = .ok key := by
  apply routingKey_ok_iff.mpr
  rw [hkey.toLowercase]
  exact ⟨hkey, .bare⟩

/-- A routing key is a fixpoint of the operator's side. -/
theorem IsRoutingKey.specHostKey (hkey : IsRoutingKey key) :
    ZenohBridge.specHostKey m key = .ok key := by
  rw [ZenohBridge.specHostKey, hkey.hasExplicitPort, if_neg (by decide), hkey.routingKey]

/-- Clients and operators have the same keys, which are the canonical ones. -/
theorem key_space_tfae (m : LowercaseMapping) (k : String) : List.TFAE [
    ∃ h, routingKey m h = .ok k,
    ∃ h, specHostKey m h = .ok k,
    routingKey m k = .ok k ∧ specHostKey m k = .ok k,
    IsRoutingKey k] := by
  tfae_have 4 → 3 := fun hkey => ⟨hkey.routingKey, hkey.specHostKey⟩
  tfae_have 3 → 2 := fun h => ⟨k, h.2⟩
  tfae_have 2 → 1 := fun ⟨h, hspec⟩ => ⟨h, specHostKey_ok hspec⟩
  tfae_have 1 → 4 := fun ⟨_, hkey⟩ => (routingKey_ok_iff.mp hkey).1
  tfae_finish

end Key

end ZenohBridge
