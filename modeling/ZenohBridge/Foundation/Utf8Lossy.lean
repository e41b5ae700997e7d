import ZenohBridge.Foundation.Utf8

/-!
# Lossy decoding of UTF-8

Each maximal part of the bytes that cannot begin or go on with a character is decoded as one
replacement character. The decoder reads byte after byte and remembers the character that it
is in. A byte below 128 ends whatever came before it, so a text can be cut at its ASCII
characters before it is decoded. What is valid is decoded as it is.
-/

namespace Utf8

/-- A character that has begun: how many bytes it still needs, the range of the next one, and
the bits read so far. -/
structure Partial where
  need : Nat
  low : Nat
  high : Nat
  bits : Nat
  deriving DecidableEq, Repr

/-- The replacement character. -/
def replacement : Char := Char.ofNat 0xFFFD

/-- A byte at the begin of a character. -/
def lead (b : Nat) : List Char × Option Partial :=
  if b < 0x80 then ([Char.ofNat b], none)
  else if b < 0xC2 then ([replacement], none)
  else if b < 0xE0 then ([], some ⟨1, 0x80, 0xBF, b - 0xC0⟩)
  else if b < 0xF0 then
    ([], some ⟨2, if b = 0xE0 then 0xA0 else 0x80, if b = 0xED then 0x9F else 0xBF, b - 0xE0⟩)
  else if b < 0xF5 then
    ([], some ⟨3, if b = 0xF0 then 0x90 else 0x80, if b = 0xF4 then 0x8F else 0xBF, b - 0xF0⟩)
  else ([replacement], none)

/-- What the decoder says of a byte, and the character that it is in afterwards. -/
def decodeByte : Option Partial → Nat → List Char × Option Partial
  | none, b => lead b
  | some p, b =>
      if p.low ≤ b ∧ b ≤ p.high then
        if p.need = 1 then ([Char.ofNat (p.bits * 64 + (b - 0x80))], none)
        else ([], some ⟨p.need - 1, 0x80, 0xBF, p.bits * 64 + (b - 0x80)⟩)
      else (replacement :: (lead b).1, (lead b).2)

/-- The decoder at the end of the bytes. -/
def decodeEnd : Option Partial → List Char
  | none => []
  | some _ => [replacement]

/-- The decoder from a character that it is in. -/
def decodeFrom : Option Partial → List UInt8 → List Char
  | p, [] => decodeEnd p
  | p, b :: bytes => (decodeByte p b.toNat).1 ++ decodeFrom (decodeByte p b.toNat).2 bytes

/-- `String::from_utf8_lossy`. -/
def lossy (bytes : List UInt8) : List Char := decodeFrom none bytes

/-- The ranges of a character that has begun hold continuation bytes only. -/
def Partial.Ranged (p : Partial) : Prop := 0x80 ≤ p.low ∧ p.high ≤ 0xBF

variable {p : Option Partial} {bytes : List UInt8} {c : Char} {b : UInt8} {text : List Char}

theorem lead_of_ascii {b : Nat} (hlow : b < 0x80) : lead b = ([Char.ofNat b], none) :=
  if_pos hlow

theorem ranged_lead {b : Nat} {q : Partial} (h : (lead b).2 = some q) : q.Ranged := by
  unfold lead at h
  split at h
  · cases h
  split at h
  · cases h
  split at h
  · obtain rfl := Option.some.inj h
    exact ⟨Nat.le_refl _, Nat.le_refl _⟩
  split at h
  · obtain rfl := Option.some.inj h
    constructor
    · dsimp only
      split <;> decide
    · dsimp only
      split <;> decide
  split at h
  · obtain rfl := Option.some.inj h
    constructor
    · dsimp only
      split <;> decide
    · dsimp only
      split <;> decide
  · cases h

theorem ranged_decodeByte {b : Nat} {q : Partial} (h : (decodeByte p b).2 = some q) :
    q.Ranged := by
  cases p with
  | none => exact ranged_lead h
  | some p =>
      simp only [decodeByte] at h
      split at h
      · split at h
        · cases h
        · obtain rfl := Option.some.inj h
          exact ⟨Nat.le_refl _, Nat.le_refl _⟩
      · exact ranged_lead h

/-- A byte below 128 ends what came before it. -/
theorem decodeByte_of_ascii {b : Nat} (hp : ∀ q, p = some q → q.Ranged) (hlow : b < 0x80) :
    decodeByte p b = (decodeEnd p ++ [Char.ofNat b], none) := by
  cases p with
  | none => exact lead_of_ascii hlow
  | some q =>
      have hrange := (hp q rfl).1
      have hout : ¬(q.low ≤ b ∧ b ≤ q.high) := by omega
      rw [decodeByte, if_neg hout, lead_of_ascii hlow]
      rfl

theorem decodeFrom_append (hp : ∀ q, p = some q → q.Ranged) (hlow : b.toNat < 0x80)
    (rest : List UInt8) : decodeFrom p (bytes ++ b :: rest) =
      decodeFrom p bytes ++ Char.ofNat b.toNat :: lossy rest := by
  induction bytes generalizing p with
  | nil =>
      rw [List.nil_append, decodeFrom, decodeFrom, decodeByte_of_ascii hp hlow, List.append_assoc]
      rfl
  | cons a bytes ih =>
      rw [List.cons_append, decodeFrom, decodeFrom, ih fun q hq => ranged_decodeByte hq,
        List.append_assoc]

/-- A text can be cut at an ASCII character before it is decoded. -/
theorem lossy_append (hlow : b.toNat < 0x80) (rest : List UInt8) :
    lossy (bytes ++ b :: rest) = lossy bytes ++ Char.ofNat b.toNat :: lossy rest :=
  decodeFrom_append (fun _ h => by cases h) hlow rest

section Valid

theorem toNat_ofNat {n : Nat} (h : n < 256) : (UInt8.ofNat n).toNat = n := by
  rw [UInt8.toNat_ofNat']
  exact Nat.mod_eq_of_lt h

/-- A byte in the range that is expected goes on with the character. -/
theorem decodeFrom_within {q : Partial} {n : Nat} (hn : n < 256) (hlow : q.low ≤ n)
    (hhigh : n ≤ q.high) (hneed : q.need ≠ 1) : decodeFrom (some q) (UInt8.ofNat n :: bytes) =
      decodeFrom (some ⟨q.need - 1, 0x80, 0xBF, q.bits * 64 + (n - 0x80)⟩) bytes := by
  rw [decodeFrom, toNat_ofNat hn, decodeByte, if_pos ⟨hlow, hhigh⟩, if_neg hneed]
  rfl

/-- The last byte of a character ends it. -/
theorem decodeFrom_last {q : Partial} {n : Nat} (hn : n < 256) (hlow : q.low ≤ n)
    (hhigh : n ≤ q.high) (hneed : q.need = 1) : decodeFrom (some q) (UInt8.ofNat n :: bytes) =
      Char.ofNat (q.bits * 64 + (n - 0x80)) :: lossy bytes := by
  rw [decodeFrom, toNat_ofNat hn, decodeByte, if_pos ⟨hlow, hhigh⟩, if_pos hneed]
  rfl

theorem lossy_cons {n : Nat} {out : List Char} (hn : n < 256) (h : lead n = (out, p)) :
    lossy (UInt8.ofNat n :: bytes) = out ++ decodeFrom p bytes := by
  rw [lossy, decodeFrom, toNat_ofNat hn, decodeByte, h]

theorem lossy_two {v : Nat} (hlow : 0x7F < v) (hhigh : v ≤ 0x7FF) :
    lossy (UInt8.ofNat (v / 64 % 32 + 0xC0) :: UInt8.ofNat (v % 64 + 0x80) :: bytes) =
      Char.ofNat v :: lossy bytes := by
  have hlead : lead (v / 64 % 32 + 0xC0) =
      ([], some ⟨1, 0x80, 0xBF, v / 64 % 32 + 0xC0 - 0xC0⟩) := by
    rw [lead, if_neg (by omega), if_neg (by omega), if_pos (by omega)]
  have hbits : (v / 64 % 32 + 0xC0 - 0xC0) * 64 + (v % 64 + 0x80 - 0x80) = v := by omega
  rw [lossy_cons (by omega) hlead, List.nil_append,
    decodeFrom_last (by omega) (by dsimp only; omega) (by dsimp only; omega) rfl, hbits]

theorem lossy_three {v : Nat} (hlow : 0x7FF < v) (hhigh : v ≤ 0xFFFF)
    (hvalid : v < 0xD800 ∨ 0xDFFF < v) :
    lossy (UInt8.ofNat (v / 4096 % 16 + 0xE0) :: UInt8.ofNat (v / 64 % 64 + 0x80) ::
      UInt8.ofNat (v % 64 + 0x80) :: bytes) = Char.ofNat v :: lossy bytes := by
  have hlead : lead (v / 4096 % 16 + 0xE0) = ([], some ⟨2,
      if v / 4096 % 16 + 0xE0 = 0xE0 then 0xA0 else 0x80,
      if v / 4096 % 16 + 0xE0 = 0xED then 0x9F else 0xBF, v / 4096 % 16 + 0xE0 - 0xE0⟩) := by
    rw [lead, if_neg (by omega), if_neg (by omega), if_neg (by omega), if_pos (by omega)]
  have hbits : ((v / 4096 % 16 + 0xE0 - 0xE0) * 64 + (v / 64 % 64 + 0x80 - 0x80)) * 64 +
      (v % 64 + 0x80 - 0x80) = v := by omega
  rw [lossy_cons (by omega) hlead, List.nil_append, decodeFrom_within (by omega)
      (by dsimp only; split <;> omega) (by dsimp only; split <;> omega) (Nat.succ_ne_self 1),
    decodeFrom_last (by omega) (by dsimp only; omega) (by dsimp only; omega) rfl, hbits]

theorem lossy_four {v : Nat} (hlow : 0xFFFF < v) (hhigh : v < 0x110000) :
    lossy (UInt8.ofNat (v / 262144 % 8 + 0xF0) :: UInt8.ofNat (v / 4096 % 64 + 0x80) ::
      UInt8.ofNat (v / 64 % 64 + 0x80) :: UInt8.ofNat (v % 64 + 0x80) :: bytes) =
        Char.ofNat v :: lossy bytes := by
  have hlead : lead (v / 262144 % 8 + 0xF0) = ([], some ⟨3,
      if v / 262144 % 8 + 0xF0 = 0xF0 then 0x90 else 0x80,
      if v / 262144 % 8 + 0xF0 = 0xF4 then 0x8F else 0xBF, v / 262144 % 8 + 0xF0 - 0xF0⟩) := by
    rw [lead, if_neg (by omega), if_neg (by omega), if_neg (by omega), if_neg (by omega),
      if_pos (by omega)]
  have hbits : (((v / 262144 % 8 + 0xF0 - 0xF0) * 64 + (v / 4096 % 64 + 0x80 - 0x80)) * 64 +
      (v / 64 % 64 + 0x80 - 0x80)) * 64 + (v % 64 + 0x80 - 0x80) = v := by omega
  rw [lossy_cons (by omega) hlead, List.nil_append, decodeFrom_within (by omega)
      (by dsimp only; split <;> omega) (by dsimp only; split <;> omega) (by simp),
    decodeFrom_within (by omega) (by dsimp only; omega) (by dsimp only; omega) (by simp),
    decodeFrom_last (by omega) (by dsimp only; omega) (by dsimp only; omega) rfl, hbits]

theorem lossy_encodeChar (c : Char) :
    lossy (String.utf8EncodeChar c ++ bytes) = c :: lossy bytes := by
  have hc : Char.ofNat c.val.toNat = c := Char.ofNat_toNat c
  have hvalid : c.val.toNat < 0xD800 ∨ 0xDFFF < c.val.toNat ∧ c.val.toNat < 0x110000 := c.valid
  rw [String.utf8EncodeChar]
  generalize c.val.toNat = v at hc hvalid
  rw [← hc]
  split
  · next h1 =>
      rw [List.singleton_append, lossy_cons (by omega) (lead_of_ascii (by omega))]
      rfl
  split
  · exact lossy_two (by omega) (by omega)
  split
  · exact lossy_three (by omega) (by omega) (by omega)
  · exact lossy_four (by omega) (by omega)

/-- What is valid is decoded as it is. -/
theorem lossy_encode (text : List Char) : lossy (encode text) = text := by
  induction text with
  | nil => rfl
  | cons c text ih =>
      have hcons : encode (c :: text) = String.utf8EncodeChar c ++ encode text := rfl
      rw [hcons, lossy_encodeChar, ih]

end Valid

end Utf8
