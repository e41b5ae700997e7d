import Mathlib.Data.List.DropRight

/-!
# UTF-8 as lists of bytes

A byte below 128 stands for itself in UTF-8. What is done to a text by its ASCII characters
alone can therefore be done to its bytes: splitting it at a separator, dropping characters at
its ends, and mapping it. Each of these commutes with the encoding.
-/

namespace Utf8

section Trim

variable {α : Type*} {p : α → Bool} {l before middle after : List α}

/-- What is dropped at the ends of a list. -/
theorem exists_trim (p : α → Bool) (l : List α) :
    ∃ before after, l = before ++ (l.dropWhile p).rdropWhile p ++ after ∧
      (∀ a ∈ before, p a = true) ∧ ∀ a ∈ after, p a = true := by
  refine ⟨l.takeWhile p, (l.dropWhile p).rtakeWhile p, ?_, ?_, ?_⟩
  · rw [List.append_assoc, List.rdropWhile_append_rtakeWhile, List.takeWhile_append_dropWhile]
  · exact fun a ha => List.mem_takeWhile_imp ha
  · intro a ha
    rw [List.rtakeWhile, List.mem_reverse] at ha
    exact List.mem_takeWhile_imp ha

/-- What is kept between its ends. -/
theorem trim_append (hbefore : ∀ a ∈ before, p a = true) (hafter : ∀ a ∈ after, p a = true)
    (hne : middle ≠ []) (hmiddle : ∀ a ∈ middle, p a = false) :
    ((before ++ middle ++ after).dropWhile p).rdropWhile p = middle := by
  have hdrop : ∀ text : List α, text ≠ [] → (∀ a ∈ text, p a = false) → ∀ rest,
      (text ++ rest).dropWhile p = text ++ rest := by
    intro text htext hkeep rest
    obtain ⟨a, text, rfl⟩ := List.exists_cons_of_ne_nil htext
    rw [List.cons_append, List.dropWhile_cons_of_neg]
    simp [hkeep a List.mem_cons_self]
  rw [List.append_assoc, List.dropWhile_append_of_pos hbefore, hdrop middle hne hmiddle,
    List.rdropWhile, List.reverse_append, List.dropWhile_append_of_pos]
  · have hkept := hdrop middle.reverse (by simpa using hne) (by simpa using hmiddle) []
    rw [List.append_nil] at hkept
    rw [hkept, List.reverse_reverse]
  · simpa using hafter

end Trim

/-- The bytes of a text. -/
def encode (text : List Char) : List UInt8 := text.flatMap String.utf8EncodeChar

variable {text text' : List Char} {bytes : List UInt8} {c : Char} {b : UInt8}

/-- A byte below 128 is the whole encoding of its character. -/
theorem encodeChar_of_ascii (hb : b ∈ String.utf8EncodeChar c) (hlow : b.toNat < 128) :
    String.utf8EncodeChar c = [b] ∧ c.toNat = b.toNat := by
  by_cases hc : c.toNat < 128
  · have hsingle : String.utf8EncodeChar c = [UInt8.ofNat c.toNat] := by
      have hle : c.val.toNat ≤ 127 := by
        have : c.toNat = c.val.toNat := rfl
        omega
      rw [String.utf8EncodeChar]
      exact if_pos hle
    rw [hsingle, List.mem_singleton] at hb
    subst hb
    refine ⟨hsingle, ?_⟩
    rw [UInt8.toNat_ofNat']
    omega
  · exfalso
    have hlarge : ¬ c.val.toNat ≤ 127 := by
      have : c.toNat = c.val.toNat := rfl
      omega
    rw [String.utf8EncodeChar] at hb
    simp only [if_neg hlarge] at hb
    split at hb
    · simp only [List.mem_cons, List.not_mem_nil, or_false] at hb
      obtain rfl | rfl := hb <;> rw [UInt8.toNat_ofNat'] at hlow <;> omega
    · split at hb
      · simp only [List.mem_cons, List.not_mem_nil, or_false] at hb
        obtain rfl | rfl | rfl := hb <;> rw [UInt8.toNat_ofNat'] at hlow <;> omega
      · simp only [List.mem_cons, List.not_mem_nil, or_false] at hb
        obtain rfl | rfl | rfl | rfl := hb <;> rw [UInt8.toNat_ofNat'] at hlow <;> omega

theorem encode_injective (h : encode text = encode text') : text = text' := by
  have hbytes : text.utf8Encode = text'.utf8Encode := congrArg List.toByteArray h
  have hdecode := congrArg ByteArray.utf8Decode? hbytes
  simpa using hdecode

theorem toByteArray_encode (s : String) : ⟨(encode s.toList).toArray⟩ = s.toByteArray := by
  rw [← String.utf8Encode_toList]
  apply ByteArray.ext
  simp [List.utf8Encode, encode]

/-- `str::from_utf8` accepts the encodings of texts, and nothing else. -/
theorem fromUTF8?_eq_some_iff {s : String} :
    String.fromUTF8? ⟨bytes.toArray⟩ = some s ↔ bytes = encode s.toList := by
  rw [String.fromUTF8?]
  constructor
  · intro h
    split at h
    · rename_i hvalid
      have hs : s.toByteArray = ⟨bytes.toArray⟩ := by
        rw [← Option.some.inj h]
        rfl
      rw [← toByteArray_encode] at hs
      simpa using (congrArg (fun a => a.data.toList) hs).symm
    · cases h
  · rintro rfl
    have hvalid : ByteArray.IsValidUTF8 ⟨(encode s.toList).toArray⟩ := by
      rw [toByteArray_encode]
      exact s.isValidUTF8
    rw [dif_pos hvalid, Option.some.injEq, ← String.toByteArray_inj]
    exact toByteArray_encode s

theorem splitOn_append {α : Type*} [DecidableEq α] {sep : α} {l : List α} (h : sep ∉ l)
    (rest : List α) :
    (l ++ rest).splitOn sep = (rest.splitOn sep).modifyHead (l ++ ·) := by
  induction l with
  | nil =>
      rw [List.nil_append]
      cases rest.splitOn sep <;> rfl
  | cons a l ih =>
      rw [List.mem_cons, not_or] at h
      have hne : ¬ (a == sep) = true := by simpa using Ne.symm h.1
      rw [List.cons_append, List.splitOn_cons_eq_if_modifyHead, if_neg hne, ih h.2]
      cases rest.splitOn sep <;> rfl

/-- A text is split at an ASCII character where its bytes are split. -/
theorem splitOn_encode (h : String.utf8EncodeChar c = [b]) (hlow : b.toNat < 128)
    (text : List Char) : (encode text).splitOn b = (text.splitOn c).map encode := by
  induction text with
  | nil => rfl
  | cons d text ih =>
      rw [List.splitOn_cons_eq_if_modifyHead, encode, List.flatMap_cons, ← encode]
      by_cases hd : d = c
      · subst hd
        rw [h, List.singleton_append, List.splitOn_cons_eq_if_modifyHead, if_pos (by simp),
          if_pos (by simp), ih]
        rfl
      · have hmem : b ∉ String.utf8EncodeChar d := by
          intro hb
          apply hd
          have heq : encode [d] = encode [c] := by
            simp [encode, h, (encodeChar_of_ascii hb hlow).1]
          exact (List.cons.inj (encode_injective heq)).1
        rw [splitOn_append hmem, ih, if_neg (by simpa using hd)]
        cases text.splitOn c with
        | nil => rfl
        | cons first more => simp [encode]

theorem dropWhile_flatMap {α β : Type*} {f : α → List β} {p : α → Bool} {q : β → Bool}
    (hne : ∀ a, f a ≠ []) (h : ∀ a, ∀ b ∈ f a, q b = p a) (l : List α) :
    (l.flatMap f).dropWhile q = (l.dropWhile p).flatMap f := by
  induction l with
  | nil => rfl
  | cons a l ih =>
      rw [List.flatMap_cons]
      by_cases hp : p a = true
      · rw [List.dropWhile_cons_of_pos hp, ← ih, List.dropWhile_append_of_pos]
        intro b hb
        rw [h a b hb, hp]
      · obtain ⟨b, bs, hf⟩ := List.exists_cons_of_ne_nil (hne a)
        have hb : ¬ q b = true := by
          rw [h a b (by simp [hf])]
          exact hp
        rw [List.dropWhile_cons_of_neg hp, List.flatMap_cons, hf, List.cons_append,
          List.dropWhile_cons_of_neg hb]

/-- Characters are dropped at the ends of a text as their bytes are. -/
theorem trim_encode {p : Char → Bool} {q : UInt8 → Bool}
    (h : ∀ c, ∀ b ∈ String.utf8EncodeChar c, q b = p c) (text : List Char) :
    ((encode text).dropWhile q).rdropWhile q = encode ((text.dropWhile p).rdropWhile p) := by
  have hne : ∀ c, String.utf8EncodeChar c ≠ [] := fun c => String.utf8EncodeChar_ne_nil
  have hback : ∀ text : List Char, (encode text).rdropWhile q = encode (text.rdropWhile p) := by
    intro text
    have hreverse := dropWhile_flatMap (f := fun c => (String.utf8EncodeChar c).reverse)
      (p := p) (q := q) (by simp) (by simpa using h) text.reverse
    rw [List.rdropWhile, encode, List.reverse_flatMap]
    simp only [Function.comp_def]
    rw [hreverse, List.reverse_flatMap]
    simp only [Function.comp_def, List.reverse_reverse]
    rfl
  rw [← hback]
  exact congrArg (List.rdropWhile q) (dropWhile_flatMap hne h text)

theorem map_encode {f : UInt8 → UInt8} {g : Char → Char}
    (h : ∀ c, (String.utf8EncodeChar c).map f = String.utf8EncodeChar (g c)) (text : List Char) :
    (encode text).map f = encode (text.map g) := by
  rw [encode, encode, List.map_flatMap, List.flatMap_map]
  congr 1
  funext c
  exact h c

end Utf8
