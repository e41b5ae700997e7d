import ZenohBridge.Foundation.Utf8
import ZenohBridge.Multiroute
import ZenohBridge.ResponseFraming

/-!
# When a response closes the connection

A response announces the end of its connection by its framing, by the element `close` of a
`Connection` line, or by its version unless an element is `keep-alive`. On the wire the elements
are separated by commas, the blanks around them and their case mean nothing.

`response_wants_close` reads the lines as texts. A line that is not UTF-8 has no elements for
it, so that a token in it is hidden, and it strips all Unicode white space, so that a token may
be dressed in white space that is no blank. These are the only differences: a token in a UTF-8
line with nothing but blanks around it is plain and read as it is meant.
-/

namespace ZenohBridge

section Lines

/-- An element of the line is the token, up to blanks and case. -/
def namesToken (token : String) (line : Bytes) : Bool :=
  (line.splitOn 44).any fun element => decide ((trimBlanks element).map lowerByte = asBytes token)

/-- The text of the line has an element that is the token up to white space and case. -/
def Padded (token : String) (line : Bytes) : Prop :=
  ∃ text, line = Utf8.encode text ∧ ∃ before name after,
    before ++ name ++ after ∈ text.splitOn ',' ∧
      (∀ c ∈ before ++ after, isWhiteSpace c = true) ∧ name.map Char.toLower = token.toList

def IsUtf8 (line : Bytes) : Prop := ∃ text, line = Utf8.encode text

/-- A token that trimming leaves as it is. -/
structure IsToken (token : String) : Prop where
  nonempty : token.toList ≠ []
  noSpace : ∀ c ∈ token.toList, isWhiteSpace c = false

variable {token : String} {line : Bytes} {text name : List Char} {lines : List Bytes}

theorem asBytes_eq_encode (text : String) : asBytes text = Utf8.encode text.toList := by
  rw [asBytes, String.toUTF8_eq_toByteArray, ← Utf8.toByteArray_encode]

/-- The blanks of the wire among the characters. -/
def isBlankChar (c : Char) : Bool := c = ' ' || c = '\t'

theorem isBlankChar_isWhiteSpace {c : Char} (h : isBlankChar c = true) : isWhiteSpace c = true := by
  simp only [isBlankChar, Bool.or_eq_true, decide_eq_true_eq] at h
  obtain rfl | rfl := h <;> decide

/-- Only the capitals of ASCII have another lower case. -/
theorem toLower_eq_self {c : Char} (h : c.toNat < 65 ∨ 90 < c.toNat) : c.toLower = c := by
  apply dif_neg
  rintro ⟨hlow, hhigh⟩
  have hlow' : 65 ≤ c.toNat := UInt32.le_iff_toNat_le.mp hlow
  have hhigh' : c.toNat ≤ 90 := UInt32.le_iff_toNat_le.mp hhigh
  omega

theorem toLower_of_isWhiteSpace {c : Char} (h : isWhiteSpace c = true) : c.toLower = c := by
  apply toLower_eq_self
  simp only [isWhiteSpace, List.mem_cons, List.not_mem_nil, or_false, decide_eq_true_eq] at h
  omega

/-- A byte is a blank exactly when its character is. -/
theorem isBlank_encodeChar (c : Char) :
    ∀ b ∈ String.utf8EncodeChar c, isBlank b = isBlankChar c := by
  intro b hb
  cases hc : isBlankChar c with
  | true =>
      simp only [isBlankChar, Bool.or_eq_true, decide_eq_true_eq] at hc
      obtain rfl | rfl := hc
      · obtain rfl : b = 32 := List.mem_singleton.mp hb
        rfl
      · obtain rfl : b = 9 := List.mem_singleton.mp hb
        rfl
  | false =>
      by_contra hblank
      simp only [isBlank, Bool.not_eq_false, Bool.or_eq_true, decide_eq_true_eq] at hblank
      have hlow : b.toNat < 128 := by
        obtain rfl | rfl := hblank <;> decide
      have hnat : c.toNat = b.toNat := (Utf8.encodeChar_of_ascii hb hlow).2
      have hchar : c = ' ' ∨ c = '\t' := by
        obtain rfl | rfl := hblank
        · exact .inl (Char.toNat_inj.mp hnat)
        · exact .inr (Char.toNat_inj.mp hnat)
      rw [isBlankChar] at hc
      simp_all

/-- The case of a text is that of its bytes. -/
theorem lower_encodeChar (c : Char) :
    (String.utf8EncodeChar c).map lowerByte = String.utf8EncodeChar c.toLower := by
  by_cases hascii : c.toNat < 128
  · have hall : ∀ n < 128, (String.utf8EncodeChar (Char.ofNat n)).map lowerByte =
        String.utf8EncodeChar (Char.ofNat n).toLower := by decide +kernel
    have hc := hall c.toNat hascii
    rwa [Char.ofNat_toNat] at hc
  · rw [toLower_eq_self (.inr (by omega))]
    have hkept : ∀ b ∈ String.utf8EncodeChar c, lowerByte b = b := by
      intro b hb
      have hhigh : ¬ b.toNat < 128 := by
        intro hlow
        rw [(Utf8.encodeChar_of_ascii hb hlow).2] at hascii
        exact hascii hlow
      apply if_neg
      rintro ⟨-, hle⟩
      have hle' : b.toNat ≤ 90 := UInt8.le_iff_toNat_le.mp hle
      omega
    calc (String.utf8EncodeChar c).map lowerByte
        = (String.utf8EncodeChar c).map id := List.map_congr_left hkept
      _ = String.utf8EncodeChar c := List.map_id _

/-- The characters of a token in another case are no white space either. -/
theorem IsToken.name_noSpace (h : IsToken token) (hname : name.map Char.toLower = token.toList) :
    ∀ c ∈ name, isWhiteSpace c = false := by
  intro c hc
  have hlower : c.toLower ∈ token.toList := by
    rw [← hname]
    exact List.mem_map_of_mem hc
  have hkept := h.noSpace _ hlower
  by_contra hspace
  rw [Bool.not_eq_false] at hspace
  rw [toLower_of_isWhiteSpace hspace, hspace] at hkept
  cases hkept

/-- A trimmed element is the token when the token stands between what is trimmed. -/
theorem IsToken.trim_iff (h : IsToken token) (element : List Char) :
    ((element.dropWhile isWhiteSpace).rdropWhile isWhiteSpace).map Char.toLower = token.toList ↔
      ∃ before name after, element = before ++ name ++ after ∧
        (∀ c ∈ before ++ after, isWhiteSpace c = true) ∧ name.map Char.toLower = token.toList := by
  constructor
  · intro htoken
    obtain ⟨before, after, helement, hbefore, hafter⟩ := Utf8.exists_trim isWhiteSpace element
    exact ⟨before, _, after, helement, List.forall_mem_append.mpr ⟨hbefore, hafter⟩, htoken⟩
  · rintro ⟨before, name, after, rfl, hspace, hname⟩
    obtain ⟨hbefore, hafter⟩ := List.forall_mem_append.mp hspace
    have hne : name ≠ [] := by
      rintro rfl
      exact h.nonempty hname.symm
    rw [Utf8.trim_append hbefore hafter hne (h.name_noSpace hname), hname]

/-- The code finds a token in the UTF-8 lines that have it between white space. -/
theorem IsToken.mem_headerTokens_iff (h : IsToken token) :
    token.toList ∈ headerTokens line ↔ Padded token line := by
  rw [headerTokens]
  constructor
  · intro hmem
    split at hmem
    · cases hmem
    · rename_i text htext
      obtain ⟨element, helement, htoken⟩ := List.mem_map.mp hmem
      obtain ⟨before, name, after, rfl, hrest⟩ := (h.trim_iff element).mp htoken
      exact ⟨text.toList, Utf8.fromUTF8?_eq_some_iff.mp htext, before, name, after, helement, hrest⟩
  · rintro ⟨text, hline, before, name, after, helement, hrest⟩
    have htext : String.fromUTF8? ⟨line.toArray⟩ = some (String.ofList text) := by
      rw [Utf8.fromUTF8?_eq_some_iff, String.toList_ofList]
      exact hline
    simp only [htext, String.toList_ofList]
    exact List.mem_map.mpr ⟨_, helement, (h.trim_iff _).mpr ⟨before, name, after, rfl, hrest⟩⟩

/-- What the bytes of a text name can be seen in the text. -/
theorem namesToken_encode (token : String) (text : List Char) :
    namesToken token (Utf8.encode text) = true ↔
      ∃ element ∈ text.splitOn ',',
        ((element.dropWhile isBlankChar).rdropWhile isBlankChar).map Char.toLower =
          token.toList := by
  have hsplit : (Utf8.encode text).splitOn 44 = (text.splitOn ',').map Utf8.encode :=
    Utf8.splitOn_encode (by rfl) (by decide) text
  have helement : ∀ element : List Char,
      (trimBlanks (Utf8.encode element)).map lowerByte = asBytes token ↔
        ((element.dropWhile isBlankChar).rdropWhile isBlankChar).map Char.toLower =
          token.toList := by
    intro element
    have htrim : trimBlanks (Utf8.encode element) =
        Utf8.encode ((element.dropWhile isBlankChar).rdropWhile isBlankChar) :=
      Utf8.trim_encode isBlank_encodeChar element
    rw [htrim, Utf8.map_encode lower_encodeChar, asBytes_eq_encode]
    exact ⟨Utf8.encode_injective, congrArg Utf8.encode⟩
  simp only [namesToken, hsplit, List.any_map, List.any_eq_true, Function.comp_apply,
    decide_eq_true_eq, helement]

/-- The line names the token and is UTF-8. -/
def PlainIn (token : String) (line : Bytes) : Prop :=
  IsUtf8 line ∧ namesToken token line = true

/-- The line names the token and is not UTF-8. -/
def HiddenIn (token : String) (line : Bytes) : Prop :=
  ¬IsUtf8 line ∧ namesToken token line = true

/-- The line is UTF-8 and one of its elements is the token within white space that is not only
blanks. -/
def DressedIn (token : String) (line : Bytes) : Prop :=
  ∃ text, line = Utf8.encode text ∧ ∃ before name after,
    before ++ name ++ after ∈ text.splitOn ',' ∧
      (∀ c ∈ before ++ after, isWhiteSpace c = true) ∧
      (∃ c ∈ before ++ after, isBlankChar c = false) ∧ name.map Char.toLower = token.toList

theorem namesToken_iff :
    namesToken token line = true ↔ PlainIn token line ∨ HiddenIn token line := by
  rw [PlainIn, HiddenIn, ← or_and_right]
  exact (and_iff_right (Classical.em _)).symm

/-- In a UTF-8 line every token that is named is read. -/
theorem PlainIn.padded (h : PlainIn token line) : Padded token line := by
  obtain ⟨⟨text, rfl⟩, hnames⟩ := h
  obtain ⟨element, helement, htoken⟩ := (namesToken_encode token text).mp hnames
  obtain ⟨before, after, heq, hbefore, hafter⟩ := Utf8.exists_trim isBlankChar element
  refine ⟨text, rfl, before, _, after, heq ▸ helement, ?_, htoken⟩
  rw [List.forall_mem_append]
  exact ⟨fun c hc => isBlankChar_isWhiteSpace (hbefore c hc),
    fun c hc => isBlankChar_isWhiteSpace (hafter c hc)⟩

theorem DressedIn.padded (h : DressedIn token line) : Padded token line := by
  obtain ⟨text, hline, before, name, after, helement, hspace, -, hname⟩ := h
  exact ⟨text, hline, before, name, after, helement, hspace, hname⟩

/-- A token between blanks alone is named. -/
theorem IsToken.namesToken_of_blanks (h : IsToken token) {before after : List Char}
    (helement : before ++ name ++ after ∈ text.splitOn ',')
    (hblank : ∀ c ∈ before ++ after, isBlankChar c = true)
    (hname : name.map Char.toLower = token.toList) :
    namesToken token (Utf8.encode text) = true := by
  obtain ⟨hbefore, hafter⟩ := List.forall_mem_append.mp hblank
  have hne : name ≠ [] := by
    rintro rfl
    exact h.nonempty hname.symm
  have hnone : ∀ c ∈ name, isBlankChar c = false := by
    intro c hc
    rw [Bool.eq_false_iff]
    intro hblankc
    have hspace := h.name_noSpace hname c hc
    rw [isBlankChar_isWhiteSpace hblankc] at hspace
    contradiction
  refine (namesToken_encode token text).mpr ⟨_, helement, ?_⟩
  rw [Utf8.trim_append hbefore hafter hne hnone, hname]

/-- What is read is plain or dressed. -/
theorem IsToken.padded_iff (h : IsToken token) :
    Padded token line ↔ PlainIn token line ∨ DressedIn token line := by
  constructor
  · rintro ⟨text, rfl, before, name, after, helement, hspace, hname⟩
    by_cases hblank : ∀ c ∈ before ++ after, isBlankChar c = true
    · exact .inl ⟨⟨text, rfl⟩, h.namesToken_of_blanks helement hblank hname⟩
    · refine .inr ⟨text, rfl, before, name, after, helement, hspace, ?_, hname⟩
      simpa using hblank
  · rintro (hplain | hdressed)
    · exact hplain.padded
    · exact hdressed.padded

end Lines

section Decision

variable {β : Type}

/-- What a response head announces on the wire. -/
def announcesClose (head : ResponseHead β) : Bool :=
  head.untilClose || head.connection.any (namesToken "close") ||
    (head.http10 && !head.connection.any (namesToken "keep-alive"))

/-- Some line is UTF-8 and names the token. -/
def Plain (token : String) (lines : List Bytes) : Prop := ∃ line ∈ lines, PlainIn token line

/-- Some line is not UTF-8 and names the token. -/
def Hidden (token : String) (lines : List Bytes) : Prop := ∃ line ∈ lines, HiddenIn token line

/-- Some UTF-8 line has the token within white space that is not only blanks. -/
def Dressed (token : String) (lines : List Bytes) : Prop := ∃ line ∈ lines, DressedIn token line

/-- The heads whose lines are read as they are meant: the framing settles it, a `close` is
plain, or it is hidden and dressed; or it is neither, and `keep-alive` counts only for HTTP/1.0,
where it is plain too, or as hidden as it is dressed. And on HTTP/1.0 a wrong `close` changes
nothing where `keep-alive` would not have kept the connection either. -/
def ReadAsAnnounced (head : ResponseHead β) : Prop :=
  head.untilClose = true ∨ Plain "close" head.connection ∨
  (Hidden "close" head.connection ∧ Dressed "close" head.connection) ∨
  (¬Hidden "close" head.connection ∧ ¬Dressed "close" head.connection ∧
    (head.http10 = false ∨ Plain "keep-alive" head.connection ∨
      (Hidden "keep-alive" head.connection ↔ Dressed "keep-alive" head.connection))) ∨
  (head.http10 = true ∧ ¬Plain "keep-alive" head.connection ∧
    (Dressed "close" head.connection ∧ ¬Hidden "keep-alive" head.connection ∨
      Hidden "close" head.connection ∧ ¬Dressed "keep-alive" head.connection))

variable {token : String} {lines : List Bytes} {head : ResponseHead β}

theorem IsToken.of_all (hne : token.toList ≠ [])
    (hall : (token.toList.all fun c => !isWhiteSpace c) = true) : IsToken token where
  nonempty := hne
  noSpace c hc := (Bool.not_eq_true' _).mp (List.all_eq_true.mp hall c hc)

theorem isToken_close : IsToken "close" := .of_all (by decide) (by decide)

theorem isToken_keepAlive : IsToken "keep-alive" := .of_all (by decide) (by decide)

/-- The code reads the tokens that are plain or dressed. -/
theorem IsToken.mem_tokens_iff (h : IsToken token) :
    token.toList ∈ lines.flatMap headerTokens ↔ Plain token lines ∨ Dressed token lines := by
  simp only [List.mem_flatMap, h.mem_headerTokens_iff, h.padded_iff, and_or_left, exists_or,
    Plain, Dressed]

/-- The wire names the tokens that are plain or hidden. -/
theorem any_namesToken_iff :
    lines.any (namesToken token) = true ↔ Plain token lines ∨ Hidden token lines := by
  simp only [List.any_eq_true, namesToken_iff, and_or_left, exists_or, Plain, Hidden]

theorem responseWantsClose_iff :
    responseWantsClose head = true ↔
      head.untilClose = true ∨ (Plain "close" head.connection ∨ Dressed "close" head.connection) ∨
        (head.http10 = true ∧
          ¬(Plain "keep-alive" head.connection ∨ Dressed "keep-alive" head.connection)) := by
  simp only [responseWantsClose, Bool.or_eq_true, Bool.and_eq_true, Bool.not_eq_true', or_assoc,
    ← Bool.not_eq_true, List.contains_iff_mem, isToken_close.mem_tokens_iff,
    isToken_keepAlive.mem_tokens_iff]

theorem announcesClose_iff :
    announcesClose head = true ↔
      head.untilClose = true ∨ (Plain "close" head.connection ∨ Hidden "close" head.connection) ∨
        (head.http10 = true ∧
          ¬(Plain "keep-alive" head.connection ∨ Hidden "keep-alive" head.connection)) := by
  simp only [announcesClose, Bool.or_eq_true, Bool.and_eq_true, Bool.not_eq_true', or_assoc,
    ← Bool.not_eq_true, any_namesToken_iff]

/-- The close decision follows the announcement exactly on the heads whose lines are read as
they are meant. -/
theorem close_decision_iff (head : ResponseHead β) :
    responseWantsClose head = announcesClose head ↔ ReadAsAnnounced head := by
  rw [Bool.eq_iff_iff, responseWantsClose_iff, announcesClose_iff, ReadAsAnnounced]
  -- of each token, whether it is plain, hidden and dressed
  generalize Plain "close" head.connection = plainClose
  generalize Hidden "close" head.connection = hiddenClose
  generalize Dressed "close" head.connection = dressedClose
  generalize Plain "keep-alive" head.connection = plainKeep
  generalize Hidden "keep-alive" head.connection = hiddenKeep
  generalize Dressed "keep-alive" head.connection = dressedKeep
  cases head.untilClose with
  | true => simp
  | false =>
      cases head.http10 with
      | false =>
          simp only [Bool.false_eq_true, false_and, false_or, or_false, true_or, and_true]
          by_cases hplain : plainClose <;> by_cases hhidden : hiddenClose <;>
            by_cases hdressed : dressedClose <;> simp [hplain, hhidden, hdressed]
      | true =>
          simp only [Bool.false_eq_true, Bool.true_eq_false, false_or, true_and]
          -- `keep-alive` decides where a `close` is not plain
          by_cases hplain : plainClose <;> by_cases hhidden : hiddenClose <;>
            by_cases hdressed : dressedClose <;> by_cases hkeep : plainKeep <;>
            by_cases hhides : hiddenKeep <;> simp [hplain, hhidden, hdressed, hkeep, hhides]

/-- A byte that is not UTF-8 in another element hides a `close`. -/
theorem close_overlooked :
    let head : List Bytes → ResponseHead UInt8 := fun connection =>
      ⟨[], false, false, false, connection⟩
    announcesClose (head [asBytes "close, " ++ [255]]) = true ∧
      responseWantsClose (head [asBytes "close, " ++ [255]]) = false ∧
      responseWantsClose (head [asBytes "close, "]) = true := by
  decide +kernel

/-- White space that is no blank makes a `close` of another token. -/
example :
    let head : ResponseHead UInt8 := ⟨[], false, false, false, [asBytes "close\u00a0"]⟩
    announcesClose head = false ∧ responseWantsClose head = true := by
  decide +kernel

end Decision

end ZenohBridge
