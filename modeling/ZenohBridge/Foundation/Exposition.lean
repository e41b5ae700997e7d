import Mathlib.Data.List.Nodup

/-!
# The text exposition format of metrics

A text is a sequence of families. Each opens with a `# HELP` and a `# TYPE` line, and has one
line for each sample: the name, the labels between braces with quoted values, and the value.
The reader takes a text apart into its families. A text that is written from well-formed
families is read back as the same families, whatever the label values contain.

## Implementation notes

The reader is strict: single blanks, no timestamps, no blank lines and no comments besides the
two of a family. Values are natural numbers.
-/

namespace Exposition

abbrev Text := List Char

/-- The inside of a quoted label value. -/
def escapeChar : Char → Text
  | '\\' => ['\\', '\\']
  | '"' => ['\\', '"']
  | '\n' => ['\\', 'n']
  | c => [c]

def escape (value : Text) : Text := value.flatMap escapeChar

/-- A quoted value up to its closing quote, and what follows it. -/
def readQuoted : Text → Option (Text × Text)
  | '"' :: rest => some ([], rest)
  | '\\' :: '\\' :: rest => (readQuoted rest).map fun r => ('\\' :: r.1, r.2)
  | '\\' :: '"' :: rest => (readQuoted rest).map fun r => ('"' :: r.1, r.2)
  | '\\' :: 'n' :: rest => (readQuoted rest).map fun r => ('\n' :: r.1, r.2)
  | c :: rest =>
      if c = '\\' ∨ c = '\n' then none else (readQuoted rest).map fun r => (c :: r.1, r.2)
  | [] => none

/-- One sample of a family. -/
structure Sample where
  name : Text
  labels : List (Text × Text)
  value : Nat
  deriving DecidableEq, Repr

structure Family where
  name : Text
  help : Text
  kind : Text
  samples : List Sample
  deriving DecidableEq, Repr

/-- The characters of the names of metrics and labels. -/
def isNameChar (c : Char) : Bool := c.isAlphanum || c = '_' || c = ':'

structure IsName (name : Text) : Prop where
  nonempty : name ≠ []
  chars : ∀ c ∈ name, isNameChar c = true

section Writer

def writeLabel (label : Text × Text) : Text :=
  label.1 ++ '=' :: '"' :: (escape label.2 ++ ['"'])

/-- The labels after the opening brace. -/
def writeLabels : List (Text × Text) → Text
  | [] => []
  | [label] => writeLabel label ++ ['}']
  | label :: rest => writeLabel label ++ ',' :: writeLabels rest

def Sample.line (s : Sample) : Text :=
  s.name ++ (if s.labels = [] then [] else '{' :: writeLabels s.labels) ++
    ' ' :: Nat.toDigits 10 s.value

def helpMark : Text := ['#', ' ', 'H', 'E', 'L', 'P', ' ']

def typeMark : Text := ['#', ' ', 'T', 'Y', 'P', 'E', ' ']

def Family.lines (f : Family) : List Text :=
  (helpMark ++ f.name ++ ' ' :: f.help) :: (typeMark ++ f.name ++ ' ' :: f.kind) ::
    f.samples.map Sample.line

def writeLines (lines : List Text) : Text := lines.flatMap fun line => line ++ ['\n']

def write (families : List Family) : Text := writeLines (families.flatMap Family.lines)

end Writer

section Reader

/-- Labels up to the closing brace. Every label takes a unit of fuel. -/
def readLabels : Nat → Text → Option (List (Text × Text) × Text)
  | 0, _ => none
  | fuel + 1, text =>
      let name := text.takeWhile isNameChar
      match text.dropWhile isNameChar with
      | '=' :: '"' :: quoted =>
          match readQuoted quoted with
          | some (value, '}' :: rest) => some ([(name, value)], rest)
          | some (value, ',' :: rest) =>
              (readLabels fuel rest).map fun r => ((name, value) :: r.1, r.2)
          | _ => none
      | _ => none

def readNumber (digits : Text) : Option Nat :=
  if digits ≠ [] ∧ digits.all Char.isDigit = true then some (Nat.ofDigitChars 10 digits 0)
  else none

def readSample (line : Text) : Option Sample :=
  let name := line.takeWhile isNameChar
  match line.dropWhile isNameChar with
  | ' ' :: digits => (readNumber digits).map fun value => ⟨name, [], value⟩
  | '{' :: inside =>
      match readLabels line.length inside with
      | some (labels, ' ' :: digits) => (readNumber digits).map fun value => ⟨name, labels, value⟩
      | _ => none
  | _ => none

/-- What one line is. -/
inductive Line where
  | help (name text : Text)
  | type (name kind : Text)
  | sample (s : Sample)
  deriving DecidableEq, Repr

/-- A name and what follows its blank. -/
def readHeader (text : Text) : Option (Text × Text) :=
  match text.dropWhile isNameChar with
  | ' ' :: rest => some (text.takeWhile isNameChar, rest)
  | _ => none

def readLine (line : Text) : Option Line :=
  if line.take 7 = helpMark then (readHeader (line.drop 7)).map fun r => .help r.1 r.2
  else if line.take 7 = typeMark then (readHeader (line.drop 7)).map fun r => .type r.1 r.2
  else (readSample line).map .sample

/-- The samples before the first family, and the families. -/
def collect : List Line → Option (List Sample × List Family)
  | [] => some ([], [])
  | .sample s :: rest => (collect rest).map fun r => (s :: r.1, r.2)
  | .help name help :: .type name' kind :: rest =>
      match collect rest with
      | some (samples, families) =>
          if name = name' ∧ ∀ s ∈ samples, s.name = name then
            some ([], ⟨name, help, kind, samples⟩ :: families)
          else none
      | none => none
  | _ => none

/-- The lines of a text in which every line is ended. -/
def readLines : Text → Option (List Text)
  | [] => some []
  | '\n' :: rest => (readLines rest).map fun lines => [] :: lines
  | c :: rest =>
      match readLines rest with
      | some (line :: lines) => some ((c :: line) :: lines)
      | _ => none

/-- The families of a text. -/
def read (text : Text) : Option (List Family) := do
  let lines ← readLines text
  let parsed ← lines.mapM readLine
  match ← collect parsed with
  | ([], families) => some families
  | _ => none

end Reader

section RoundTrip

/-- The characters that stand for themselves in a quoted value. -/
theorem escapeChar_of_plain {c : Char} (hslash : c ≠ '\\') (hquote : c ≠ '"') (hline : c ≠ '\n') :
    escapeChar c = [c] := by
  rw [escapeChar.eq_def]
  split <;> simp_all

theorem readQuoted_of_plain {c : Char} (hslash : c ≠ '\\') (hquote : c ≠ '"') (hline : c ≠ '\n')
    (rest : Text) :
    readQuoted (c :: rest) = (readQuoted rest).map fun r => (c :: r.1, r.2) := by
  rw [readQuoted.eq_def]
  split <;> simp_all

/-- A quoted value is read up to its own closing quote. -/
theorem readQuoted_escape (value rest : Text) :
    readQuoted (escape value ++ '"' :: rest) = some (value, rest) := by
  induction value with
  | nil => simp [escape, readQuoted]
  | cons c value ih =>
      rw [escape, List.flatMap_cons, List.append_assoc, ← escape]
      by_cases hslash : c = '\\'
      · subst hslash
        simp [escapeChar, readQuoted, ih]
      by_cases hquote : c = '"'
      · subst hquote
        simp [escapeChar, readQuoted, ih]
      by_cases hline : c = '\n'
      · subst hline
        simp [escapeChar, readQuoted, ih]
      rw [escapeChar_of_plain hslash hquote hline, List.singleton_append,
        readQuoted_of_plain hslash hquote hline, ih]
      rfl

/-- An escaped value stays on its line. -/
theorem newline_notMem_escape (value : Text) : '\n' ∉ escape value := by
  intro h
  obtain ⟨c, -, hc⟩ := List.mem_flatMap.mp h
  by_cases hslash : c = '\\'
  · simp [escapeChar, hslash] at hc
  by_cases hquote : c = '"'
  · simp [escapeChar, hquote] at hc
  by_cases hline : c = '\n'
  · simp [escapeChar, hline] at hc
  rw [escapeChar_of_plain hslash hquote hline] at hc
  exact hline (List.mem_singleton.mp hc).symm

/-- A name is read up to the first character that no name has. -/
theorem span_name {name : Text} {c : Char} (h : ∀ d ∈ name, isNameChar d = true)
    (hc : isNameChar c = false) (rest : Text) :
    (name ++ c :: rest).takeWhile isNameChar = name ∧
      (name ++ c :: rest).dropWhile isNameChar = c :: rest := by
  induction name with
  | nil => simp [hc]
  | cons d name ih =>
      obtain ⟨hd, hname⟩ := List.forall_mem_cons.mp h
      simp [hd, ih hname]

theorem readLabels_writeLabels {labels : List (Text × Text)} (hne : labels ≠ [])
    (hnames : ∀ label ∈ labels, ∀ c ∈ label.1, isNameChar c = true) (rest : Text) (fuel : Nat)
    (hfuel : labels.length ≤ fuel) :
    readLabels fuel (writeLabels labels ++ rest) = some (labels, rest) := by
  induction labels generalizing fuel with
  | nil => exact absurd rfl hne
  | cons label labels ih =>
      obtain ⟨name, value⟩ := label
      obtain ⟨hname, hmore⟩ := List.forall_mem_cons.mp hnames
      obtain ⟨fuel, rfl⟩ : ∃ n, fuel = n + 1 := ⟨fuel - 1, by simp at hfuel; omega⟩
      cases labels with
      | nil =>
          have hspan := span_name (c := '=') hname (by decide)
            ('"' :: (escape value ++ '"' :: '}' :: rest))
          simp only [writeLabels, writeLabel, List.append_assoc, List.cons_append,
            List.nil_append, readLabels, hspan.1, hspan.2, readQuoted_escape]
      | cons next labels =>
          have hspan := span_name (c := '=') hname (by decide)
            ('"' :: (escape value ++ '"' :: ',' :: (writeLabels (next :: labels) ++ rest)))
          have hrest := ih (by simp) hmore fuel (by simpa using hfuel)
          simp only [writeLabels, writeLabel, List.append_assoc, List.cons_append,
            List.nil_append] at hspan hrest ⊢
          simp only [readLabels, hspan.1, hspan.2, readQuoted_escape, hrest, Option.map_some]

theorem readNumber_toDigits (n : Nat) : readNumber (Nat.toDigits 10 n) = some n := by
  have hdigits : (Nat.toDigits 10 n).all Char.isDigit = true := by
    rw [List.all_eq_true]
    exact fun c hc => Nat.isDigit_of_mem_toDigits (by decide) (by decide) hc
  rw [readNumber, if_pos ⟨Nat.toDigits_ne_nil, hdigits⟩, Nat.ofDigitChars_ten_toDigits]

/-- A sample whose line can be read back. -/
structure Sample.IsWritable (s : Sample) : Prop where
  name : IsName s.name
  labels : ∀ label ∈ s.labels, ∀ c ∈ label.1, isNameChar c = true

theorem length_le_writeLabels (labels : List (Text × Text)) :
    labels.length ≤ (writeLabels labels).length := by
  induction labels with
  | nil => exact Nat.le_refl 0
  | cons label labels ih =>
      cases labels with
      | nil =>
          simp only [writeLabels, List.length_append, List.length_cons, List.length_nil]
          omega
      | cons next labels =>
          simp only [writeLabels, writeLabel, List.length_append, List.length_cons] at ih ⊢
          omega

theorem readSample_line {s : Sample} (h : s.IsWritable) : readSample s.line = some s := by
  obtain ⟨name, labels, value⟩ := s
  by_cases hlabels : labels = []
  · subst hlabels
    have hspan := span_name (c := ' ') h.name.chars (by decide) (Nat.toDigits 10 value)
    simp only [Sample.line, if_true, List.append_nil] at hspan ⊢
    simp only [readSample, hspan.1, hspan.2, readNumber_toDigits, Option.map_some]
  · have hspan := span_name (c := '{') h.name.chars (by decide)
      (writeLabels labels ++ ' ' :: Nat.toDigits 10 value)
    have hfuel := length_le_writeLabels labels
    have hread := readLabels_writeLabels hlabels h.labels (' ' :: Nat.toDigits 10 value)
      (Sample.line ⟨name, labels, value⟩).length (by simp [Sample.line, hlabels]; omega)
    simp only [Sample.line, hlabels, if_false, List.append_assoc, List.cons_append]
      at hspan hread ⊢
    simp only [readSample, hspan.1, hspan.2, hread, readNumber_toDigits, Option.map_some]

/-- A family whose text can be read back: its lines do not run together, and it is the family
of its samples. -/
structure Family.IsWritable (f : Family) : Prop where
  name : IsName f.name
  help : '\n' ∉ f.help
  kind : '\n' ∉ f.kind
  samples : ∀ s ∈ f.samples, s.name = f.name ∧ s.IsWritable

theorem newline_notMem_name {name : Text} (h : ∀ c ∈ name, isNameChar c = true) :
    '\n' ∉ name := fun hmem => absurd (h _ hmem) (by decide)

theorem newline_notMem_writeLabels {labels : List (Text × Text)}
    (h : ∀ label ∈ labels, ∀ c ∈ label.1, isNameChar c = true) : '\n' ∉ writeLabels labels := by
  induction labels with
  | nil => simp [writeLabels]
  | cons label labels ih =>
      obtain ⟨hlabel, hmore⟩ := List.forall_mem_cons.mp h
      have hname := newline_notMem_name hlabel
      have hvalue := newline_notMem_escape label.2
      cases labels with
      | nil => simp [writeLabels, writeLabel, hname, hvalue]
      | cons next labels => simp [writeLabels, writeLabel, hname, hvalue, ih hmore]

theorem newline_notMem_line {s : Sample} (h : s.IsWritable) : '\n' ∉ s.line := by
  have hname := newline_notMem_name h.name.chars
  have hlabels := newline_notMem_writeLabels h.labels
  have hdigits : '\n' ∉ Nat.toDigits 10 s.value := by
    intro hmem
    exact absurd (Nat.isDigit_of_mem_toDigits (by decide) (by decide) hmem) (by decide)
  by_cases hnone : s.labels = []
  · simp [Sample.line, hnone, hname, hdigits]
  · simp [Sample.line, hnone, hname, hlabels, hdigits]

theorem newline_notMem_lines {f : Family} (h : f.IsWritable) : ∀ line ∈ f.lines, '\n' ∉ line := by
  have hname := newline_notMem_name h.name.chars
  rw [Family.lines, List.forall_mem_cons, List.forall_mem_cons]
  refine ⟨?_, ?_, ?_⟩
  · simp [helpMark, hname, h.help]
  · simp [typeMark, hname, h.kind]
  · intro line hline
    obtain ⟨s, hs, rfl⟩ := List.mem_map.mp hline
    exact newline_notMem_line (h.samples s hs).2

/-- A text is split where its lines were ended. -/
theorem readLines_writeLines {lines : List Text} (h : ∀ line ∈ lines, '\n' ∉ line) :
    readLines (writeLines lines) = some lines := by
  induction lines with
  | nil => rfl
  | cons line lines ih =>
      obtain ⟨hline, hmore⟩ := List.forall_mem_cons.mp h
      have hrest := ih hmore
      rw [writeLines, List.flatMap_cons, ← writeLines, List.append_assoc]
      induction line with
      | nil => simp [readLines, hrest]
      | cons c line ihline =>
          rw [List.mem_cons, not_or] at hline
          have hc : c ≠ '\n' := Ne.symm hline.1
          have hread := ihline
            (List.forall_mem_cons.mpr ⟨hline.2, hmore⟩) hline.2
          rw [List.cons_append, readLines.eq_def]
          split
          · simp_all
          · simp_all
          · simp_all

theorem readHeader_append {name : Text} (h : ∀ c ∈ name, isNameChar c = true) (rest : Text) :
    readHeader (name ++ ' ' :: rest) = some (name, rest) := by
  have hspan := span_name (c := ' ') h (by decide) rest
  simp only [readHeader, hspan.1, hspan.2]

theorem readLine_help {name : Text} (h : ∀ c ∈ name, isNameChar c = true) (help : Text) :
    readLine (helpMark ++ (name ++ ' ' :: help)) = some (.help name help) := by
  rw [readLine, List.take_left' (by rfl), List.drop_left' (by rfl), if_pos rfl,
    readHeader_append h]
  rfl

theorem readLine_type {name : Text} (h : ∀ c ∈ name, isNameChar c = true) (kind : Text) :
    readLine (typeMark ++ (name ++ ' ' :: kind)) = some (.type name kind) := by
  rw [readLine, List.take_left' (by rfl), List.drop_left' (by rfl),
    if_neg (by decide), if_pos rfl, readHeader_append h]
  rfl

/-- A sample does not begin with the mark of a comment. -/
theorem readLine_sample {s : Sample} (h : s.IsWritable) : readLine s.line = some (.sample s) := by
  obtain ⟨c, name, hname⟩ := List.exists_cons_of_ne_nil h.name.nonempty
  have hc : c ≠ '#' := by
    rintro rfl
    exact absurd (h.name.chars '#' (by simp [hname])) (by decide)
  have hfirst : ∃ rest, s.line = c :: rest := by
    refine ⟨name ++ (if s.labels = [] then [] else '{' :: writeLabels s.labels) ++
      ' ' :: Nat.toDigits 10 s.value, ?_⟩
    rw [Sample.line, hname, List.cons_append, List.cons_append]
  obtain ⟨rest, hrest⟩ := hfirst
  have hnot : ∀ mark : Text, mark.head? = some '#' → s.line.take 7 ≠ mark := by
    rintro mark hmark rfl
    rw [hrest, List.take_succ_cons, List.head?_cons, Option.some.injEq] at hmark
    exact hc hmark
  rw [readLine, if_neg (hnot _ rfl), if_neg (hnot _ rfl), readSample_line h]
  rfl

theorem mapM_readLine_samples {samples : List Sample} (h : ∀ s ∈ samples, s.IsWritable) :
    (samples.map Sample.line).mapM readLine = some (samples.map .sample) := by
  induction samples with
  | nil => rfl
  | cons s samples ih =>
      obtain ⟨hs, hmore⟩ := List.forall_mem_cons.mp h
      simp [List.mapM_cons, readLine_sample hs, ih hmore]

/-- The lines of a family, read one by one. -/
def Family.parsed (f : Family) : List Line :=
  .help f.name f.help :: .type f.name f.kind :: f.samples.map .sample

theorem mapM_readLine_lines {f : Family} (h : f.IsWritable) :
    f.lines.mapM readLine = some f.parsed := by
  have hsamples := mapM_readLine_samples fun s hs => (h.samples s hs).2
  simp [Family.lines, Family.parsed, List.mapM_cons, readLine_help h.name.chars,
    readLine_type h.name.chars, hsamples]

theorem collect_samples (samples : List Sample) {rest : List Line} {families : List Family}
    (h : collect rest = some ([], families)) :
    collect (samples.map .sample ++ rest) = some (samples, families) := by
  induction samples with
  | nil => exact h
  | cons s samples ih => simp [collect, ih]

theorem collect_parsed {families : List Family} (h : ∀ f ∈ families, f.IsWritable) :
    collect (families.flatMap Family.parsed) = some ([], families) := by
  induction families with
  | nil => rfl
  | cons f families ih =>
      obtain ⟨hf, hmore⟩ := List.forall_mem_cons.mp h
      have hsamples := collect_samples f.samples (ih hmore)
      have hnames : ∀ s ∈ f.samples, s.name = f.name := fun s hs => (hf.samples s hs).1
      simp only [List.flatMap_cons, Family.parsed, List.cons_append, collect, hsamples]
      simp only [true_and, if_pos hnames]

/-- The format is unambiguous: a text that is written from writable families is read back as
these families. -/
theorem read_write {families : List Family} (h : ∀ f ∈ families, f.IsWritable) :
    read (write families) = some families := by
  have hlines : readLines (write families) = some (families.flatMap Family.lines) := by
    apply readLines_writeLines
    intro line hline
    obtain ⟨f, hf, hmem⟩ := List.mem_flatMap.mp hline
    exact newline_notMem_lines (h f hf) line hmem
  have hparsed : (families.flatMap Family.lines).mapM readLine =
      some (families.flatMap Family.parsed) := by
    clear hlines
    induction families with
    | nil => rfl
    | cons f families ih =>
        obtain ⟨hf, hmore⟩ := List.forall_mem_cons.mp h
        simp [List.mapM_append, mapM_readLine_lines hf, ih hmore]
  simp [read, hlines, hparsed, collect_parsed h]

end RoundTrip

/-- A reader tells samples apart by their name and labels. When the families have names of their
own, it is enough that this holds within each family. -/
theorem nodup_series {families : List Family} (hnames : (families.map Family.name).Nodup)
    (hw : ∀ f ∈ families, f.IsWritable)
    (h : ∀ f ∈ families, (f.samples.map Sample.labels).Nodup) :
    ((families.flatMap Family.samples).map fun s => (s.name, s.labels)).Nodup := by
  induction families with
  | nil => exact List.nodup_nil
  | cons f families ih =>
      obtain ⟨hf, hmore⟩ := List.forall_mem_cons.mp hw
      obtain ⟨hlabels, hrest⟩ := List.forall_mem_cons.mp h
      rw [List.map_cons, List.nodup_cons] at hnames
      rw [List.flatMap_cons, List.map_append, List.nodup_append]
      refine ⟨?_, ih hnames.2 hmore hrest, ?_⟩
      · apply List.Nodup.of_map Prod.snd
        rw [List.map_map]
        exact hlabels
      · intro a ha b hb hab
        obtain ⟨s, hs, rfl⟩ := List.mem_map.mp ha
        obtain ⟨s', hs', rfl⟩ := List.mem_map.mp hb
        obtain ⟨f', hf', hmem⟩ := List.mem_flatMap.mp hs'
        apply hnames.1
        rw [← (hf.samples s hs).1, (Prod.mk.inj hab).1, ((hmore f' hf').samples s' hmem).1]
        exact List.mem_map_of_mem hf'

end Exposition
